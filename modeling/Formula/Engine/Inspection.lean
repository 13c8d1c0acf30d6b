import Formula.Engine
import Formula.Program.Listing
import Formula.Text.Quoted

/-!
# Inspecting functions and engines

The texts that show the make-up of functions and engines in diagnostics. Each lists the fields of a
structure by name.

## Main definitions

- `inspection`: a name followed by named fields
- `CompiledFunction.inspect`, `Engine.inspect`: the texts
-/

namespace Formula

/-- A name followed by named fields between braces. -/
def inspection (name : String) (fields : List (String × String)) : String :=
  let shown := fields.map fun (field, value) => s!"{field}: {value}"
  name ++ " \x7b " ++ ", ".intercalate shown ++ " \x7d"

/-- Shows an executor. Where native code lies in memory is left open. -/
def Executor.inspect : Executor → String
  | .interpreter program => inspection "Interpreter" [("code", program.listing)]
  | .native code =>
    inspection "NativeFunction" [("entry", "PTR"), ("arity", toString code.arity)]

/-- Shows a function with its parameters, its program and its executor. -/
def CompiledFunction.inspect (f : CompiledFunction) : String :=
  inspection "CompiledFunction"
    [("params", quotedList f.params), ("code", f.program.listing),
      ("executor", f.executor.inspect)]

/-- Shows an engine with its backend. -/
def Engine.inspect (engine : Engine) : String :=
  let backend :=
    match engine.backend with
    | .interpreter => "Interpreter"
    | .native => "Native"
  let compilation := inspection "CompilationOptions" [("backend", backend)]
  let options := inspection "EngineOptions" [("default_compilation_options", compilation)]
  inspection "Engine" [("options", options)]

end Formula
