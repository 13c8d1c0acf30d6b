import Formula.CommandLine.Arguments
import Formula.Engine
import Formula.Program.Listing
import Formula.Report
import Formula.Sample
import Formula.Verbosity

/-!
# The command line

The program shows a sample expression, compiles it, and prints what each backend computes.

## Main definitions

- `Entry`: something that the program prints
- `CommandLine.run`: what the program prints for a command line, and its exit status
- `Printout`: the texts for the two output streams
-/

namespace Formula

/-- Something that the program prints. -/
inductive Entry where
  /-- A line on standard output. -/
  | line (text : String)
  /-- Text on standard output. -/
  | text (text : String)
  /-- A line of the log. -/
  | event (event : Event)
  /-- A problem after which the program goes on. -/
  | problem (report : Report)
  /-- A problem that ends the program. -/
  | abort (report : Report)
  /-- A command line that is refused. -/
  | misuse (reason : Misuse)
  deriving Repr

namespace CommandLine

/-- The help text. -/
def help : String :=
  String.intercalate "\n"
    ["Render, compile and evaluate sample arithmetic expressions",
      "",
      "Usage: arith [OPTIONS] [ARGS]...",
      "",
      "Arguments:",
      "  [ARGS]...  Arguments, in parameter order (defaults to the sample's own)",
      "",
      "Options:",
      "      --sample <SAMPLE>    Sample expression to use (see --list) [default: canonical]",
      "      --backend <BACKEND>  Backend(s) that run the compiled function [default: all] " ++
        "[possible values: interpreter, native, all]",
      "      --show <SHOW>        What to print before the results [default: all] " ++
        "[possible values: prefix, bytecode, all, none]",
      "      --list               List the available samples and exit",
      "  -h, --help               Print help",
      ""]

/-- A computation of the program. -/
abbrev Action (α : Type) := ExceptT Failure (Logged Entry) α

/-- Prints something. -/
def print (entry : Entry) : Action Unit :=
  ExceptT.lift (Logged.record entry)

/-- Runs an attempt and logs its events. -/
def observe {α : Type} (attempt : Attempt α) : Action α :=
  ExceptT.mk ⟨attempt.run.value, attempt.run.entries.map .event⟩

/-- The line of a sample in the list of samples. -/
def sampleLine (sample : Sample) : String :=
  let params := ", ".intercalate sample.params
  s!"{Column.left 10 sample.name} {sample.notated}  ({params})"

/-- The line of the arguments, as far as there are parameters for them. -/
def argsLine (params : List String) (args : List Float) : String :=
  let bindings := (params.zip args).map fun (name, value) => s!"{name} = {Number.plain value}"
  "args:     " ++ ", ".intercalate bindings

/-- The line of a backend's result. -/
def resultLine (backend : Backend) (value : Float) : String :=
  Column.left 12 (backend.name ++ ":") ++ " " ++ Number.plain value

/-- Prints the rendering and the program of an expression as far as they are to be shown. -/
def printOverview (overview : Overview) (e : Expression) : Action Unit := do
  if overview.showsRendering then
    print (.line ("prefix:   " ++ (← liftM e.render)))
  if overview.showsBytecode then
    let program ← observe e.compile
    print (.line s!"bytecode: {program.length} instructions, max stack {program.maxDepth}")
    program.lines.forM fun line => print (.line ("  " ++ line))

/-- Prints the result of a backend, or why it has none. Tells whether there is a result. -/
def printResult (build : Build) (e : Expression) (args : List Float) (backend : Backend) :
    Action Bool := do
  let attempt := do
    let f ← (Engine.mk build default).compileWith e backend
    f.call args
  tryCatch
    (do
      print (.line (resultLine backend (← observe attempt)))
      return true)
    fun
      | .fault fault => do
        print (.event (.backendFailed backend fault.message))
        print (.problem (.ofFault fault))
        return false
      | .breach breach => throw (.breach breach)

/-- Shows a sample and runs it on the given arguments, or on its own if none are given. Tells
whether every backend has a result. -/
def runSample (build : Build) (options : Options) (sample : Sample) : Action Bool := do
  let e ← observe sample.expression
  print (.line s!"sample:   {sample.name} = {sample.notated}")
  printOverview (options.overview.getD .all) e
  let args := if options.args.isEmpty then sample.defaultArgs else options.args
  print (.line (argsLine e.params args))
  let backends := (options.backends.getD .all).backends build
  let results ← backends.mapM (printResult build e args)
  return results.all id

/-- The name of the sample that is used where none is named. -/
def defaultSample : String := "canonical"

/-- The report of a sample name that no sample has. -/
def unknownSample (name : String) : Report where
  code := "arith::cli::unknown_sample"
  message := s!"unknown sample `{name}`"
  advice := "run with --list to see the samples"

/-- Does what the options ask for. The result is the exit status. -/
def perform (build : Build) (options : Options) : Action Nat := do
  if options.list then
    Sample.all.forM fun sample => print (.line (sampleLine sample))
    return 0
  let name := options.sample.getD defaultSample
  match Sample.find? name with
  | none =>
    print (.abort (unknownSample name))
    return 1
  | some sample =>
    return if ← runSample build options sample then 0 else 1

/-- What the program prints for a command line, and its exit status. -/
def run (build : Build) (words : List String) : Logged Entry Nat :=
  match Options.read words with
  | .error .help => ⟨0, [.text help]⟩
  | .error (.misuse reason) => ⟨2, [.misuse reason]⟩
  | .ok options =>
    let result := (perform build options).run
    match result.value with
    | .ok status => ⟨status, result.entries⟩
    | .error (.fault fault) => ⟨1, result.entries ++ [.abort (.ofFault fault)]⟩
    | .error (.breach _) => ⟨101, result.entries⟩

end CommandLine

/-- The texts of a run of the program. -/
structure Printout where
  /-- What goes to standard output. -/
  output : String
  /-- What goes to standard error. -/
  errors : String
  deriving Repr

namespace Printout

/-- The part of an entry on standard output. -/
def outputOf : Entry → String
  | .line text => text ++ "\n"
  | .text text => text
  | _ => ""

/-- The part of an entry on standard error. -/
def errorsOf (verbosity : Verbosity) (time : String) : Entry → String
  | .event event => if verbosity.logs event.level then event.logLine time else ""
  | .problem report => report.color
  | .abort report => s!"Error: {report.plain}\n"
  | .misuse reason => s!"error: {reason.message}\n"
  | _ => ""

/-- The texts of the entries, with log lines that all bear the given time. -/
def ofEntries (verbosity : Verbosity) (time : String) (entries : List Entry) : Printout where
  output := String.join (entries.map outputOf)
  errors := String.join (entries.map (errorsOf verbosity time))

end Printout

end Formula
