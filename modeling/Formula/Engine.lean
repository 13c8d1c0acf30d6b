import Formula.Emitter
import Formula.Machine
import Formula.StraightLine

/-!
# The engine

An engine makes functions of expressions and programs. A function keeps its program and what
executes it; the expression that it was compiled from is no longer needed.

## Main definitions

- `Executor`: what executes the program of a function
- `CompiledFunction`: a program with named parameters and an executor
- `CompiledFunction.call`: the result for a list of arguments
- `CompiledFunction.ofArity`: the function on argument vectors of a fixed length
- `Engine`: a build of the library and a backend of choice
- `Engine.compile`, `Engine.compileWith`, `Engine.load`: make functions
-/

namespace Formula

/-- What executes the program of a function. -/
inductive Executor where
  | interpreter (program : Program)
  | native (code : StraightLine)

namespace Executor

/-- The backend of the executor. -/
def backend : Executor → Backend
  | .interpreter _ => .interpreter
  | .native _ => .native

/-- Executes the program. Every executor checks the number of arguments. -/
def execute [Arithmetic] : Executor → List Float → Attempt Float
  | .interpreter program, args => program.execute args
  | .native code, args => code.run args

/-- Makes the executor of a program for a backend that the build contains. -/
def ofProgram (build : Build) (backend : Backend) (program : Program) : Attempt Executor :=
  if backend.isAvailable build then
    match backend with
    | .interpreter => return .interpreter program
    | .native => return .native (← StraightLine.generate program)
  else
    throw (.fault (.backendUnavailable backend))

end Executor

/-- A function of named parameters. -/
structure CompiledFunction where
  /-- The names of the parameters, in the order of the arguments. -/
  params : List String
  program : Program
  executor : Executor
  /-- Every parameter of the program has a name. -/
  named : params.length = program.arity

namespace CompiledFunction

/-- The number of parameters. -/
def arity (f : CompiledFunction) : Nat :=
  f.params.length

/-- The backend that executes the function. -/
def backend (f : CompiledFunction) : Backend :=
  f.executor.backend

/-- The result for one argument per parameter. -/
def call [Arithmetic] (f : CompiledFunction) (args : List Float) : Attempt Float := do
  requireArity f.arity args.length
  f.executor.execute args

/-- The function on vectors of `n` arguments, which cannot be called with any other number. -/
def ofArity [Arithmetic] (f : CompiledFunction) (n : Nat) :
    Except Fault (Vector Float n → Attempt Float) := do
  requireArity f.arity n
  return fun args => f.executor.execute args.toList

end CompiledFunction

/-- A build of the library together with the backend for functions that are compiled without naming
one. -/
structure Engine where
  build : Build
  backend : Backend := default
  deriving DecidableEq, Repr

namespace Engine

/-- Puts a function together and reports it. -/
def link (engine : Engine) (params : List String) (program : Program) (backend : Backend) :
    Attempt CompiledFunction := do
  let executor ← Executor.ofProgram engine.build backend program
  report (.compiled backend program.arity program.length)
  if named : params.length = program.arity then
    return { params, program, executor, named }
  else
    throw (.breach .parameterCount)

/-- Compiles an expression for the given backend. -/
def compileWith (engine : Engine) (e : Expression) (backend : Backend) :
    Attempt CompiledFunction := do
  engine.link e.params (← e.compile) backend

/-- Compiles an expression for the engine's backend. -/
def compile (engine : Engine) (e : Expression) : Attempt CompiledFunction :=
  engine.compileWith e engine.backend

/-- The name of a parameter that has none, by its index. -/
def placeholder (index : Nat) : String :=
  s!"${index}"

/-- Makes a function of a program. A program has no names for its parameters, so they are named by
their indices. -/
def load (engine : Engine) (program : Program) (backend : Backend) : Attempt CompiledFunction :=
  engine.link ((List.range program.arity).map placeholder) program backend

end Engine

end Formula
