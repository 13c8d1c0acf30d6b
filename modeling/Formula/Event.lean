import Formula.Fault
import Formula.Instruction
import Formula.Logged

/-!
# Events

What the library reports about its own work.

## Main definitions

- `Level`: how important a log line is
- `Event`: what is reported, with its fields
- `Event.level`, `Event.message`, `Event.fields`: the parts of a log line
- `Attempt`: a computation that reports events and may fail
- `Attempt.result`: what it comes to
-/

namespace Formula

/-- The importance of a log line. -/
inductive Level where
  | error
  | warn
  | info
  | debug
  | trace
  deriving DecidableEq, Repr

namespace Level

/-- Every level, the most important first. -/
def all : List Level := [.error, .warn, .info, .debug, .trace]

/-- The name of the level. -/
def name : Level → String
  | .error => "ERROR"
  | .warn => "WARN"
  | .info => "INFO"
  | .debug => "DEBUG"
  | .trace => "TRACE"

/-- The place of the level, counted from the most important. -/
def rank : Level → Nat
  | .error => 1
  | .warn => 2
  | .info => 3
  | .debug => 4
  | .trace => 5

end Level

/-- Something that the library did. -/
inductive Event where
  /-- A tree is an expression of `arity` parameters. -/
  | validated (arity depth : Nat)
  /-- An expression is compiled to a program. -/
  | emitted (instructions maxDepth arity : Nat)
  /-- A program is made callable. -/
  | compiled (backend : Backend) (arity instructions : Nat)
  /-- Native code is generated for a program. -/
  | generated (instructions arity : Nat)
  /-- An instruction is about to be executed on a stack of `depth` values. -/
  | executed (position : Nat) (instruction : Instruction) (depth : Nat)
  /-- A backend gave no result. -/
  | backendFailed (backend : Backend) (message : String)
  deriving DecidableEq, Repr

/-- The value of a field of a log line. -/
inductive FieldValue where
  | number (n : Nat)
  | text (s : String)
  deriving DecidableEq, Repr

namespace FieldValue

/-- The value as it is printed. -/
def render : FieldValue → String
  | .number n => s!"{n}"
  | .text s => s

end FieldValue

namespace Event

/-- Only the execution of single instructions is traced. -/
def level : Event → Level
  | .executed .. => .trace
  | _ => .debug

/-- The text of the log line. -/
def message : Event → String
  | .validated .. => "expression validated"
  | .emitted .. => "emitted bytecode"
  | .compiled .. => "compiled function"
  | .generated .. => "generated native code"
  | .executed .. => "execute"
  | .backendFailed .. => "backend failed"

/-- The fields of the log line, in order. -/
def fields : Event → List (String × FieldValue)
  | .validated arity depth => [("arity", .number arity), ("depth", .number depth)]
  | .emitted instructions maxDepth arity =>
    [("instructions", .number instructions), ("max_stack_size", .number maxDepth),
      ("arity", .number arity)]
  | .compiled backend arity instructions =>
    [("backend", .text backend.name), ("arity", .number arity),
      ("instructions", .number instructions)]
  | .generated instructions arity =>
    [("instructions", .number instructions), ("arity", .number arity)]
  | .executed position instruction depth =>
    [("position", .number position), ("instruction", .text instruction.text),
      ("depth", .number depth)]
  | .backendFailed backend message => [("backend", .text backend.name), ("error", .text message)]

end Event

/-- A computation that reports events and may fail. The events before a failure are kept. -/
abbrev Attempt (α : Type) := ExceptT Failure (Logged Event) α

/-- Reports an event. -/
def report (event : Event) : Attempt Unit :=
  ExceptT.lift (Logged.record event)

namespace Attempt

variable {α β : Type}

/-- What the attempt comes to, its events left out. -/
def result (attempt : Attempt α) : Except Failure α :=
  attempt.run.value

@[simp] theorem result_pure (a : α) : result (pure a) = .ok a := rfl

@[simp] theorem result_report (event : Event) : result (report event) = .ok () := rfl

@[simp] theorem result_liftM (outcome : Except Failure α) : result (liftM outcome) = outcome := rfl

@[simp] theorem result_liftM_fault (outcome : Except Fault α) :
    result (liftM outcome) = outcome.mapError .fault := rfl

/-- The events of an attempt have no influence on what comes after it. -/
@[simp] theorem result_bind (attempt : Attempt α) (f : α → Attempt β) :
    result (attempt >>= f) = attempt.result >>= fun a => (f a).result := by
  simp only [result, ExceptT.run_bind, Logged.value_bind]
  cases attempt.run.value <;> rfl

end Attempt

end Formula
