import Formula.Backend

/-!
# Faults

Why a tree is not accepted, a call not made or a program not executed. Arithmetic itself has no
faults: division by zero, overflow and NaN are ordinary results.

## Main definitions

- `Fault`: the causes, with what identifies each of them
- `Fault.kind`, `Fault.message`, `Fault.advice`: the name, the text and the remedy of a fault
- `requireArity`: the check on the number of arguments that every way of calling makes
- `Breach`: a broken internal invariant
- `Failure`: a fault or a breach

## Design notes

Faults are what callers can cause. A breach is a broken promise of the library to itself. It has
constructors so that functions that rely on such promises are total, and so that it can be stated
that they never break one.
-/

namespace Formula

/-- A cause for which a tree, a call or a program is refused. -/
inductive Fault where
  /-- A node that is no constant, parameter or binary operator. -/
  | unsupportedNodeKind (kind : String)
  /-- A parameter beyond the `count` declared ones. -/
  | invalidParameterIndex (index : UInt32) (count : Nat)
  /-- A parameter name that was declared before. -/
  | duplicateParameter (name : String)
  /-- A call with a wrong number of arguments. -/
  | arityMismatch (expected actual : Nat)
  /-- A program whose operand stack does not work out. -/
  | malformedBytecode (position : Nat) (reason : String)
  /-- A backend that the build does not contain. -/
  | backendUnavailable (backend : Backend)
  /-- A program for which no native code can be generated. -/
  | codegen (message : String)
  deriving DecidableEq, Repr

section Outcomes

variable {ε ε' α β : Type}

/-- A computation goes on after a success. -/
@[simp] theorem ok_bind (a : α) (f : α → Except ε β) : Except.ok a >>= f = f a := rfl

/-- A computation ends with its first failure. -/
@[simp] theorem error_bind (e : ε) (f : α → Except ε β) : Except.error e >>= f = .error e := rfl

variable {outcome : Except ε α} {wrap : ε → ε'}

theorem mapError_eq_ok_iff {a : α} : outcome.mapError wrap = .ok a ↔ outcome = .ok a := by
  cases outcome with
  | ok other =>
    change Except.ok other = Except.ok a ↔ _
    simp
  | error e =>
    change Except.error (wrap e) = Except.ok a ↔ _
    simp

theorem mapError_eq_error_iff {e : ε} (hwrap : Function.Injective wrap) :
    outcome.mapError wrap = .error (wrap e) ↔ outcome = .error e := by
  cases outcome with
  | ok a =>
    change Except.ok a = Except.error (wrap e) ↔ _
    simp
  | error other =>
    change Except.error (wrap other) = Except.error (wrap e) ↔ _
    rw [Except.error.injEq, Except.error.injEq]
    exact ⟨fun h => hwrap h, congrArg wrap⟩

end Outcomes

namespace Fault

/-- The short name of the fault's kind. -/
def kind : Fault → String
  | .unsupportedNodeKind .. => "unsupported_node_kind"
  | .invalidParameterIndex .. => "invalid_parameter_index"
  | .duplicateParameter .. => "duplicate_parameter"
  | .arityMismatch .. => "arity_mismatch"
  | .malformedBytecode .. => "malformed_bytecode"
  | .backendUnavailable .. => "backend_unavailable"
  | .codegen .. => "codegen"

/-- What went wrong, in one line. -/
def message : Fault → String
  | .unsupportedNodeKind kind => s!"unsupported node kind `{kind}`"
  | .invalidParameterIndex index count =>
    s!"parameter index {index} is out of bounds for {count} declared parameter(s)"
  | .duplicateParameter name => s!"parameter `{name}` is declared more than once"
  | .arityMismatch expected actual => s!"expected {expected} argument(s), got {actual}"
  | .malformedBytecode position reason =>
    s!"malformed bytecode at instruction {position}: {reason}"
  | .backendUnavailable backend =>
    s!"the {backend.name} backend is not available in this build"
  | .codegen message => s!"native code generation failed: {message}"

/-- What to do about it. -/
def advice : Fault → String
  | .unsupportedNodeKind .. => "only constants, parameters and binary + - * / can be compiled"
  | .invalidParameterIndex .. =>
    "parameter indices must be below the number of declared parameters"
  | .duplicateParameter .. => "give each parameter a distinct name"
  | .arityMismatch .. => "pass one argument per declared parameter, in order"
  | .malformedBytecode .. =>
    "each operator needs two values on the stack; the program must leave one"
  | .backendUnavailable .. => "rebuild with the `jit` feature or use the interpreter backend"
  | .codegen .. => "the interpreter backend runs the same bytecode"

/-- A program pops a value that is not there. -/
def underflow (position : Nat) : Fault :=
  .malformedBytecode position "operand stack underflow"

end Fault

/-- Refuses a number of arguments other than the expected one. -/
def requireArity (expected actual : Nat) : Except Fault Unit :=
  if actual = expected then .ok () else .error (.arityMismatch expected actual)

theorem requireArity_of_ne {expected actual : Nat} (h : actual ≠ expected) :
    requireArity expected actual = .error (.arityMismatch expected actual) :=
  if_neg h

theorem requireArity_eq_ok_iff {expected actual : Nat} :
    requireArity expected actual = .ok () ↔ actual = expected := by
  unfold requireArity
  split <;> simp [*]

/-- A broken internal invariant. -/
inductive Breach where
  /-- A value is pushed on an operand stack that holds as many as announced. -/
  | stackOverflow
  /-- A finished run leaves values besides its result. -/
  | valuesLeft
  /-- An emitted instruction pops more values than the ones before it leave. -/
  | emittedUnderflow
  /-- The emitted instructions do not leave exactly one value. -/
  | unbalancedEmission
  /-- The emitted instructions do not verify with the recorded greatest depth. -/
  | unverifiedEmission
  /-- A checked parameter has no argument. -/
  | missingArgument (index : UInt32)
  /-- A native operation reads a value that no earlier one defines. -/
  | undefinedValue (index : Nat)
  /-- A function has more or fewer parameter names than its program has parameters. -/
  | parameterCount
  deriving DecidableEq, Repr

/-- Why something that should give a result gives none. -/
inductive Failure where
  | fault (cause : Fault)
  | breach (invariant : Breach)
  deriving DecidableEq, Repr

namespace Failure

instance : MonadLift (Except Fault) (Except Failure) where
  monadLift := Except.mapError .fault

instance : MonadLift (Except Breach) (Except Failure) where
  monadLift := Except.mapError .breach

/-- Joins the two ways to fail. A breach hides whether there also was a fault. -/
def settle {α : Type} : Except Breach (Except Fault α) → Except Failure α
  | .error broken => .error (.breach broken)
  | .ok (.error refused) => .error (.fault refused)
  | .ok (.ok a) => .ok a

end Failure

end Formula
