import Formula.Event
import Formula.Program

/-!
# Straight-line code

Native code for a program needs no operand stack. Each instruction becomes one assignment to a value
of its own, and where the operands of an operator are is found out while the code is generated.

## Main definitions

- `Assignment`: how one value is computed from the arguments and earlier values
- `StraightLine`: the assignments of a program and the value that is its result
- `StraightLine.ofProgram`: generates the code
- `StraightLine.generate`: the same, with a report
- `StraightLine.run`: executes the code

## Design notes

The assignments are counted from zero, so the number of a value is the number of assignments before
its own.
-/

namespace Formula

/-- How a value is computed. -/
inductive Assignment where
  | constant (value : Float)
  /-- The argument at an index, loaded from eight times the index in bytes. -/
  | argument (index : UInt32)
  /-- An operator on two earlier values. -/
  | operation (op : Operator) (left right : Nat)
  deriving Repr

/-- The code of a function of `arity` parameters. -/
structure StraightLine where
  assignments : List Assignment
  /-- The number of the value that is returned. -/
  result : Nat
  arity : Nat
  deriving Repr

namespace StraightLine

/-- The greatest offset in bytes that an instruction can load from. -/
def maxOffset : Nat := Nat.pow 2 31 - 1

/-- The size of an argument in bytes. -/
def argumentSize : Nat := 8

/-- Takes the number of the topmost value. -/
def pop (position : Nat) : List Nat → Except Fault (Nat × List Nat)
  | [] => .error (.underflow position)
  | value :: rest => .ok (value, rest)

/-- The assignment for the instruction at `position`, and what it leaves of the numbers of the
values on the operand stack. -/
def assign (position : Nat) (stack : List Nat) :
    Instruction → Except Fault (Assignment × List Nat)
  | .loadConstant value => .ok (.constant value, stack)
  | .loadParameter index =>
    if index.toNat * argumentSize ≤ maxOffset then
      .ok (.argument index, stack)
    else
      .error (.codegen "parameter offset does not fit in 32 bits")
  | .operate op => do
    let (right, stack) ← pop position stack
    let (left, stack) ← pop position stack
    return (.operation op left right, stack)

/-- The assignments for the instructions from `position` on and the number of the final value, given
the numbers of the values on the operand stack. -/
def assignFrom (position : Nat) (stack : List Nat) :
    List Instruction → Except Fault (List Assignment × Nat)
  | [] => do
    let (result, _) ← pop position stack
    return ([], result)
  | instruction :: rest => do
    let (assignment, stack) ← assign position stack instruction
    let (assignments, result) ← assignFrom (position + 1) (position :: stack) rest
    return (assignment :: assignments, result)

/-- Generates the code of a program. -/
def ofProgram (p : Program) : Except Fault StraightLine := do
  let (assignments, result) ← assignFrom 0 [] p.instructions
  return { assignments, result, arity := p.arity }

/-- Generates the code of a program and reports it. -/
def generate (p : Program) : Attempt StraightLine := do
  let code ← liftM (ofProgram p)
  report (.generated p.length p.arity)
  return code

/-- An earlier value. -/
def lookup (values : Array Float) (index : Nat) : Except Breach Float :=
  match values[index]? with
  | some value => .ok value
  | none => .error (.undefinedValue index)

section Execution

variable [Arithmetic]

/-- The value of an assignment. -/
def compute (args : List Float) (values : Array Float) : Assignment → Except Breach Float
  | .constant value => .ok value
  | .argument index =>
    match args[index.toNat]? with
    | some value => .ok value
    | none => .error (.missingArgument index)
  | .operation op left right => do
    return op.apply (← lookup values left) (← lookup values right)

/-- Executes an assignment, whose value comes after the earlier ones. -/
def define (args : List Float) (values : Array Float) (assignment : Assignment) :
    Except Breach (Array Float) :=
  return values.push (← compute args values assignment)

/-- Executes the code on one argument per parameter. -/
def run (code : StraightLine) (args : List Float) : Except Failure Float := do
  requireArity code.arity args.length
  let values ← liftM (code.assignments.foldlM (define args) #[])
  lookup values code.result

end Execution

end StraightLine

end Formula
