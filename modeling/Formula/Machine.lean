import Formula.Event
import Formula.Program

/-!
# The interpreter

A machine executes a program on an operand stack. It can be used for any number of runs: a run
starts with an empty stack and, unless it fails, ends with one.

## Main definitions

- `Machine`: a program and its operand stack
- `Machine.step`: the execution of one instruction
- `Machine.run`: a run of the program
- `Program.execute`: a run on a fresh machine

## Design notes

The depth of a verified program's stack never exceeds `Program.maxDepth`, so a push beyond it is a
breach and not a fault. Likewise nothing but the result is left at the end.
-/

namespace Formula

/-- A program with an operand stack, the top first. -/
structure Machine where
  program : Program
  stack : List Float := []

namespace Machine

/-- What is done on an operand stack. The stack and the events before a failure are kept. -/
abbrev Action (α : Type) := ExceptT Failure (StateT (List Float) (Logged Event)) α

/-- Pushes a value on a stack that is to hold at most `capacity` values. -/
def push (capacity : Nat) (value : Float) : Action Unit := do
  if (← get).length < capacity then
    modify (value :: ·)
  else
    throw (.breach .stackOverflow)

/-- Pops a value for the instruction at `position`. -/
def pop (position : Nat) : Action Float := do
  match ← get with
  | [] => throw (.fault (.underflow position))
  | value :: rest =>
    set rest
    return value

/-- A push changes the stack only if there is room. -/
theorem run_push (capacity : Nat) (value : Float) (stack : List Float) :
    (push capacity value).run.run stack =
      if stack.length < capacity then
        pure (.ok (), value :: stack)
      else
        pure (.error (.breach .stackOverflow), stack) := by
  change (ite (stack.length < capacity) _ _ : Action Unit).run.run stack = _
  split <;> rfl

@[simp] theorem run_pop_nil (position : Nat) :
    (pop position).run.run [] = pure (.error (.fault (.underflow position)), []) := rfl

@[simp] theorem run_pop_cons (position : Nat) (value : Float) (stack : List Float) :
    (pop position).run.run (value :: stack) = pure (.ok value, stack) := rfl

section Execution

variable [Arithmetic]

/-- Executes an instruction. -/
def step (capacity : Nat) (args : List Float) (position : Nat) (instruction : Instruction) :
    Action Unit := do
  Logged.record (Event.executed position instruction (← get).length)
  match instruction with
  | .loadConstant value => push capacity value
  | .loadParameter index =>
    match args[index.toNat]? with
    | some value => push capacity value
    | none => throw (.fault (.invalidParameterIndex index args.length))
  | .operate op => do
    let right ← pop position
    let left ← pop position
    push capacity (op.apply left right)

/-- Executes the instructions from `position` on. -/
def steps (capacity : Nat) (args : List Float) (position : Nat) : List Instruction → Action Unit
  | [] => return
  | instruction :: rest => do
    step capacity args position instruction
    steps capacity args (position + 1) rest

@[simp] theorem run_steps_nil (capacity : Nat) (args : List Float) (position : Nat)
    (stack : List Float) :
    (steps capacity args position []).run.run stack = pure (.ok (), stack) := rfl

/-- The instructions after one that fails are not executed. -/
theorem run_steps_cons (capacity : Nat) (args : List Float) (position : Nat)
    (instruction : Instruction) (rest : List Instruction) (stack : List Float) :
    (steps capacity args position (instruction :: rest)).run.run stack =
      ((step capacity args position instruction).run.run stack >>= fun (outcome, stack) =>
        match outcome with
        | .ok () => (steps capacity args (position + 1) rest).run.run stack
        | .error failure => pure (.error failure, stack)) := by
  simp only [steps, ExceptT.run_bind, StateT.run_bind]
  congr 1
  funext ⟨outcome, stack⟩
  cases outcome <;> rfl

/-- Executes a program on an empty stack and pops its result. The number of arguments is checked
before the stack is touched. -/
def action (p : Program) (args : List Float) : Action Float := do
  requireArity p.arity args.length
  set ([] : List Float)
  steps p.maxDepth args 0 p.instructions
  let result ← pop p.length
  if (← get).isEmpty then
    return result
  else
    throw (.breach .valuesLeft)

/-- The result of a run and the machine after it. -/
def run (machine : Machine) (args : List Float) :
    Logged Event (Except Failure Float × Machine) := do
  let (result, stack) ← (action machine.program args).run.run machine.stack
  return (result, { machine with stack })

end Execution

end Machine

/-- The result of a run on a fresh machine. -/
def Program.execute [Arithmetic] (p : Program) (args : List Float) : Attempt Float :=
  ExceptT.mk (Prod.fst <$> Machine.run { program := p } args)

end Formula
