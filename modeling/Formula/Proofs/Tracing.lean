import Formula.Proofs.Execution

/-!
# The trace of a run

Before each instruction a run reports the depth of the operand stack. These depths are on record in
a program that has never been run: each is the one that the instruction before leaves. So all that a
run reports is known beforehand, whatever the arguments are and whatever the machine has run before.

## Main definitions

- `Event.Traces`: an event that reports the execution of an instruction

## Main statements

- `Machine.getElem?_executions_eq_some`: a run reports the depths on record
- `Machine.trace_after_history`: the trace of a run on a machine that has run before
-/

namespace Formula

open Program

/-- The event reports, at the least important level, that the instruction at a position is executed
on a stack of `depth` values. -/
def Event.Traces (position : Nat) (instruction : Instruction) (depth : Nat) (event : Event) : Prop :=
  event.level = .trace ∧ event.message = "execute" ∧
    event.fields = [("position", .number position), ("instruction", .text instruction.text),
      ("depth", .number depth)]

theorem Event.traces_executed (position : Nat) (instruction : Instruction) (depth : Nat) :
    (executed position instruction depth).Traces position instruction depth :=
  ⟨rfl, rfl, rfl⟩

namespace Machine

theorem length_executions (position depth : Nat) (instructions : List Instruction) :
    (executions position depth instructions).length = instructions.length := by
  induction instructions generalizing position depth with
  | nil => rfl
  | cons instruction rest ih => rw [executions, List.length_cons, List.length_cons, ih]

/-- The depth that is reported with an instruction is the one on record before it. -/
theorem getElem?_executions_eq_some {instructions : List Instruction} {instruction : Instruction}
    {position depth count : Nat} (h : instructions[count]? = some instruction) :
    ∃ before, (depth :: depthsFrom depth instructions)[count]? = some before ∧
      (executions position depth instructions)[count]? =
        some (.executed (position + count) instruction before) := by
  obtain ⟨hcount, -⟩ := List.getElem?_eq_some_iff.mp h
  refine ⟨_, getElem?_cons_depthsFrom (Nat.le_of_lt hcount), ?_⟩
  rw [getElem?_executions, h]
  rfl

section Runs

variable [Arithmetic]

/-- A run goes on with the program that the machine was made for. -/
theorem program_run (machine : Machine) (args : List Float) :
    (machine.run args).value.2.program = machine.program := rfl

theorem program_after (machine : Machine) (history : List (List Float)) :
    (machine.after history).program = machine.program := by
  induction history generalizing machine with
  | nil => rfl
  | cons args history ih => exact (ih _).trans (machine.program_run args)

/-- A run on one argument per parameter, whatever runs there were before, reports each instruction
once and in order, with its position and with the depth that the instruction before it leaves. A run
on any other number of arguments reports nothing. -/
theorem trace_after_history (machine : Machine) (history : List (List Float)) (args : List Float) :
    let p := machine.program
    let events := ((machine.after history).run args).entries
    (args.length ≠ p.arity → events = []) ∧
      (args.length = p.arity →
        events.length = p.length ∧
          ∀ k instruction, p.instructions[k]? = some instruction →
            ∃ depth event, (if k = 0 then depth = 0 else p.depths[k - 1]? = some depth) ∧
              events[k]? = some event ∧ event.Traces k instruction depth) := by
  intro p events
  have hprogram : (machine.after history).program = p := machine.program_after history
  constructor
  · intro hlength
    have hrun : (machine.after history).run args = _ := run_of_length_ne (hprogram ▸ hlength)
    exact congrArg Logged.entries hrun
  · intro hlength
    have hevents : events = executions 0 0 p.instructions := by
      rw [← hprogram]
      exact entries_run_of_length_eq (hprogram ▸ hlength)
    rw [hevents]
    refine ⟨length_executions 0 0 p.instructions, ?_⟩
    intro k instruction hinstruction
    obtain ⟨depth, hdepth, hevent⟩ := getElem?_executions_eq_some hinstruction
    refine ⟨depth, _, ?_, hevent, ?_⟩
    · cases k with
      | zero => exact (Option.some_inj.mp hdepth).symm
      | succ k => exact hdepth
    · rw [Nat.zero_add]
      exact Event.traces_executed k instruction depth

end Runs

/-- On a machine that has refused one run and finished another, the division of a quotient is
reported with the two values that it finds on the stack, and a run on one argument is not reported. -/
theorem quotient_trace_after_history :
    let p : Program := ⟨[.loadParameter 0, .loadParameter 1, .operate .divide], 2, 2, rfl⟩
    let machine := after { program := p } [[1.0], [8.0, 2.0]]
    (machine.run [3.0]).entries = [] ∧
      (machine.run [0.0, 0.0]).entries.length = 3 ∧
      ∃ event, (machine.run [0.0, 0.0]).entries[2]? = some event ∧
        event.Traces 2 (.operate .divide) 2 := by
  intro p machine
  obtain ⟨hrefused, -⟩ := trace_after_history { program := p } [[1.0], [8.0, 2.0]] [3.0]
  obtain ⟨-, htraced⟩ := trace_after_history { program := p } [[1.0], [8.0, 2.0]] [0.0, 0.0]
  obtain ⟨hlength, hevents⟩ := htraced rfl
  obtain ⟨depth, event, hdepth, hevent, htraces⟩ := hevents 2 (.operate .divide) rfl
  obtain rfl : depth = 2 := (Option.some_inj.mp hdepth).symm
  exact ⟨hrefused (by decide), hlength, event, hevent, htraces⟩

end Machine

end Formula
