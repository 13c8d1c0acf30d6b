import Formula.Machine
import Formula.Proofs.Evaluation

/-!
# Runs of a machine

The depth that verification has counted is the length of the operand stack of a run. So a run finds
its operands and has room for each value that it pushes, and it reaches the greatest depth. It ends
with an empty stack, which makes any number of runs on one machine the same as runs on fresh ones.

## Main definitions

- `Machine.executions`: the events of executing instructions
- `Machine.after`: the machine after a sequence of runs
- `Machine.stackAfter`: the operand stack of a run after some of its instructions

## Main statements

- `Machine.run_steps_of_sustained`: what the execution of verified instructions comes to
- `Machine.run_of_length_eq`: what a run comes to
- `Machine.run_steps_eq`: a run passes through the stacks of `Machine.stackAfter`
- `Machine.run_after_history`: what a run comes to on a machine that has run before
-/

namespace Formula

open Program

namespace Machine

/-! ### Events -/

/-- The events of executing instructions, given the position of the first and the depth before
it. -/
def executions (position depth : Nat) : List Instruction → List Event
  | [] => []
  | instruction :: rest =>
    .executed position instruction depth ::
      executions (position + 1) (instruction.depthAfter depth) rest

/-- The depth reported with an instruction is that after the ones before it. -/
theorem getElem?_executions (position depth : Nat) (instructions : List Instruction)
    (count : Nat) :
    (executions position depth instructions)[count]? = instructions[count]?.map fun instruction =>
      .executed (position + count) instruction (finalDepth depth (instructions.take count)) := by
  induction instructions generalizing position depth count with
  | nil => simp [executions]
  | cons instruction rest ih =>
    cases count with
    | zero => rfl
    | succ count =>
      rw [executions, List.getElem?_cons_succ, ih, List.getElem?_cons_succ, List.take_succ_cons,
        finalDepth_cons, Nat.add_assoc, Nat.add_comm 1 count]

/-! ### Single instructions -/

/-- A push where there is room, after the event of its instruction. -/
theorem record_push_of_lt {capacity : Nat} {stack : List Float} (h : stack.length < capacity)
    (event : Event) (value : Float) :
    (Logged.record event >>= fun _ => (push capacity value).run.run stack) =
      ⟨(.ok (), value :: stack), [event]⟩ := by
  rw [run_push, if_pos h]
  rfl

section Runs

variable [Arithmetic]

/-- An instruction that finds its operands and has room for its result has its effect on the
stack. -/
theorem run_step_of_le {capacity position : Nat} {args stack : List Float}
    {instruction : Instruction} (hover : instruction.IsOver args.length)
    (hpops : instruction.pops ≤ stack.length)
    (hroom : instruction.depthAfter stack.length ≤ capacity) :
    (step capacity args position instruction).run.run stack =
      ⟨(.ok (), instruction.effect (argument args) stack),
        [.executed position instruction stack.length]⟩ := by
  cases instruction with
  | loadConstant value => exact record_push_of_lt hroom _ value
  | loadParameter index =>
    simp only [step, getElem?_eq_argument hover]
    exact record_push_of_lt hroom _ (argument args index)
  | operate op =>
    match stack, hpops, hroom with
    | right :: left :: rest, _, hroom =>
      -- the pops leave one value less than the depth that the result brings about
      have hpush : rest.length < capacity := hroom
      exact record_push_of_lt hpush _ (op.apply left right)

/-! ### Lists of instructions -/

theorem run_steps_cons_of_ok {capacity position : Nat} {args stack next : List Float}
    {instruction : Instruction} {rest : List Instruction} {events : List Event}
    (h : (step capacity args position instruction).run.run stack = ⟨(.ok (), next), events⟩) :
    (steps capacity args position (instruction :: rest)).run.run stack =
      ⟨((steps capacity args (position + 1) rest).run.run next).value,
        events ++ ((steps capacity args (position + 1) rest).run.run next).entries⟩ := by
  rw [run_steps_cons, h]
  rfl

theorem steps_append (capacity position : Nat) (args : List Float)
    (first second : List Instruction) :
    steps capacity args position (first ++ second) = (do
      steps capacity args position first
      steps capacity args (position + first.length) second) := by
  induction first generalizing position with
  | nil => exact (pure_bind _ _).symm
  | cons instruction rest ih =>
    rw [List.cons_append, steps, ih, steps, bind_assoc, List.length_cons, Nat.add_comm rest.length,
      Nat.add_assoc]

/-- Instructions that find their operands, in a stack with room for their greatest depth, have their
effects one after the other. -/
theorem run_steps_of_sustained {capacity position : Nat} {args stack : List Float}
    {instructions : List Instruction}
    (hover : ∀ instruction ∈ instructions, instruction.IsOver args.length)
    (hsustained : Sustained stack.length instructions)
    (hroom : peak stack.length instructions ≤ capacity) :
    (steps capacity args position instructions).run.run stack =
      ⟨(.ok (), effect (argument args) stack instructions),
        executions position stack.length instructions⟩ := by
  induction instructions generalizing position stack with
  | nil => rfl
  | cons instruction rest ih =>
    obtain ⟨hfirst, hrest⟩ := List.forall_mem_cons.mp hover
    obtain ⟨hpops, hafter⟩ := hsustained
    rw [peak_cons] at hroom
    -- the depth that verification counts is the length of the stack, here as after each instruction
    have hlength : (instruction.effect (argument args) stack).length =
        instruction.depthAfter stack.length := instruction.length_effect hpops
    have htail : (steps capacity args (position + 1) rest).run.run
        (instruction.effect (argument args) stack) = _ :=
      ih hrest (hlength ▸ hafter) (hlength ▸ by omega)
    rw [run_steps_cons_of_ok (run_step_of_le hfirst hpops (by omega)), htail, hlength]
    rfl

/-! ### Whole runs -/

theorem run_action {p : Program} {args stack : List Float} {value : Float}
    (hlength : args.length = p.arity)
    (hvalue : effect (argument args) [] p.instructions = [value]) :
    (action p args).run.run stack = ⟨(.ok value, []), executions 0 0 p.instructions⟩ := by
  have hsteps : (steps p.maxDepth args 0 p.instructions).run.run [] = _ :=
    run_steps_of_sustained (hlength ▸ p.isOver) p.sustained (Nat.le_of_eq p.maxDepth_eq_peak.symm)
  unfold action
  rw [requireArity_eq_ok_iff.mpr hlength]
  -- with the right number of arguments the run starts with an empty stack, whatever was there
  change ((steps p.maxDepth args 0 p.instructions >>= fun _ => _) : Action Float).run.run [] = _
  rw [ExceptT.run_bind, StateT.run_bind, hsteps, hvalue]
  change Logged.mk (Except.ok value, []) (executions 0 0 p.instructions ++ []) = _
  rw [List.append_nil]

variable {machine : Machine} {args : List Float}

/-- A run on one argument per parameter leaves an empty stack. -/
theorem run_of_length_eq {value : Float} (hlength : args.length = machine.program.arity)
    (hvalue : effect (argument args) [] machine.program.instructions = [value]) :
    machine.run args =
      ⟨(.ok value, { machine with stack := [] }),
        executions 0 0 machine.program.instructions⟩ := by
  unfold run
  rw [run_action hlength hvalue]
  change Logged.mk (_, _) (executions 0 0 machine.program.instructions ++ []) = _
  rw [List.append_nil]

/-- What a run reports does not depend on the arguments. -/
theorem entries_run_of_length_eq (hlength : args.length = machine.program.arity) :
    (machine.run args).entries = executions 0 0 machine.program.instructions := by
  obtain ⟨value, hvalue⟩ := machine.program.exists_effect_eq_singleton (argument args)
  rw [run_of_length_eq hlength hvalue]

theorem run_of_length_ne (h : args.length ≠ machine.program.arity) :
    machine.run args =
      ⟨(.error (.fault (.arityMismatch machine.program.arity args.length)), machine), []⟩ := by
  unfold run action
  rw [requireArity_of_ne h]
  rfl

/-- A run leaves a machine with an empty stack as it was. -/
theorem run_of_stack_eq_nil (h : machine.stack = []) : (machine.run args).value.2 = machine := by
  by_cases hlength : args.length = machine.program.arity
  · obtain ⟨value, hvalue⟩ := machine.program.exists_effect_eq_singleton (argument args)
    rw [run_of_length_eq hlength hvalue, ← h]
  · rw [run_of_length_ne hlength]

/-! ### Sequences of runs -/

/-- The machine after runs on the given lists of arguments, one after the other. -/
def after (machine : Machine) (history : List (List Float)) : Machine :=
  history.foldl (fun machine args => (machine.run args).value.2) machine

/-- No sequence of runs changes a machine with an empty stack. -/
theorem after_of_stack_eq_nil (h : machine.stack = []) (history : List (List Float)) :
    machine.after history = machine := by
  induction history with
  | nil => rfl
  | cons args history ih =>
    change ((machine.run args).value.2).after history = machine
    rw [run_of_stack_eq_nil h, ih]

/-! ### The operand stack of a run -/

/-- The operand stack of a run of a program after the first `count` instructions. An instruction
pops before it pushes, so the stack is not longer in the midst of an instruction. -/
def stackAfter (p : Program) (args : List Float) (count : Nat) : List Float :=
  ((steps p.maxDepth args 0 (p.instructions.take count)).run.run []).value.2

theorem run_steps_take {p : Program} (hlength : args.length = p.arity) (count : Nat) :
    (steps p.maxDepth args 0 (p.instructions.take count)).run.run [] =
      ⟨(.ok (), effect (argument args) [] (p.instructions.take count)),
        executions 0 0 (p.instructions.take count)⟩ := by
  have hover : ∀ instruction ∈ p.instructions.take count, instruction.IsOver args.length :=
    fun instruction hmem => hlength ▸ p.isOver instruction (List.mem_of_mem_take hmem)
  have hroom : peak 0 (p.instructions.take count) ≤ p.maxDepth :=
    p.maxDepth_eq_peak ▸ peak_take_le 0 p.instructions count
  exact run_steps_of_sustained hover (sustained_take p.sustained count) hroom

/-- A run passes through `stackAfter`: from there on it executes the rest of the instructions. -/
theorem run_steps_eq {p : Program} (hlength : args.length = p.arity) {count : Nat}
    (hcount : count ≤ p.length) :
    ((steps p.maxDepth args 0 p.instructions).run.run []).value =
      ((steps p.maxDepth args count (p.instructions.drop count)).run.run
        (stackAfter p args count)).value := by
  have hfirst := run_steps_take hlength count
  have hposition : 0 + (p.instructions.take count).length = count := by
    rw [List.length_take_of_le hcount, Nat.zero_add]
  have hstack : stackAfter p args count =
      effect (argument args) [] (p.instructions.take count) := by
    rw [stackAfter, hfirst]
  rw [hstack, ← List.take_append_drop count p.instructions, steps_append, hposition,
    ExceptT.run_bind, StateT.run_bind, List.take_append_drop, hfirst]
  rfl

/-- The operand stack of a run has the depth that verification has counted. -/
theorem length_stackAfter {p : Program} (hlength : args.length = p.arity) (count : Nat) :
    (stackAfter p args count).length = finalDepth 0 (p.instructions.take count) := by
  rw [stackAfter, run_steps_take hlength]
  exact length_effect (sustained_take p.sustained count)

/-- The trace of a run reports the lengths of these stacks. -/
theorem getElem?_entries_run {p : Program} {stack : List Float} (hlength : args.length = p.arity)
    (count : Nat) :
    (Machine.run ⟨p, stack⟩ args).entries[count]? = p.instructions[count]?.map fun instruction =>
      .executed count instruction (stackAfter p args count).length := by
  have hentries : (Machine.run ⟨p, stack⟩ args).entries = _ := entries_run_of_length_eq hlength
  rw [hentries, getElem?_executions, length_stackAfter hlength, Nat.zero_add]

/-- The operand stack never holds more values than announced. -/
theorem length_stackAfter_le {p : Program} (hlength : args.length = p.arity) (count : Nat) :
    (stackAfter p args count).length ≤ p.maxDepth := by
  have hpeak := finalDepth_take_le 0 p.instructions count
  rw [length_stackAfter hlength, p.maxDepth_eq_peak]
  omega

/-- At some point of a run the operand stack holds as many values as announced. -/
theorem exists_length_stackAfter_eq {p : Program} (hlength : args.length = p.arity) :
    ∃ count ≤ p.length, (stackAfter p args count).length = p.maxDepth := by
  obtain ⟨count, -, hcount, hpeak⟩ := exists_finalDepth_take_eq_peak p.instructions_ne_nil
  refine ⟨count, hcount, ?_⟩
  rw [length_stackAfter hlength, hpeak, p.maxDepth_eq_peak]

/-! ### Runs after other runs -/

/-- The value of a run is the last one on its stack. -/
theorem exists_run_eq_ok {machine : Machine} (hlength : args.length = machine.program.arity) :
    ∃ value, (machine.run args).value.1 = .ok value ∧
      stackAfter machine.program args machine.program.length = [value] := by
  obtain ⟨value, hvalue⟩ := machine.program.exists_effect_eq_singleton (argument args)
  refine ⟨value, by rw [run_of_length_eq hlength hvalue], ?_⟩
  rw [stackAfter, run_steps_take hlength, Program.length, List.take_length, hvalue]

/-- A run fails for no other reason than a wrong number of arguments. -/
theorem run_ne_error {machine : Machine} {failure : Failure}
    (h : failure ≠ .fault (.arityMismatch machine.program.arity args.length)) :
    (machine.run args).value.1 ≠ .error failure := by
  by_cases hlength : args.length = machine.program.arity
  · obtain ⟨value, hvalue, -⟩ := exists_run_eq_ok hlength
    rw [hvalue]
    intro hfailure
    cases hfailure
  · rw [run_of_length_ne hlength]
    intro hfailure
    exact h (Except.error.inj hfailure).symm

/-- A machine that has run before, on whatever arguments, is as good as a fresh one. Its stack is
empty and the next run gives the result of a fresh machine: it refuses a wrong number of arguments
without a trace, and with the right number it gives a value. Before each instruction it reports the
length of its stack, which reaches the announced depth and stays within it. There is no other fault,
and no promise is broken. -/
theorem run_after_history (p : Program) (history : List (List Float)) (args : List Float) :
    let machine := after { program := p } history
    machine.stack = [] ∧
      (machine.run args).value.1 = (p.execute args).result ∧
      (args.length ≠ p.arity →
        machine.run args =
          ⟨(.error (.fault (.arityMismatch p.arity args.length)), machine), []⟩) ∧
      (args.length = p.arity →
        (∃ value, (machine.run args).value.1 = .ok value ∧ stackAfter p args p.length = [value]) ∧
          (∀ count, (machine.run args).entries[count]? = p.instructions[count]?.map
            fun instruction => Event.executed count instruction (stackAfter p args count).length) ∧
          (∀ count, (stackAfter p args count).length ≤ p.maxDepth) ∧
          ∃ count ≤ p.length, (stackAfter p args count).length = p.maxDepth) ∧
      (∀ position reason,
        (machine.run args).value.1 ≠ .error (.fault (.malformedBytecode position reason))) ∧
      (∀ index count,
        (machine.run args).value.1 ≠ .error (.fault (.invalidParameterIndex index count))) ∧
      ∀ invariant, (machine.run args).value.1 ≠ .error (.breach invariant) := by
  intro machine
  have hmachine : machine = { program := p } := after_of_stack_eq_nil rfl history
  rw [hmachine]
  refine ⟨rfl, rfl, fun hlength => run_of_length_ne hlength, fun hlength => ?_, ?_, ?_, ?_⟩
  · have hvalue : ∃ value, (Machine.run ⟨p, []⟩ args).value.1 = .ok value ∧ _ :=
      exists_run_eq_ok hlength
    exact ⟨hvalue, getElem?_entries_run hlength, length_stackAfter_le hlength,
      exists_length_stackAfter_eq hlength⟩
  · exact fun position reason => run_ne_error (by simp)
  · exact fun index count => run_ne_error (by simp)
  · exact fun invariant => run_ne_error (by simp)

end Runs

/-- After a refused run, a run and another refused one, a program that adds its arguments gives a
value for two arguments and refuses three. -/
theorem run_sum_after_history :
    let p : Program :=
      ⟨[.loadParameter 0, .loadParameter 1, .operate .add], 2, 2, rfl⟩
    let machine := after { program := p } [[], [1.0, 2.0], [3.0]]
    machine.stack = [] ∧ (∃ value, (machine.run [4.0, 5.0]).value.1 = .ok value) ∧
      (machine.run [4.0, 5.0, 6.0]).value = (.error (.fault (.arityMismatch 2 3)), machine) := by
  intro p machine
  obtain ⟨hstack, -, -, hright, -⟩ := run_after_history p [[], [1.0, 2.0], [3.0]] [4.0, 5.0]
  obtain ⟨-, -, hwrong, -⟩ := run_after_history p [[], [1.0, 2.0], [3.0]] [4.0, 5.0, 6.0]
  obtain ⟨⟨value, hvalue, -⟩, -⟩ := hright rfl
  exact ⟨hstack, ⟨value, hvalue⟩, congrArg Logged.value (hwrong (by decide))⟩

end Machine

end Formula
