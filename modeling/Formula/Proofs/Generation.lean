import Formula.Proofs.Agreement
import Formula.StraightLine

/-!
# Generated code

While code is generated for a program, the operand stack holds the numbers of values; while the
program is interpreted, it holds the values. The numbers are always those of the values, so that the
value that the code returns is the one that the interpreter leaves.

## Main definitions

- `Instruction.InReach`: the instruction loads from an offset that fits
- `StraightLine.Tracks`: the numbers on one stack are those of the values on the other

## Main statements

- `StraightLine.exists_assign`: an assignment computes what its instruction pushes
- `StraightLine.exists_assignFrom`: the assignments of instructions compute what these leave
- `Program.generated_code_agrees`: for which programs there is code, and what it computes

## Design notes

Code is generated once and executed for any arguments. So what is said of arguments and values comes
after the assignments in each statement.
-/

namespace Formula

open Program

/-- The instruction loads from no offset that is too great. -/
def Instruction.InReach : Instruction → Prop
  | .loadParameter index => index.toNat * StraightLine.argumentSize ≤ StraightLine.maxOffset
  | _ => True

namespace StraightLine

/-! ### Numbers and values -/

/-- The numbers on a stack are those of the values on another. -/
def Tracks (values : Array Float) (numbers : List Nat) (stack : List Float) : Prop :=
  numbers.map (values[·]?) = stack.map some

variable {values : Array Float} {numbers : List Nat} {stack : List Float}

theorem tracks_nil (values : Array Float) : Tracks values [] [] := rfl

theorem Tracks.exists_of_cons {number : Nat} (h : Tracks values (number :: numbers) stack) :
    ∃ value rest, stack = value :: rest ∧ lookup values number = .ok value ∧
      Tracks values numbers rest := by
  cases stack with
  | nil => cases h
  | cons value rest =>
    obtain ⟨hvalue, hrest⟩ := List.cons.inj h
    have hget : values[number]? = some value := hvalue
    refine ⟨value, rest, rfl, ?_, hrest⟩
    rw [lookup, hget]

/-- A value that is defined next gets the next number, and the earlier ones keep theirs. -/
theorem Tracks.push (h : Tracks values numbers stack) (value : Float) :
    Tracks (values.push value) (values.size :: numbers) (value :: stack) := by
  have hkept : numbers.map ((values.push value)[·]?) = numbers.map (values[·]?) := by
    refine List.map_congr_left fun number hnumber => ?_
    have hdefined : values[number]? ∈ stack.map some := h ▸ List.mem_map_of_mem hnumber
    obtain ⟨old, -, hold⟩ := List.mem_map.mp hdefined
    have hlt : number < values.size := by
      refine Nat.lt_of_not_le fun hge => ?_
      rw [Array.getElem?_eq_none hge] at hold
      cases hold
    rw [Array.getElem?_push_lt hlt, Array.getElem?_eq_getElem hlt]
  have hnext : (values.push value)[values.size]? = some value := Array.getElem?_push_size
  change (values.push value)[values.size]? :: numbers.map ((values.push value)[·]?) = _
  rw [hnext, hkept, h, List.map_cons]

/-! ### Single instructions -/

theorem assign_of_not_inReach {instruction : Instruction} (position : Nat) (numbers : List Nat)
    (h : ¬ instruction.InReach) :
    assign position numbers instruction =
      .error (.codegen "parameter offset does not fit in 32 bits") := by
  cases instruction with
  | loadParameter index => exact if_neg h
  | _ => exact absurd trivial h

section Execution

variable [Arithmetic]

/-- An instruction that finds its operands becomes an assignment. Where the numbers track the
values, it computes the value that the instruction pushes, and the numbers that are left track the
values below. -/
theorem exists_assign {instruction : Instruction} (position : Nat)
    (hreach : instruction.InReach) (hpops : instruction.pops ≤ numbers.length) :
    ∃ assignment rest, assign position numbers instruction = .ok (assignment, rest) ∧
      rest.length + 1 = instruction.depthAfter numbers.length ∧
      ∀ {args : List Float} {values : Array Float} {stack : List Float},
        instruction.IsOver args.length → Tracks values numbers stack →
          ∃ value below, compute args values assignment = .ok value ∧
            instruction.effect (argument args) stack = value :: below ∧
            Tracks values rest below := by
  cases instruction with
  | loadConstant value =>
    exact ⟨.constant value, numbers, rfl, rfl, fun _ htracks => ⟨value, _, rfl, rfl, htracks⟩⟩
  | loadParameter index =>
    refine ⟨.argument index, numbers, if_pos hreach, rfl, fun hover htracks => ?_⟩
    refine ⟨_, _, ?_, rfl, htracks⟩
    rw [compute, getElem?_eq_argument hover]
  | operate op =>
    match numbers, hpops with
    | right :: left :: rest, _ =>
      refine ⟨.operation op left right, rest, rfl, rfl, fun _ htracks => ?_⟩
      obtain ⟨b, stack, rfl, hb, htracks⟩ := htracks.exists_of_cons
      obtain ⟨a, below, rfl, ha, htracks⟩ := htracks.exists_of_cons
      refine ⟨op.apply a b, below, ?_, rfl, htracks⟩
      rw [compute, ha, hb]
      rfl

/-! ### Lists of instructions -/

omit [Arithmetic] in
theorem assignFrom_cons_of_ok {instruction : Instruction} {position : Nat}
    {assignment : Assignment} {rest : List Nat}
    (h : assign position numbers instruction = .ok (assignment, rest))
    (instructions : List Instruction) :
    assignFrom position numbers (instruction :: instructions) =
      assignFrom (position + 1) (position :: rest) instructions >>= fun (assignments, result) =>
        .ok (assignment :: assignments, result) := by
  rw [assignFrom, h, ok_bind]
  rfl

/-- Instructions that find their operands and leave a value become one assignment each. Executed
where the numbers track the values, they compute the value that the instructions leave on top. -/
theorem exists_assignFrom {instructions : List Instruction} {position : Nat}
    (hreach : ∀ instruction ∈ instructions, instruction.InReach)
    (hsustained : Sustained numbers.length instructions)
    (hleft : 0 < finalDepth numbers.length instructions) :
    ∃ assignments result, assignFrom position numbers instructions = .ok (assignments, result) ∧
      assignments.length = instructions.length ∧
      ∀ {args : List Float} {values : Array Float} {stack : List Float},
        (∀ instruction ∈ instructions, instruction.IsOver args.length) →
        values.size = position → Tracks values numbers stack →
          ∃ after value below, assignments.foldlM (define args) values = .ok after ∧
            effect (argument args) stack instructions = value :: below ∧
            lookup after result = .ok value := by
  induction instructions generalizing position numbers with
  | nil =>
    match numbers, hleft with
    | result :: rest, _ =>
      refine ⟨[], result, rfl, rfl, fun {args values stack} _ _ htracks => ?_⟩
      obtain ⟨value, below, rfl, hvalue, -⟩ := htracks.exists_of_cons
      exact ⟨values, value, below, rfl, rfl, hvalue⟩
  | cons instruction instructions ih =>
    obtain ⟨hfirst, hrest⟩ := List.forall_mem_cons.mp hreach
    obtain ⟨hpops, hsustained⟩ := hsustained
    obtain ⟨assignment, rest, hassign, hlength, hcompute⟩ := exists_assign position hfirst hpops
    have hdepth : (position :: rest).length = instruction.depthAfter numbers.length := hlength
    obtain ⟨assignments, result, hassigns, hcount, hexecute⟩ : ∃ assignments result,
        assignFrom (position + 1) (position :: rest) instructions = _ ∧ _ :=
      ih hrest (hdepth ▸ hsustained) (hdepth ▸ hleft)
    refine ⟨assignment :: assignments, result, ?_, congrArg (· + 1) hcount, ?_⟩
    · rw [assignFrom_cons_of_ok hassign, hassigns, ok_bind]
    · intro args values stack hover hsize htracks
      obtain ⟨hfirst, hover⟩ := List.forall_mem_cons.mp hover
      obtain ⟨value, below, hvalue, heffect, htracks⟩ := hcompute hfirst htracks
      -- the value is defined at the position of its instruction, which is the number on the stack
      have hpushed : Tracks (values.push value) (position :: rest) (value :: below) :=
        hsize ▸ htracks.push value
      have hsize' : (values.push value).size = position + 1 := by rw [Array.size_push, hsize]
      obtain ⟨after, top, left, hafter, htop, hlookup⟩ := hexecute hover hsize' hpushed
      refine ⟨after, top, left, ?_, ?_, hlookup⟩
      · rw [List.foldlM_cons, define, hvalue]
        exact hafter
      · change effect (argument args) (instruction.effect (argument args) stack) instructions = _
        rw [heffect, htop]

end Execution

/-- An instruction that is out of reach is come to, because the others find their operands. -/
theorem assignFrom_of_not_inReach {instructions : List Instruction} {position : Nat}
    (hfar : ∃ instruction ∈ instructions, ¬ instruction.InReach)
    (hsustained : Sustained numbers.length instructions) :
    assignFrom position numbers instructions =
      .error (.codegen "parameter offset does not fit in 32 bits") := by
  induction instructions generalizing position numbers with
  | nil =>
    obtain ⟨instruction, hmem, -⟩ := hfar
    cases hmem
  | cons first instructions ih =>
    by_cases hreach : first.InReach
    · obtain ⟨assignment, rest, hassign, hlength, -⟩ :=
        exists_assign position hreach hsustained.1
      have hdepth : (position :: rest).length = first.depthAfter numbers.length := hlength
      have hlater : ∃ instruction ∈ instructions, ¬ instruction.InReach := by
        obtain ⟨instruction, hmem, hfar⟩ := hfar
        rcases List.mem_cons.mp hmem with rfl | hmem
        · exact absurd hreach hfar
        · exact ⟨instruction, hmem, hfar⟩
      have hrest : assignFrom (position + 1) (position :: rest) instructions = _ :=
        ih hlater (hdepth ▸ hsustained.2)
      rw [assignFrom_cons_of_ok hassign, hrest, error_bind]
    · rw [assignFrom, assign_of_not_inReach position numbers hreach]
      rfl

/-! ### Whole programs -/

theorem result_generate (p : Program) :
    (generate p).result = (ofProgram p).mapError .fault := by
  rw [generate, Attempt.result_bind, Attempt.result_liftM_fault]
  cases ofProgram p <;> rfl

theorem ofProgram_of_not_inReach {p : Program}
    (hfar : ∃ instruction ∈ p.instructions, ¬ instruction.InReach) :
    ofProgram p = .error (.codegen "parameter offset does not fit in 32 bits") := by
  have hassign : assignFrom 0 [] p.instructions = _ := assignFrom_of_not_inReach hfar p.sustained
  rw [ofProgram, hassign]
  rfl

section Agreement

variable [Arithmetic]

theorem run_of_length_ne {code : StraightLine} {args : List Float}
    (h : args.length ≠ code.arity) :
    code.run args = .error (.fault (.arityMismatch code.arity args.length)) := by
  rw [run, requireArity_of_ne h]
  rfl

/-- The code of a program is executed to the value that interpreting the program gives. -/
theorem exists_ofProgram {p : Program}
    (hreach : ∀ instruction ∈ p.instructions, instruction.InReach) :
    ∃ code, ofProgram p = .ok code ∧ code.arity = p.arity ∧
      code.assignments.length = p.length ∧
      ∀ args : List Float, args.length = p.arity →
        ∃ value, code.run args = .ok value ∧ (p.execute args).result = .ok value := by
  have hleft : 0 < finalDepth 0 p.instructions := by
    rw [p.finalDepth_eq_one]
    exact Nat.one_pos
  obtain ⟨assignments, result, hassigns, hcount, hexecute⟩ :
      ∃ assignments result, assignFrom 0 [] p.instructions = _ ∧ _ :=
    exists_assignFrom hreach p.sustained hleft
  refine ⟨⟨assignments, result, p.arity⟩, ?_, rfl, hcount, fun args hlength => ?_⟩
  · rw [ofProgram, hassigns]
    rfl
  · obtain ⟨values, value, below, hvalues, htop, hlookup⟩ :=
      hexecute (hlength ▸ p.isOver) (Array.size_empty) (tracks_nil #[])
    -- a program leaves no value below its result
    obtain ⟨last, hlast⟩ := p.exists_effect_eq_singleton (argument args)
    obtain ⟨rfl, -⟩ := List.cons.inj (htop.symm.trans hlast)
    refine ⟨value, ?_, result_execute_of_length_eq hlength hlast⟩
    rw [run, requireArity_eq_ok_iff.mpr hlength, hvalues]
    change (liftM (lookup values result) : Except Failure Float) = _
    rw [hlookup]
    rfl

end Agreement

end StraightLine

namespace Program

theorem exists_not_inReach_iff {instructions : List Instruction} :
    (∃ instruction ∈ instructions, ¬ instruction.InReach) ↔
      ∃ index, .loadParameter index ∈ instructions ∧ 2147483647 < index.toNat * 8 := by
  constructor
  · rintro ⟨instruction, hmem, hreach⟩
    cases instruction with
    | loadParameter index => exact ⟨index, hmem, Nat.lt_of_not_le hreach⟩
    | _ => exact absurd trivial hreach
  · rintro ⟨index, hmem, hlarge⟩
    exact ⟨_, hmem, Nat.not_le_of_lt hlarge⟩

/-- No code is generated for a program exactly if eight times the index of some parameter that it
loads is beyond the greatest offset of 32 bits. Otherwise the code has one assignment for each
instruction, and executing it and interpreting the program come to the same: both refuse a wrong
number of arguments, and with the right one both give the same value. -/
theorem generated_code_agrees [Arithmetic] (p : Program) :
    ((∃ message, (StraightLine.generate p).result = .error (.fault (.codegen message))) ↔
        ∃ index, .loadParameter index ∈ p.instructions ∧ 2147483647 < index.toNat * 8) ∧
      ((¬ ∃ index, .loadParameter index ∈ p.instructions ∧ 2147483647 < index.toNat * 8) →
        ∃ code, (StraightLine.generate p).result = .ok code ∧
          code.assignments.length = p.length ∧
          ∀ args : List Float,
            (args.length ≠ p.arity →
              code.run args = .error (.fault (.arityMismatch p.arity args.length)) ∧
              (p.execute args).result =
                .error (.fault (.arityMismatch p.arity args.length))) ∧
            (args.length = p.arity →
              ∃ value, code.run args = .ok value ∧ (p.execute args).result = .ok value)) := by
  rw [← exists_not_inReach_iff]
  by_cases h : ∃ instruction ∈ p.instructions, ¬ instruction.InReach
  · have hrefused := StraightLine.result_generate p
    rw [StraightLine.ofProgram_of_not_inReach h] at hrefused
    exact ⟨⟨fun _ => h, fun _ => ⟨_, hrefused⟩⟩, fun hnone => absurd h hnone⟩
  · have hreach : ∀ instruction ∈ p.instructions, instruction.InReach := by
      intro instruction hmem
      refine Classical.byContradiction fun hnot => ?_
      exact h ⟨instruction, hmem, hnot⟩
    obtain ⟨code, hcode, harity, hcount, hagree⟩ := StraightLine.exists_ofProgram hreach
    have hgenerated : (StraightLine.generate p).result = .ok code := by
      rw [StraightLine.result_generate, hcode]
      rfl
    refine ⟨⟨?_, fun hsome => absurd hsome h⟩, fun _ => ⟨code, hgenerated, hcount, fun args => ?_⟩⟩
    · rintro ⟨message, hmessage⟩
      cases hgenerated.symm.trans hmessage
    · refine ⟨fun hlength => ⟨?_, result_execute_of_length_ne hlength⟩, hagree args⟩
      rw [← harity] at hlength ⊢
      exact StraightLine.run_of_length_ne hlength

/-- The code of a difference is executed as it is interpreted, and there is none for the first
parameter that is out of reach. -/
theorem difference_generated_code_agrees :
    let p : Program := ⟨[.loadParameter 0, .loadParameter 1, .operate .subtract], 2, 2, rfl⟩
    let q : Program := ⟨[.loadParameter 268435456], 268435457, 1, rfl⟩
    (∃ code, (StraightLine.generate p).result = .ok code ∧
      code.run [1.0] = .error (.fault (.arityMismatch 2 1)) ∧
      ∃ value, code.run [5.0, 3.0] = .ok value ∧ (p.execute [5.0, 3.0]).result = .ok value) ∧
    ∃ message, (StraightLine.generate q).result = .error (.fault (.codegen message)) := by
  intro p q
  have hnear : ¬ ∃ index, .loadParameter index ∈ p.instructions ∧ 2147483647 < index.toNat * 8 := by
    rintro ⟨index, hmem, hlarge⟩
    have hindex : index = 0 ∨ index = 1 := by simpa [p] using hmem
    rcases hindex with rfl | rfl <;> exact absurd hlarge (by decide)
  obtain ⟨code, hcode, -, hruns⟩ := (generated_code_agrees p).2 hnear
  refine ⟨⟨code, hcode, ((hruns [1.0]).1 (by decide)).1, (hruns [5.0, 3.0]).2 rfl⟩, ?_⟩
  exact (generated_code_agrees q).1.mpr ⟨268435456, List.mem_singleton_self _, by decide⟩

end Program

end Formula
