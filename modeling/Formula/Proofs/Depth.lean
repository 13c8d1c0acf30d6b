import Formula.Program

/-!
# The depth of the operand stack

Whether instructions are a program depends on two things: which parameters each of them reads, and
how the depth of the operand stack develops. The development is that of a counter, so it can be
described for one list of instructions after the other.

## Main definitions

- `Instruction.IsOver`: the instruction reads none but the first parameters
- `Program.finalDepth`: the depth after a list of instructions
- `Program.Sustained`: no instruction pops a value that is not there
- `Program.peak`: the greatest of the depths after each instruction

## Main statements

- `verify_eq_ok_iff`: which instructions are a program, and its greatest depth
- `Program.finalDepth_le`, `Program.exists_finalDepth_take_eq_peak`: the greatest depth is an upper
  bound and is reached
-/

namespace Formula

namespace Instruction

/-- The instruction reads none but the first `n` parameters. -/
def IsOver (n : Nat) : Instruction → Prop
  | .loadParameter index => index.toNat < n
  | _ => True

theorem requireDeclared_eq_ok_iff {n : Nat} {instruction : Instruction} :
    instruction.requireDeclared n = .ok () ↔ instruction.IsOver n := by
  cases instruction with
  | loadConstant value => simp [requireDeclared, IsOver]
  | operate op => simp [requireDeclared, IsOver]
  | loadParameter index =>
    rw [requireDeclared, IsOver]
    split <;> simp [*]

end Instruction

namespace Program

/-- The depth of the operand stack after the instructions, given the depth before them. -/
def finalDepth (depth : Nat) (instructions : List Instruction) : Nat :=
  instructions.foldl (fun depth instruction => instruction.depthAfter depth) depth

/-- No instruction pops a value that is not there, given the depth before the first one. -/
def Sustained (depth : Nat) : List Instruction → Prop
  | [] => True
  | instruction :: rest =>
    instruction.pops ≤ depth ∧ Sustained (instruction.depthAfter depth) rest

/-- The greatest depth after any of the instructions, given the depth before the first one. -/
def peak (depth : Nat) (instructions : List Instruction) : Nat :=
  (depthsFrom depth instructions).foldr max 0

variable {depth : Nat} {first second : List Instruction}

@[simp] theorem finalDepth_nil : finalDepth depth [] = depth := rfl

@[simp] theorem finalDepth_cons (instruction : Instruction) (rest : List Instruction) :
    finalDepth depth (instruction :: rest) = finalDepth (instruction.depthAfter depth) rest := rfl

@[simp] theorem finalDepth_append :
    finalDepth depth (first ++ second) = finalDepth (finalDepth depth first) second :=
  List.foldl_append

@[simp] theorem peak_nil : peak depth [] = 0 := rfl

@[simp] theorem peak_cons (instruction : Instruction) (rest : List Instruction) :
    peak depth (instruction :: rest) =
      max (instruction.depthAfter depth) (peak (instruction.depthAfter depth) rest) := rfl

theorem peak_append :
    peak depth (first ++ second) =
      max (peak depth first) (peak (finalDepth depth first) second) := by
  induction first generalizing depth with
  | nil => simp
  | cons instruction rest ih =>
    rw [List.cons_append, peak_cons, ih, peak_cons, finalDepth_cons, Nat.max_assoc]

theorem sustained_append :
    Sustained depth (first ++ second) ↔
      Sustained depth first ∧ Sustained (finalDepth depth first) second := by
  induction first generalizing depth with
  | nil => simp [Sustained]
  | cons instruction rest ih => simp [Sustained, ih, and_assoc]

theorem sustained_take {instructions : List Instruction} (h : Sustained depth instructions)
    (count : Nat) : Sustained depth (instructions.take count) := by
  rw [← List.take_append_drop count instructions, sustained_append] at h
  exact h.1

theorem peak_take_le (depth : Nat) (instructions : List Instruction) (count : Nat) :
    peak depth (instructions.take count) ≤ peak depth instructions := by
  have happend : peak depth (instructions.take count ++ instructions.drop count) = _ := peak_append
  rw [List.take_append_drop] at happend
  rw [happend]
  exact Nat.le_max_left _ _

theorem finalDepth_le (depth : Nat) (instructions : List Instruction) :
    finalDepth depth instructions ≤ max depth (peak depth instructions) := by
  induction instructions generalizing depth with
  | nil => exact Nat.le_max_left _ _
  | cons instruction rest ih =>
    rw [finalDepth_cons, peak_cons]
    exact Nat.le_trans (ih _) (Nat.le_max_right _ _)

theorem finalDepth_take_le (depth : Nat) (instructions : List Instruction) (count : Nat) :
    finalDepth depth (instructions.take count) ≤ max depth (peak depth instructions) := by
  have hfinal := finalDepth_le depth (instructions.take count)
  have hpeak := peak_take_le depth instructions count
  omega

/-- The greatest depth is that after some instruction. -/
theorem exists_finalDepth_take_eq_peak {instructions : List Instruction}
    (hne : instructions ≠ []) :
    ∃ count, 0 < count ∧ count ≤ instructions.length ∧
      finalDepth depth (instructions.take count) = peak depth instructions := by
  induction instructions generalizing depth with
  | nil => exact absurd rfl hne
  | cons instruction rest ih =>
    rw [peak_cons]
    by_cases hlow : peak (instruction.depthAfter depth) rest ≤ instruction.depthAfter depth
    · refine ⟨1, by omega, by simp, ?_⟩
      rw [Nat.max_eq_left hlow]
      rfl
    · -- a peak above the first depth is that of some later instruction
      have hrest : rest ≠ [] := by
        rintro rfl
        exact hlow (Nat.zero_le _)
      obtain ⟨count, -, hcount, hpeak⟩ := ih hrest
      refine ⟨count + 1, by omega, by simpa using hcount, ?_⟩
      rw [List.take_succ_cons, finalDepth_cons, hpeak, Nat.max_eq_right (by omega)]

theorem length_depthsFrom (depth : Nat) (instructions : List Instruction) :
    (depthsFrom depth instructions).length = instructions.length := by
  induction instructions generalizing depth with
  | nil => rfl
  | cons instruction rest ih => rw [depthsFrom, List.length_cons, List.length_cons, ih]

theorem length_depths (p : Program) : p.depths.length = p.length :=
  length_depthsFrom 0 p.instructions

/-- The depths on record are those that the first instructions leave, with the depth before any of
them in front. -/
theorem getElem?_cons_depthsFrom {instructions : List Instruction} {count : Nat}
    (h : count ≤ instructions.length) :
    (depth :: depthsFrom depth instructions)[count]? =
      some (finalDepth depth (instructions.take count)) := by
  induction instructions generalizing depth count with
  | nil =>
    obtain rfl : count = 0 := Nat.eq_zero_of_le_zero h
    rfl
  | cons instruction rest ih =>
    cases count with
    | zero => rfl
    | succ count => exact ih (Nat.le_of_succ_le_succ h)

end Program

open Program

/-- Verification checks the parameter of an instruction before its operands. -/
theorem verifyFrom_cons (arity position depth greatest : Nat) (instruction : Instruction)
    (rest : List Instruction) :
    verifyFrom arity position depth greatest (instruction :: rest) =
      match instruction.requireDeclared arity with
      | .error fault => .error fault
      | .ok () =>
        if depth < instruction.pops then
          .error (.underflow position)
        else
          verifyFrom arity (position + 1) (instruction.depthAfter depth)
            (max greatest (instruction.depthAfter depth)) rest := by
  rw [verifyFrom]
  cases instruction.requireDeclared arity with
  | error fault => rfl
  | ok =>
    rw [ok_bind]
    by_cases hpops : depth < instruction.pops
    · rw [if_pos hpops, if_pos hpops]
      rfl
    · rw [if_neg hpops, if_neg hpops]

/-- Verification from any point on succeeds exactly if all instructions read declared parameters,
none pops a value that is not there, and one value is left. -/
theorem verifyFrom_eq_ok_iff {arity position depth greatest maxDepth : Nat}
    {instructions : List Instruction} :
    verifyFrom arity position depth greatest instructions = .ok maxDepth ↔
      (∀ instruction ∈ instructions, instruction.IsOver arity) ∧ Sustained depth instructions ∧
        finalDepth depth instructions = 1 ∧ maxDepth = max greatest (peak depth instructions) := by
  induction instructions generalizing position depth greatest with
  | nil =>
    rw [verifyFrom]
    split
    · simp [Sustained, *, eq_comm]
    · simp [*]
  | cons instruction rest ih =>
    rw [verifyFrom_cons]
    split
    · next fault hrefused =>
      -- an undeclared parameter, on which the right-hand side fails as well
      have hover : ¬ instruction.IsOver arity := by
        rw [← Instruction.requireDeclared_eq_ok_iff, hrefused]
        simp
      simp [hover]
    · next hdeclared =>
      have hover := Instruction.requireDeclared_eq_ok_iff.mp hdeclared
      split
      · next hshort =>
        have hpops : ¬ instruction.pops ≤ depth := by omega
        simp [hpops, Sustained]
      · next henough =>
        have hpops : instruction.pops ≤ depth := by omega
        rw [ih, List.forall_mem_cons, Sustained, finalDepth_cons, peak_cons, Nat.max_assoc]
        simp [hover, hpops]

/-- Instructions are a program exactly if they read declared parameters, none pops a value that is
not there, and one value is left. -/
theorem verify_eq_ok_iff {arity maxDepth : Nat} {instructions : List Instruction} :
    verify instructions arity = .ok maxDepth ↔
      (∀ instruction ∈ instructions, instruction.IsOver arity) ∧ Sustained 0 instructions ∧
        finalDepth 0 instructions = 1 ∧ maxDepth = peak 0 instructions := by
  cases instructions with
  | nil => simp [verify]
  | cons instruction rest =>
    change verifyFrom _ _ _ _ _ = _ ↔ _
    rw [verifyFrom_eq_ok_iff, Nat.zero_max]

namespace Program

theorem isOver (p : Program) : ∀ instruction ∈ p.instructions, instruction.IsOver p.arity :=
  (verify_eq_ok_iff.mp p.verified).1

theorem sustained (p : Program) : Sustained 0 p.instructions :=
  (verify_eq_ok_iff.mp p.verified).2.1

theorem finalDepth_eq_one (p : Program) : finalDepth 0 p.instructions = 1 :=
  (verify_eq_ok_iff.mp p.verified).2.2.1

theorem maxDepth_eq_peak (p : Program) : p.maxDepth = peak 0 p.instructions :=
  (verify_eq_ok_iff.mp p.verified).2.2.2

theorem instructions_ne_nil (p : Program) : p.instructions ≠ [] := by
  intro hnil
  have hone := p.finalDepth_eq_one
  rw [hnil, finalDepth_nil] at hone
  omega

/-- The greatest depth is determined by the instructions. -/
theorem eq_of_instructions_eq {p q : Program} (hinstructions : p.instructions = q.instructions)
    (harity : p.arity = q.arity) : p = q := by
  have hp : ofInstructions q.instructions q.arity = .ok p :=
    ofInstructions_eq_ok_iff.mpr ⟨hinstructions, harity⟩
  have hq : ofInstructions q.instructions q.arity = .ok q :=
    ofInstructions_eq_ok_iff.mpr ⟨rfl, rfl⟩
  exact Except.ok.inj (hp.symm.trans hq)

end Program

end Formula
