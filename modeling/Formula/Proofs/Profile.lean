import Formula.Proofs.Balance
import Mathlib.Algebra.Ring.Parity

/-!
# The profile of a program

The depths of the operand stack after each instruction of a program are never zero, come down to one
at the end, and have the announced depth as their greatest. Every beginning of the instructions
leaves a value, so that what follows it is no program: with the value of that there would be two at
the end of the whole. The arity plays no part in this, it only has to cover the parameters.

## Main definitions

- `Program.loads`, `Program.operators`: how many instructions there are of each sort

## Main statements

- `Program.mem_depths_iff`: the depths on record are those after a beginning
- `Program.ofInstructions_ne_ok_of_append`: no end of a program is a program
- `Program.exists_ofInstructions_iff`: with which arities instructions are a program
- `Program.ofInstructions_profile`: counts, depths, ends and arities of every program
-/

namespace Formula

namespace Program

/-- The number of instructions that load a constant or a parameter. -/
def loads (instructions : List Instruction) : Nat :=
  instructions.countP fun instruction => instruction.operator?.isNone

/-- The number of instructions that apply an operator. -/
def operators (instructions : List Instruction) : Nat :=
  instructions.countP fun instruction => instruction.operator?.isSome

variable {p : Program} {instructions front rest : List Instruction} {depth count arity : Nat}

/-! ### Counts -/

theorem balance_eq (instructions : List Instruction) :
    balance instructions = (loads instructions : Int) - operators instructions := rfl

theorem loads_add_operators (instructions : List Instruction) :
    loads instructions + operators instructions = instructions.length := by
  rw [List.length_eq_countP_add_countP fun instruction => instruction.operator?.isNone]
  simp only [loads, operators, Bool.not_eq_true, Option.isNone_eq_false_iff, Bool.decide_eq_true]

theorem balance_append (front rest : List Instruction) :
    balance (front ++ rest) = balance front + balance rest := by
  simp only [balance, List.countP_append]
  omega

theorem balance_instructions (p : Program) : balance p.instructions = 1 := by
  rw [← finalDepth_zero_eq_balance p.sustained, p.finalDepth_eq_one]
  rfl

theorem loads_instructions (p : Program) :
    loads p.instructions = operators p.instructions + 1 := by
  have hbalance := p.balance_instructions
  rw [balance_eq] at hbalance
  omega

theorem odd_length_instructions (p : Program) : Odd p.instructions.length := by
  have hloads := p.loads_instructions
  have hlength := loads_add_operators p.instructions
  exact ⟨operators p.instructions, by omega⟩

/-- No more values can wait on the operand stack than have been loaded. -/
theorem maxDepth_le_loads (p : Program) : p.maxDepth ≤ loads p.instructions := by
  obtain ⟨⟨count, hcount⟩, -⟩ := isGreatest_peak p.instructions_ne_nil p.sustained
  have hpeak : balance (p.instructions.take count) = peak 0 p.instructions := hcount
  have hfew : loads (p.instructions.take count) ≤ loads p.instructions :=
    (List.take_sublist count p.instructions).countP_le
  rw [balance_eq, ← p.maxDepth_eq_peak] at hpeak
  omega

/-! ### Depths -/

/-- An instruction finds what it pops and leaves one value in its place. -/
theorem Sustained.finalDepth_take_succ (h : Sustained depth instructions)
    {instruction : Instruction} (hget : instructions[count]? = some instruction) :
    instruction.pops ≤ finalDepth depth (instructions.take count) ∧
      finalDepth depth (instructions.take (count + 1)) + instruction.pops =
        finalDepth depth (instructions.take count) + 1 := by
  have htake : instructions.take (count + 1) = instructions.take count ++ [instruction] := by
    rw [List.take_add_one, hget]
    rfl
  have hsustained := sustained_take h (count + 1)
  rw [htake, sustained_append] at hsustained
  have hpops : instruction.pops ≤ finalDepth depth (instructions.take count) := hsustained.2.1
  rw [htake, finalDepth_append, finalDepth_cons, finalDepth_nil, Instruction.depthAfter]
  omega

/-- The depths on record are those after some of the instructions, at least after the first. -/
theorem mem_depths_iff :
    depth ∈ p.depths ↔
      ∃ count, 0 < count ∧ count ≤ p.length ∧ finalDepth 0 (p.instructions.take count) = depth := by
  rw [List.mem_iff_getElem?]
  constructor
  · intro h
    obtain ⟨k, hk⟩ := h
    obtain ⟨hlt, -⟩ := List.getElem?_eq_some_iff.mp hk
    rw [length_depths] at hlt
    have hrecord : (0 :: p.depths)[k + 1]? = _ := getElem?_cons_depthsFrom hlt
    exact ⟨k + 1, Nat.succ_pos k, hlt, Option.some_inj.mp (hrecord.symm.trans hk)⟩
  · intro h
    obtain ⟨count, hpos, hcount, rfl⟩ := h
    obtain ⟨k, rfl⟩ := Nat.exists_eq_succ_of_ne_zero (Nat.ne_of_gt hpos)
    exact ⟨k, getElem?_cons_depthsFrom hcount⟩

theorem one_le_of_mem_depths (h : depth ∈ p.depths) : 1 ≤ depth := by
  obtain ⟨count, hpos, hcount, rfl⟩ := mem_depths_iff.mp h
  apply finalDepth_pos
  apply List.ne_nil_of_length_pos
  rwa [List.length_take_of_le hcount]

theorem isGreatest_maxDepth (p : Program) : IsGreatest {depth | depth ∈ p.depths} p.maxDepth := by
  rw [p.maxDepth_eq_peak]
  constructor
  · exact mem_depths_iff.mpr (exists_finalDepth_take_eq_peak p.instructions_ne_nil)
  · intro depth hdepth
    obtain ⟨count, -, -, rfl⟩ := mem_depths_iff.mp hdepth
    have hpeak := finalDepth_take_le 0 p.instructions count
    omega

theorem getLast?_cons_depthsFrom (depth : Nat) (instructions : List Instruction) :
    (depth :: depthsFrom depth instructions).getLast? = some (finalDepth depth instructions) := by
  induction instructions generalizing depth with
  | nil => rfl
  | cons instruction rest ih =>
    rw [depthsFrom, List.getLast?_cons_cons]
    exact ih _

theorem getLast?_depths (p : Program) : p.depths.getLast? = some 1 := by
  have hlast : (0 :: p.depths).getLast? = some 1 := by
    rw [depths, getLast?_cons_depthsFrom, p.finalDepth_eq_one]
  cases hdepths : p.depths with
  | nil =>
    -- with no instruction the stack would still be empty
    rw [hdepths] at hlast
    cases hlast
  | cons depth rest => rwa [hdepths, List.getLast?_cons_cons] at hlast

/-! ### Ends and arities -/

/-- What follows some instructions of a program is no program, whatever its arity. -/
theorem ofInstructions_ne_ok_of_append (h : p.instructions = front ++ rest) (hfront : front ≠ [])
    (arity : Nat) (q : Program) : ofInstructions rest arity ≠ .ok q := by
  intro hrest
  obtain ⟨rfl, -⟩ := ofInstructions_eq_ok_iff.mp hrest
  have hwhole := p.balance_instructions
  have hsustained := p.sustained
  rw [h, sustained_append] at hsustained
  rw [h, balance_append, q.balance_instructions, ← finalDepth_zero_eq_balance hsustained.1] at hwhole
  -- the instructions in front leave at least one value, and these another one
  have hpos := finalDepth_pos hfront
  omega

theorem forall_isOver_iff :
    (∀ instruction ∈ instructions, instruction.IsOver arity) ↔
      ∀ index, .loadParameter index ∈ instructions → index.toNat < arity := by
  constructor
  · intro h index hindex
    exact h _ hindex
  · intro h instruction hinstruction
    cases instruction with
    | loadParameter index => exact h index hinstruction
    | _ => trivial

/-- The instructions of a program are one with every arity that covers their parameters. -/
theorem exists_ofInstructions_iff (p : Program) (arity : Nat) :
    (∃ q, ofInstructions p.instructions arity = .ok q) ↔
      ∀ index, .loadParameter index ∈ p.instructions → index.toNat < arity := by
  rw [← forall_isOver_iff]
  constructor
  · intro h
    obtain ⟨q, hq⟩ := h
    obtain ⟨hinstructions, rfl⟩ := ofInstructions_eq_ok_iff.mp hq
    exact hinstructions ▸ q.isOver
  · intro hover
    have hverified : verify p.instructions arity = .ok (peak 0 p.instructions) :=
      verify_eq_ok_iff.mpr ⟨hover, p.sustained, p.finalDepth_eq_one, rfl⟩
    obtain ⟨q, hq, -⟩ := exists_ofInstructions hverified
    exact ⟨q, hq⟩

/-- A program has one load more than it has operators, so its length is odd. The depths on record
follow each from the one before, which covers what the instruction pops. None of them is zero, the
last one is one, and the greatest is the program's, which does not exceed the number of loads. No
proper end of the instructions is a program. With another arity they are one exactly if it covers
their parameters, and then the greatest depth is the same. -/
theorem ofInstructions_profile (h : ofInstructions instructions arity = .ok p) :
    loads instructions = operators instructions + 1 ∧ Odd instructions.length ∧
      p.depths.length = instructions.length ∧
      (∀ (k : Nat) (instruction : Instruction), instructions[k]? = some instruction →
        ∃ before after, (0 :: p.depths)[k]? = some before ∧ p.depths[k]? = some after ∧
          instruction.pops ≤ before ∧ after + instruction.pops = before + 1) ∧
      (∀ depth ∈ p.depths, 1 ≤ depth) ∧ p.depths.getLast? = some 1 ∧
      IsGreatest {depth | depth ∈ p.depths} p.maxDepth ∧ p.maxDepth ≤ loads instructions ∧
      (∀ rest, rest <:+ instructions → rest.length < instructions.length →
        ∀ m, ∃ fault, ofInstructions rest m = .error fault) ∧
      ∀ m, ((∃ q, ofInstructions instructions m = .ok q) ↔
          ∀ index, .loadParameter index ∈ instructions → index.toNat < m) ∧
        ∀ q, ofInstructions instructions m = .ok q → q.maxDepth = p.maxDepth := by
  obtain ⟨rfl, rfl⟩ := ofInstructions_eq_ok_iff.mp h
  refine ⟨p.loads_instructions, p.odd_length_instructions, p.length_depths, ?_,
    fun _ => one_le_of_mem_depths, p.getLast?_depths, p.isGreatest_maxDepth, p.maxDepth_le_loads,
    ?_, ?_⟩
  · intro k instruction hget
    obtain ⟨hlt, -⟩ := List.getElem?_eq_some_iff.mp hget
    obtain ⟨hpops, hafter⟩ := p.sustained.finalDepth_take_succ hget
    have hrecord : (0 :: p.depths)[k + 1]? = _ := getElem?_cons_depthsFrom hlt
    exact ⟨_, _, getElem?_cons_depthsFrom (Nat.le_of_lt hlt), hrecord, hpops, hafter⟩
  · intro rest hsuffix hlength m
    obtain ⟨front, hfront⟩ := hsuffix
    have hne : front ≠ [] := by
      rintro rfl
      rw [← hfront] at hlength
      exact Nat.lt_irrefl _ hlength
    cases hrest : ofInstructions rest m with
    | error fault => exact ⟨fault, rfl⟩
    | ok q => exact absurd hrest (ofInstructions_ne_ok_of_append hfront.symm hne m q)
  · intro m
    refine ⟨p.exists_ofInstructions_iff m, ?_⟩
    intro q hq
    rw [q.maxDepth_eq_peak, p.maxDepth_eq_peak, (ofInstructions_eq_ok_iff.mp hq).1]

/-- The difference of a parameter and a product needs room for all the values that it loads. Without
its first load it is no program, two parameters are too few for it, and seven make no difference. -/
theorem difference_profile :
    let instructions : List Instruction := [.loadParameter 2, .loadParameter 0, .loadConstant 3.0,
      .operate .multiply, .operate .subtract]
    ∃ p, ofInstructions instructions 3 = .ok p ∧ p.depths = [1, 2, 3, 2, 1] ∧
      p.maxDepth ≤ loads instructions ∧
      (∀ m, ∃ fault, ofInstructions (instructions.drop 1) m = .error fault) ∧
      (¬ ∃ q, ofInstructions instructions 2 = .ok q) ∧
      ∃ q, ofInstructions instructions 7 = .ok q ∧ q.maxDepth = p.maxDepth := by
  intro instructions
  let p : Program := ⟨instructions, 3, 3, rfl⟩
  have hp : ofInstructions instructions 3 = .ok p := ofInstructions_eq_ok_iff.mpr ⟨rfl, rfl⟩
  obtain ⟨-, -, -, -, -, -, -, hloads, hsuffix, harity⟩ := ofInstructions_profile hp
  obtain ⟨q, hq⟩ := (harity 7).1.mpr (by simp [instructions])
  refine ⟨p, hp, rfl, hloads, hsuffix _ (List.drop_suffix 1 _) (by decide), ?_, q, hq,
    (harity 7).2 q hq⟩
  intro hfew
  have hindex : (2 : UInt32).toNat < 2 := (harity 2).1.mp hfew 2 (by simp [instructions])
  exact absurd hindex (by decide)

end Program

end Formula
