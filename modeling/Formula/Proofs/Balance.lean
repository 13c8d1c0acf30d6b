import Formula.Proofs.Depth
import Mathlib.Data.Nat.Find
import Mathlib.Order.Bounds.Basic

/-!
# Loads against operators

A load puts one value on the operand stack and an operator takes one away, so the depth of the stack
can be told by counting, without following it. Whether instructions are a program, and if not which
fault is reported, is a matter of these counts: the fault is that of the first instruction that has
one, and nothing that comes after it matters.

## Main definitions

- `Program.balance`: the number of loads less the number of operators
- `Program.faultAt?`: what is wrong with the instruction at a position, told by counting

## Main statements

- `Program.finalDepth_eq_balance`: the depth develops as the counts do
- `Program.verify_append_of_faultAt?`: the first fault is reported, whatever is appended
- `Program.exists_ofInstructions_append_operators`: a program in which only values are left over is
  completed by operators
- `Program.ofInstructions_by_balance`: what comes of every list of instructions
-/

namespace Formula

namespace Program

/-- The number of loads less the number of operators. -/
def balance (instructions : List Instruction) : Int :=
  (instructions.countP fun instruction => instruction.operator?.isNone : Nat) -
    (instructions.countP fun instruction => instruction.operator?.isSome : Nat)

/-- The fault of the instruction at a position, if it has one: it loads a parameter beyond the
`arity` declared ones, or it is an operator and the loads before it do not exceed the operators
before it by two. -/
def faultAt? (arity : Nat) (instructions : List Instruction) (position : Nat) : Option Fault :=
  match instructions[position]? with
  | some (.loadParameter index) =>
    if arity ≤ index.toNat then some (.invalidParameterIndex index arity) else none
  | some (.operate _) =>
    if balance (instructions.take position) < 2 then some (.underflow position) else none
  | _ => none

variable {arity depth greatest position : Nat} {instruction : Instruction}
  {instructions first : List Instruction} {ops : List Operator} {fault : Fault}

/-! ### Depths and counts -/

@[simp] theorem balance_nil : balance [] = 0 := rfl

theorem balance_cons (instruction : Instruction) (rest : List Instruction) :
    balance (instruction :: rest) = 1 - instruction.pops + balance rest := by
  cases instruction <;> simp [balance, Instruction.operator?, Instruction.pops] <;> omega

/-- As long as no operand is lacking, the depth is what the counts say. -/
theorem finalDepth_eq_balance (h : Sustained depth instructions) :
    (finalDepth depth instructions : Int) = depth + balance instructions := by
  induction instructions generalizing depth with
  | nil => simp
  | cons instruction rest ih =>
    have hpops := h.1
    rw [finalDepth_cons, ih h.2, balance_cons, Instruction.depthAfter]
    omega

theorem finalDepth_zero_eq_balance (h : Sustained 0 instructions) :
    (finalDepth 0 instructions : Int) = balance instructions := by
  rw [finalDepth_eq_balance h]
  omega

theorem isGreatest_peak (hne : instructions ≠ []) (h : Sustained 0 instructions) :
    IsGreatest (Set.range fun count => balance (instructions.take count))
      (peak 0 instructions : Int) := by
  refine ⟨?_, ?_⟩
  · obtain ⟨count, -, -, hpeak⟩ : ∃ count, 0 < count ∧ count ≤ instructions.length ∧
        finalDepth 0 (instructions.take count) = peak 0 instructions :=
      exists_finalDepth_take_eq_peak hne
    refine ⟨count, ?_⟩
    change balance _ = _
    rw [← hpeak, finalDepth_zero_eq_balance (sustained_take h count)]
  · rintro _ ⟨count, rfl⟩
    change balance _ ≤ _
    have hpeak := finalDepth_take_le 0 instructions count
    rw [← finalDepth_zero_eq_balance (sustained_take h count)]
    omega

/-! ### The first fault -/

/-- Verification gets through instructions in which it finds no fault. -/
theorem verifyFrom_append (hover : ∀ instruction ∈ first, instruction.IsOver arity)
    (hsustained : Sustained depth first) (second : List Instruction) :
    verifyFrom arity position depth greatest (first ++ second) =
      verifyFrom arity (position + first.length) (finalDepth depth first)
        (max greatest (peak depth first)) second := by
  induction first generalizing position depth greatest with
  | nil => simp
  | cons instruction rest ih =>
    obtain ⟨hdeclared, hrest⟩ := List.forall_mem_cons.mp hover
    rw [List.cons_append, verifyFrom_cons, Instruction.requireDeclared_eq_ok_iff.mpr hdeclared]
    change (if depth < instruction.pops then _ else _) = _
    rw [if_neg (Nat.not_lt_of_le hsustained.1), ih hrest hsustained.2, finalDepth_cons, peak_cons,
      List.length_cons, Nat.max_assoc, Nat.add_assoc, Nat.add_comm 1]

theorem isOver_of_faultAt?_eq_none (hget : instructions[position]? = some instruction)
    (h : faultAt? arity instructions position = none) : instruction.IsOver arity := by
  cases instruction with
  | loadParameter index =>
    simp only [faultAt?, hget] at h
    by_contra hindex
    rw [if_pos (Nat.le_of_not_lt hindex)] at h
    cases h
  | _ => trivial

theorem pops_le_of_faultAt?_eq_none (hget : instructions[position]? = some instruction)
    (hbefore : Sustained 0 (instructions.take position))
    (h : faultAt? arity instructions position = none) :
    instruction.pops ≤ finalDepth 0 (instructions.take position) := by
  cases instruction with
  | operate op =>
    have hbalance := finalDepth_zero_eq_balance hbefore
    simp only [faultAt?, hget] at h
    by_contra hpops
    have hshort : finalDepth 0 (instructions.take position) < 2 := Nat.lt_of_not_le hpops
    rw [if_pos (by omega)] at h
    cases h
  | _ => exact Nat.zero_le _

/-- Up to the first fault, verification finds none. -/
theorem sustained_take_of_faultAt?_eq_none {count : Nat}
    (h : ∀ earlier < count, faultAt? arity instructions earlier = none) :
    (∀ instruction ∈ instructions.take count, instruction.IsOver arity) ∧
      Sustained 0 (instructions.take count) := by
  induction count with
  | zero => simp [Sustained]
  | succ count ih =>
    obtain ⟨hover, hsustained⟩ := ih fun earlier hearlier => h earlier (by omega)
    rw [List.take_add_one]
    cases hget : instructions[count]? with
    | none => simpa using ⟨hover, hsustained⟩
    | some instruction =>
      have hnone := h count (by omega)
      have hdeclared := isOver_of_faultAt?_eq_none hget hnone
      have hpops := pops_le_of_faultAt?_eq_none hget hsustained hnone
      refine ⟨?_, sustained_append.mpr ⟨hsustained, hpops, trivial⟩⟩
      intro other hother
      rcases List.mem_append.mp hother with hold | hnew
      · exact hover other hold
      · rw [Option.toList_some, List.mem_singleton] at hnew
        exact hnew ▸ hdeclared

theorem verifyFrom_of_faultAt? (hget : instructions[position]? = some instruction)
    (hbefore : Sustained 0 (instructions.take position))
    (h : faultAt? arity instructions position = some fault) (rest : List Instruction) :
    verifyFrom arity position (finalDepth 0 (instructions.take position)) greatest
      (instruction :: rest) = .error fault := by
  rw [verifyFrom_cons]
  cases instruction with
  | loadConstant value => simp [faultAt?, hget] at h
  | loadParameter index =>
    simp only [faultAt?, hget, Option.ite_none_right_eq_some, Option.some_inj] at h
    obtain ⟨hindex, rfl⟩ := h
    rw [Instruction.requireDeclared, if_neg (Nat.not_lt_of_le hindex)]
  | operate op =>
    simp only [faultAt?, hget, Option.ite_none_right_eq_some, Option.some_inj] at h
    obtain ⟨hshort, rfl⟩ := h
    have hbalance := finalDepth_zero_eq_balance hbefore
    have hpops : finalDepth 0 (instructions.take position) < 2 := by omega
    exact if_pos hpops

theorem exists_getElem?_of_faultAt? (h : faultAt? arity instructions position = some fault) :
    ∃ instruction, instructions[position]? = some instruction := by
  cases hget : instructions[position]? with
  | none => simp [faultAt?, hget] at h
  | some instruction => exact ⟨instruction, rfl⟩

/-- The first fault is reported, whatever is appended. -/
theorem verify_append_of_faultAt? (hfault : faultAt? arity instructions position = some fault)
    (hleast : ∀ earlier < position, faultAt? arity instructions earlier = none)
    (more : List Instruction) : verify (instructions ++ more) arity = .error fault := by
  obtain ⟨instruction, hget⟩ := exists_getElem?_of_faultAt? hfault
  obtain ⟨hlt, hinstruction⟩ := List.getElem?_eq_some_iff.mp hget
  obtain ⟨hover, hsustained⟩ := sustained_take_of_faultAt?_eq_none hleast
  have hsplit : instructions ++ more =
      instructions.take position ++ instruction :: (instructions.drop (position + 1) ++ more) := by
    rw [← hinstruction, ← List.cons_append, List.getElem_cons_drop, ← List.append_assoc,
      List.take_append_drop]
  have hlength : 0 + (instructions.take position).length = position := by simp; omega
  have hnonempty : (instructions ++ more).isEmpty = false := by
    cases instructions with
    | nil => simp at hlt
    | cons first rest => rfl
  rw [verify, hnonempty, hsplit]
  change verifyFrom _ _ _ _ _ = _
  rw [verifyFrom_append hover hsustained, hlength]
  exact verifyFrom_of_faultAt? hget hsustained hfault _

/-! ### Values left over -/

theorem depthAfter_operate (op : Operator) (depth : Nat) :
    (Instruction.operate op).depthAfter depth = depth - 2 + 1 := rfl

theorem sustained_operators (h : ops.length < depth) : Sustained depth (ops.map .operate) := by
  induction ops generalizing depth with
  | nil => trivial
  | cons op ops ih =>
    rw [List.length_cons] at h
    refine ⟨?_, ih ?_⟩
    · change 2 ≤ depth
      omega
    · rw [depthAfter_operate]
      omega

theorem finalDepth_operators (h : ops.length < depth) :
    finalDepth depth (ops.map .operate) = depth - ops.length := by
  induction ops generalizing depth with
  | nil => rfl
  | cons op ops ih =>
    rw [List.length_cons] at h ⊢
    rw [List.map_cons, finalDepth_cons, depthAfter_operate, ih (by omega)]
    omega

theorem peak_operators_le (h : ops.length < depth) : peak depth (ops.map .operate) ≤ depth := by
  induction ops generalizing depth with
  | nil => exact Nat.zero_le _
  | cons op ops ih =>
    rw [List.length_cons] at h
    have hrest : peak (depth - 2 + 1) (ops.map .operate) ≤ depth - 2 + 1 := ih (by omega)
    rw [List.map_cons, peak_cons, depthAfter_operate]
    omega

/-- Instructions that leave too many values are completed by as many operators as bring them down to
one, and the completed program takes no more room. -/
theorem exists_ofInstructions_append_operators
    (hover : ∀ instruction ∈ instructions, instruction.IsOver arity)
    (hsustained : Sustained 0 instructions) (hops : (ops.length : Int) + 1 = balance instructions) :
    ∃ p, ofInstructions (instructions ++ ops.map .operate) arity = .ok p ∧
      p.maxDepth = peak 0 instructions := by
  have hbalance := finalDepth_zero_eq_balance hsustained
  have hfew : ops.length < finalDepth 0 instructions := by omega
  have hfinal := finalDepth_le 0 instructions
  have hoperators := peak_operators_le hfew
  have hverified :
      verify (instructions ++ ops.map .operate) arity = .ok (peak 0 instructions) := by
    rw [verify_eq_ok_iff, sustained_append, finalDepth_append, finalDepth_operators hfew,
      peak_append]
    refine ⟨?_, ⟨hsustained, sustained_operators hfew⟩, by omega, by omega⟩
    intro instruction hmem
    rcases List.mem_append.mp hmem with hold | hnew
    · exact hover instruction hold
    · obtain ⟨op, -, rfl⟩ := List.mem_map.mp hnew
      exact trivial
  exact exists_ofInstructions hverified

theorem verify_of_finalDepth_ne (hne : instructions ≠ [])
    (hover : ∀ instruction ∈ instructions, instruction.IsOver arity)
    (hsustained : Sustained 0 instructions) (hfinal : finalDepth 0 instructions ≠ 1) :
    verify instructions arity = .error (.malformedBytecode instructions.length
      "program must leave exactly one value on the stack") := by
  have hend : verifyFrom arity 0 0 0 (instructions ++ []) = _ :=
    verifyFrom_append hover hsustained []
  rw [List.append_nil, Nat.zero_add, verifyFrom, if_neg hfinal] at hend
  cases instructions with
  | nil => exact absurd rfl hne
  | cons first rest => exact hend

theorem sustained_of_faultAt?_eq_none
    (h : ∀ position, faultAt? arity instructions position = none) :
    (∀ instruction ∈ instructions, instruction.IsOver arity) ∧ Sustained 0 instructions := by
  have htake := sustained_take_of_faultAt?_eq_none
    fun earlier (_ : earlier < instructions.length) => h earlier
  rwa [List.take_length] at htake

theorem finalDepth_pos (hne : instructions ≠ []) : 0 < finalDepth 0 instructions := by
  rw [← List.dropLast_concat_getLast hne, finalDepth_append, finalDepth_cons, finalDepth_nil]
  exact Nat.succ_pos _

/-- What comes of a list of instructions is told by counting loads and operators. If an instruction
has a fault, then that of the first one is reported, and no instructions that are appended change
this. If none has, there are more loads than operators. With just one more the instructions are a
program; otherwise values are left at the end, and operators for all but one of them complete a
program that needs no more room than the instructions have taken. -/
theorem ofInstructions_by_balance (instructions : List Instruction) (arity : Nat) :
    (instructions = [] → ofInstructions instructions arity =
        .error (.malformedBytecode 0 "program is empty")) ∧
      ((∃ position, faultAt? arity instructions position ≠ none) →
        ∃ position fault, faultAt? arity instructions position = some fault ∧
          (∀ earlier < position, faultAt? arity instructions earlier = none) ∧
          ofInstructions instructions arity = .error fault ∧
          ∀ more, ofInstructions (instructions ++ more) arity = .error fault) ∧
      (instructions ≠ [] → (∀ position, faultAt? arity instructions position = none) →
        (balance instructions = 1 → ∃ p, ofInstructions instructions arity = .ok p ∧
          IsGreatest (Set.range fun count => balance (instructions.take count)) p.maxDepth) ∧
        (balance instructions ≠ 1 →
          ofInstructions instructions arity = .error (.malformedBytecode instructions.length
            "program must leave exactly one value on the stack") ∧
          2 ≤ balance instructions ∧
          ∀ ops : List Operator, ops.length = balance instructions - 1 →
            ∃ p, ofInstructions (instructions ++ ops.map .operate) arity = .ok p ∧
              IsGreatest (Set.range fun count => balance (instructions.take count)) p.maxDepth)) := by
  refine ⟨?_, ?_, fun hne hnone => ?_⟩
  · rintro rfl
    exact ofInstructions_eq_error_iff.mpr rfl
  · intro hsome
    classical
    have hleast : ∀ earlier < Nat.find hsome, faultAt? arity instructions earlier = none :=
      fun earlier hearlier => not_not.mp (Nat.find_min hsome hearlier)
    obtain ⟨fault, hfault⟩ := Option.ne_none_iff_exists'.mp (Nat.find_spec hsome)
    have hrefused : ∀ more, ofInstructions (instructions ++ more) arity = .error fault :=
      fun more => ofInstructions_eq_error_iff.mpr (verify_append_of_faultAt? hfault hleast more)
    have hbare := hrefused []
    rw [List.append_nil] at hbare
    exact ⟨_, fault, hfault, hleast, hbare, hrefused⟩
  · obtain ⟨hover, hsustained⟩ := sustained_of_faultAt?_eq_none hnone
    have hbalance := finalDepth_zero_eq_balance hsustained
    have hpositive := finalDepth_pos hne
    have hcompleted : ∀ ops : List Operator, ops.length = balance instructions - 1 →
        ∃ p, ofInstructions (instructions ++ ops.map .operate) arity = .ok p ∧
          IsGreatest (Set.range fun count => balance (instructions.take count)) p.maxDepth := by
      intro ops hops
      have hcount : (ops.length : Int) + 1 = balance instructions := by omega
      obtain ⟨p, hp, hmax⟩ := exists_ofInstructions_append_operators hover hsustained hcount
      exact ⟨p, hp, hmax ▸ isGreatest_peak hne hsustained⟩
    refine ⟨fun hone => ?_, fun hother => ⟨?_, by omega, hcompleted⟩⟩
    · -- there is nothing to complete
      have hthis := hcompleted [] (by simp [hone])
      rwa [List.map_nil, List.append_nil] at hthis
    · exact ofInstructions_eq_error_iff.mpr
        (verify_of_finalDepth_ne hne hover hsustained (by omega))

/-- An operator that lacks an operand is reported before a later parameter that is not declared, and
three values are brought down to one by two operators. -/
theorem three_loads_by_balance :
    let bad : List Instruction := [.loadParameter 0, .operate .add, .loadParameter 7]
    let loads : List Instruction := [.loadParameter 0, .loadParameter 0, .loadParameter 0]
    ofInstructions [] 1 = .error (.malformedBytecode 0 "program is empty") ∧
      (∀ more, ofInstructions (bad ++ more) 1 = .error (.underflow 1)) ∧
      ofInstructions loads 1 = .error (.malformedBytecode 3
        "program must leave exactly one value on the stack") ∧
      (∃ p, ofInstructions (loads ++ [.operate .add, .operate .divide]) 1 = .ok p ∧
        IsGreatest (Set.range fun count => balance (loads.take count)) p.maxDepth) ∧
      ∃ p, ofInstructions [.loadParameter 0] 1 = .ok p := by
  intro bad loads
  obtain ⟨hempty, -, -⟩ := ofInstructions_by_balance [] 1
  obtain ⟨-, hfaulty, -⟩ := ofInstructions_by_balance bad 1
  obtain ⟨-, -, hleft⟩ := ofInstructions_by_balance loads 1
  obtain ⟨-, -, hsingle⟩ := ofInstructions_by_balance [.loadParameter 0] 1
  obtain ⟨position, fault, hfault, hleast, -, hmore⟩ := hfaulty ⟨1, by decide⟩
  obtain rfl : position = 1 := by
    rcases Nat.lt_trichotomy position 1 with hbefore | hsame | hafter
    · obtain rfl : position = 0 := by omega
      cases hfault
    · exact hsame
    · cases hleast 1 hafter
  cases hfault
  have hnone : ∀ position, faultAt? 1 loads position = none := fun
    | 0 | 1 | 2 => rfl
    | _ + 3 => rfl
  obtain ⟨hrefused, -, hcompleted⟩ := (hleft (by simp [loads]) hnone).2 (by decide)
  obtain ⟨p, hp, -⟩ := (hsingle (by simp) fun | 0 => rfl | _ + 1 => rfl).1 rfl
  exact ⟨hempty rfl, hmore, hrefused, hcompleted [.add, .divide] rfl, p, hp⟩

end Program

end Formula
