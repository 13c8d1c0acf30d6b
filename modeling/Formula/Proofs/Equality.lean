import Formula.Proofs.Compilation
import Formula.Proofs.Decompilation

/-!
# Equal trees and equal programs

Trees and programs are compared with their constants as numbers, so that a tree with a NaN in it
differs from itself and a zero is equal to the zero of the other sign. No equality can be replaced
by another one then, but comparing goes along with compiling and with rebuilding: the postorders of
equal trees are equal, and equal instructions do equal things to equal stacks of trees.

## Main statements

- `Tree.postorder_beq`: equal trees have equal postorders
- `Program.beqAll_rebuild`: equal instructions rebuild equal trees
- `Expression.root_beq_iff_program_beq`: trees are equal exactly if their programs are
-/

namespace Formula

open Program

variable {tree tree' : Tree} {trees trees' : List Tree}
  {instructions instructions' : List Instruction}

theorem append_beq_append {α : Type} [BEq α] {first first' second second' : List α}
    (hfirst : (first == first') = true) (hsecond : (second == second') = true) :
    (first ++ second == first' ++ second') = true := by
  induction first generalizing first' with
  | nil =>
    cases first' with
    | nil => exact hsecond
    | cons a' rest' => cases hfirst
  | cons a rest ih =>
    cases first' with
    | nil => cases hfirst
    | cons a' rest' =>
      rw [List.cons_beq_cons, Bool.and_eq_true] at hfirst
      rw [List.cons_append, List.cons_append, List.cons_beq_cons, Bool.and_eq_true]
      exact ⟨hfirst.1, ih hfirst.2⟩

/-! ### From trees to programs -/

namespace Tree

theorem beq_binary_iff {op op' : Operator} {left left' right right' : Tree} :
    (binary op left right).beq (binary op' left' right') = true ↔
      op = op' ∧ left.beq left' = true ∧ right.beq right' = true := by
  rw [beq, Bool.and_eq_true, Bool.and_eq_true, beq_iff_eq, and_assoc]

/-- Equal trees have equal instructions. -/
theorem postorder_beq : ∀ {tree tree' : Tree}, tree.beq tree' = true →
    (tree.postorder == tree'.postorder) = true
  | .constant value, .constant value', h => by
    show ((value == value') && true) = true
    rwa [Bool.and_true]
  | .parameter index, .parameter index', h => by
    show ((index == index') && true) = true
    rwa [Bool.and_true]
  | .binary op left right, .binary op' left' right', h => by
    obtain ⟨rfl, hleft, hright⟩ := beq_binary_iff.mp h
    have hop : ([Instruction.operate op] == [Instruction.operate op]) = true := by
      cases op <;> rfl
    exact append_beq_append (append_beq_append (postorder_beq hleft) (postorder_beq hright)) hop
  | .other kind operands, .other kind' operands', h => rfl

/-- Equal trees need the same room. -/
theorem need_eq_of_beq : ∀ {tree tree' : Tree}, tree.beq tree' = true → tree.need = tree'.need
  | .constant value, .constant value', h => rfl
  | .parameter index, .parameter index', h => rfl
  | .binary op left right, .binary op' left' right', h => by
    obtain ⟨-, hleft, hright⟩ := beq_binary_iff.mp h
    rw [need, need, need_eq_of_beq hleft, need_eq_of_beq hright]
  | .other kind operands, .other kind' operands', h => rfl

end Tree

/-! ### From programs to trees -/

theorem Tree.beqAll_cons_iff :
    beqAll (tree :: trees) (tree' :: trees') = true ↔
      tree.beq tree' = true ∧ beqAll trees trees' = true := by
  rw [beqAll, Bool.and_eq_true]

/-- What an operator does to a stack of trees depends on its two operands alone. -/
theorem Instruction.beqAll_graft_operate (op : Operator) (h : Tree.beqAll trees trees' = true) :
    Tree.beqAll ((operate op).graft trees) ((operate op).graft trees') = true := by
  match trees, trees', h with
  | [], [], h => exact h
  | [tree], [tree'], h => exact h
  | [tree], right :: left :: rest, h =>
    obtain ⟨-, hrest⟩ := Tree.beqAll_cons_iff.mp h
    cases hrest
  | right :: left :: rest, [tree], h =>
    obtain ⟨-, hrest⟩ := Tree.beqAll_cons_iff.mp h
    cases hrest
  | right :: left :: rest, right' :: left' :: rest', h =>
    obtain ⟨hright, hrest⟩ := Tree.beqAll_cons_iff.mp h
    obtain ⟨hleft, hrest⟩ := Tree.beqAll_cons_iff.mp hrest
    exact Tree.beqAll_cons_iff.mpr ⟨Tree.beq_binary_iff.mpr ⟨rfl, hleft, hright⟩, hrest⟩

/-- Equal instructions make equal stacks of equal stacks. -/
theorem Instruction.beqAll_graft {instruction instruction' : Instruction}
    (hinstruction : (instruction == instruction') = true) (h : Tree.beqAll trees trees' = true) :
    Tree.beqAll (instruction.graft trees) (instruction'.graft trees') = true := by
  cases instruction with
  | loadConstant value =>
    cases instruction' with
    | loadConstant value' => exact Tree.beqAll_cons_iff.mpr ⟨hinstruction, h⟩
    | loadParameter index' => cases hinstruction
    | operate op' => cases hinstruction
  | loadParameter index =>
    cases instruction' with
    | loadConstant value' => cases hinstruction
    | loadParameter index' => exact Tree.beqAll_cons_iff.mpr ⟨hinstruction, h⟩
    | operate op' => cases hinstruction
  | operate op =>
    cases instruction' with
    | loadConstant value' => cases hinstruction
    | loadParameter index' => cases hinstruction
    | operate op' =>
      have hop : (op == op') = true := hinstruction
      obtain rfl : op = op' := beq_iff_eq.mp hop
      exact beqAll_graft_operate op h

theorem Program.beqAll_rebuild (hinstructions : (instructions == instructions') = true)
    (h : Tree.beqAll trees trees' = true) :
    Tree.beqAll (rebuild trees instructions) (rebuild trees' instructions') = true := by
  induction instructions generalizing instructions' trees trees' with
  | nil =>
    cases instructions' with
    | nil => exact h
    | cons instruction' rest' => cases hinstructions
  | cons instruction rest ih =>
    cases instructions' with
    | nil => cases hinstructions
    | cons instruction' rest' =>
      rw [List.cons_beq_cons, Bool.and_eq_true] at hinstructions
      rw [rebuild_cons, rebuild_cons]
      exact ih hinstructions.2 (Instruction.beqAll_graft hinstructions.1 h)

/-- The trees that equal postorders are read back as are equal. -/
theorem Tree.IsOver.beq_of_postorder_beq {n n' : Nat} (h : tree.IsOver n) (h' : tree'.IsOver n')
    (hpostorder : (tree.postorder == tree'.postorder) = true) : tree.beq tree' = true := by
  have hrebuild : beqAll (rebuild [] tree.postorder) (rebuild [] tree'.postorder) = true :=
    beqAll_rebuild hpostorder rfl
  rw [h.rebuild_postorder, h'.rebuild_postorder] at hrebuild
  exact (beqAll_cons_iff.mp hrebuild).1

theorem Program.beq_iff {p q : Program} :
    (p == q) = true ↔
      (p.instructions == q.instructions) = true ∧ p.arity = q.arity ∧ p.maxDepth = q.maxDepth := by
  show (_ && p.arity == q.arity && p.maxDepth == q.maxDepth) = true ↔ _
  rw [Bool.and_eq_true, Bool.and_eq_true, and_assoc]
  exact and_congr_right fun _ => and_congr beq_iff_eq beq_iff_eq

namespace Expression

/-- Two expressions of equally many parameters have equal trees exactly if they are compiled to
equal programs, where constants are equal as numbers are. -/
theorem root_beq_iff_program_beq (e e' : Expression) (harity : e.arity = e'.arity) :
    ∃ p p', e.compile.result = .ok p ∧ e'.compile.result = .ok p' ∧
      ((e.root == e'.root) = true ↔ (p == p') = true) := by
  refine ⟨e.program, e'.program, e.result_compile, e'.result_compile, ?_⟩
  constructor
  · intro hroot
    exact beq_iff.mpr ⟨Tree.postorder_beq hroot, harity, Tree.need_eq_of_beq hroot⟩
  · intro hprogram
    exact e.root_isOver.beq_of_postorder_beq e'.root_isOver (beq_iff.mp hprogram).1

/-- A product with zero is equal to the product with the negative zero, as a tree and as a program,
and a product with NaN is not equal to itself. -/
theorem product_beq_iff_program_beq :
    let product (value : Float) : Expression := {
      root := .binary .multiply (.parameter 0) (.constant value)
      params := ["x"]
      distinct := by decide
      checked := rfl }
    (∃ p p', (product 0.0).compile.result = .ok p ∧ (product (-0.0)).compile.result = .ok p' ∧
      (p == p') = true) ∧
    ∃ p p', (product (0.0 / 0.0)).compile.result = .ok p ∧
      (product (0.0 / 0.0)).compile.result = .ok p' ∧ (p == p') ≠ true := by
  intro product
  obtain ⟨p, p', hp, hp', hzeros⟩ :=
    (product 0.0).root_beq_iff_program_beq (product (-0.0)) rfl
  obtain ⟨q, q', hq, hq', hnan⟩ :=
    (product (0.0 / 0.0)).root_beq_iff_program_beq (product (0.0 / 0.0)) rfl
  have hequal : ((product 0.0).root == (product (-0.0)).root) = true := by decide
  have hdifferent : ((product (0.0 / 0.0)).root == (product (0.0 / 0.0)).root) ≠ true := by decide
  exact ⟨⟨p, p', hp, hp', hzeros.mp hequal⟩, q, q', hq, hq', fun h => hdifferent (hnan.mpr h)⟩

end Expression

end Formula
