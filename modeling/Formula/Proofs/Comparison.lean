import Formula.Proofs.Equality
import Formula.Proofs.Validation
import Mathlib

/-!
# Comparing trees

Trees are compared with their constants as numbers, below nodes that are not compiled as well. So
the comparison is no more reflexive than that of doubles is: a single NaN makes a tree differ from
itself, wherever it occurs. But it is symmetric and transitive, and equal trees have in common what
can be told of a tree without its constants: label and depth, and whether it is accepted.

## Main definitions

- `Tree.constants`: the constants in a tree, those below nodes of other kinds included

## Main statements

- `Number.beq_comm`, `Number.beq_trans`, `Number.beq_self_iff`: the comparison of doubles
- `Tree.beq_self_iff`: which trees are equal to themselves
- `Tree.check_eq_of_beq`: equal trees are checked with the same outcome
- `Tree.beq_partial_equivalence`: the laws of the comparison and what it preserves
-/

namespace Formula

/-! ### Doubles -/

namespace Number

variable {u v w : Float}

theorem beq_symm (h : (v == w) = true) : (w == v) = true := by
  rw [Float.beq_iff_ne_nan_and_eq] at h ⊢
  obtain ⟨hv, hw, heq | ⟨hv0, hw0⟩ | ⟨hv0, hw0⟩⟩ := h
  · exact ⟨hw, hv, .inl heq.symm⟩
  · exact ⟨hw, hv, .inr (.inr ⟨hw0, hv0⟩)⟩
  · exact ⟨hw, hv, .inr (.inl ⟨hw0, hv0⟩)⟩

theorem beq_comm (v w : Float) : (v == w) = (w == v) :=
  Bool.eq_iff_iff.mpr ⟨beq_symm, beq_symm⟩

theorem beq_trans (huv : (u == v) = true) (hvw : (v == w) = true) : (u == w) = true := by
  rw [Float.beq_iff_ne_nan_and_eq] at huv hvw ⊢
  obtain ⟨hu, -, huv⟩ := huv
  obtain ⟨-, hw, hvw⟩ := hvw
  refine ⟨hu, hw, ?_⟩
  -- there are only two zeros, so the second step from one of them leads back or stays
  grind

/-- A double is equal to itself unless it is NaN. -/
theorem beq_self_iff : (v == v) = true ↔ v.isNaN = false := by
  rw [Float.beq_self_iff, Float.isNaN_eq_decide_eq_nan, decide_eq_false_iff_not]

end Number

/-! ### Trees -/

namespace Tree

mutual

/-- The constants in a tree from left to right, wherever they occur. -/
def constants : Tree → List Float
  | .constant value => [value]
  | .parameter _ => []
  | .binary _ left right => left.constants ++ right.constants
  | .other _ operands => allConstants operands

/-- The constants in all the trees. -/
def allConstants : List Tree → List Float
  | [] => []
  | tree :: trees => tree.constants ++ allConstants trees

end

theorem beq_other_iff {kind kind' : String} {operands operands' : List Tree} :
    (other kind operands).beq (other kind' operands') = true ↔
      kind = kind' ∧ beqAll operands operands' = true := by
  rw [beq, Bool.and_eq_true, beq_iff_eq]

theorem beq_parameter_iff {index index' : UInt32} :
    (parameter index).beq (parameter index') = true ↔ index = index' := by
  rw [beq, beq_iff_eq]

mutual

theorem beq_symm : ∀ {tree tree' : Tree}, tree.beq tree' = true → tree'.beq tree = true
  | .constant value, .constant value', h => Number.beq_symm h
  | .parameter index, .parameter index', h => beq_parameter_iff.mpr (beq_parameter_iff.mp h).symm
  | .binary op left right, .binary op' left' right', h => by
    obtain ⟨hop, hleft, hright⟩ := beq_binary_iff.mp h
    exact beq_binary_iff.mpr ⟨hop.symm, beq_symm hleft, beq_symm hright⟩
  | .other kind operands, .other kind' operands', h => by
    obtain ⟨hkind, hoperands⟩ := beq_other_iff.mp h
    exact beq_other_iff.mpr ⟨hkind.symm, beqAll_symm hoperands⟩

theorem beqAll_symm : ∀ {trees trees' : List Tree},
    beqAll trees trees' = true → beqAll trees' trees = true
  | [], [], _ => rfl
  | tree :: trees, tree' :: trees', h => by
    obtain ⟨htree, htrees⟩ := beqAll_cons_iff.mp h
    exact beqAll_cons_iff.mpr ⟨beq_symm htree, beqAll_symm htrees⟩

end

mutual

theorem beq_trans : ∀ {tree tree' tree'' : Tree},
    tree.beq tree' = true → tree'.beq tree'' = true → tree.beq tree'' = true
  | .constant value, .constant value', .constant value'', h, h' => Number.beq_trans h h'
  | .parameter index, .parameter index', .parameter index'', h, h' =>
    beq_parameter_iff.mpr ((beq_parameter_iff.mp h).trans (beq_parameter_iff.mp h'))
  | .binary op left right, .binary op' left' right', .binary op'' left'' right'', h, h' => by
    obtain ⟨hop, hleft, hright⟩ := beq_binary_iff.mp h
    obtain ⟨hop', hleft', hright'⟩ := beq_binary_iff.mp h'
    exact beq_binary_iff.mpr
      ⟨hop.trans hop', beq_trans hleft hleft', beq_trans hright hright'⟩
  | .other kind operands, .other kind' operands', .other kind'' operands'', h, h' => by
    obtain ⟨hkind, hoperands⟩ := beq_other_iff.mp h
    obtain ⟨hkind', hoperands'⟩ := beq_other_iff.mp h'
    exact beq_other_iff.mpr ⟨hkind.trans hkind', beqAll_trans hoperands hoperands'⟩

theorem beqAll_trans : ∀ {trees trees' trees'' : List Tree},
    beqAll trees trees' = true → beqAll trees' trees'' = true → beqAll trees trees'' = true
  | [], [], [], _, _ => rfl
  | tree :: trees, tree' :: trees', tree'' :: trees'', h, h' => by
    obtain ⟨htree, htrees⟩ := beqAll_cons_iff.mp h
    obtain ⟨htree', htrees'⟩ := beqAll_cons_iff.mp h'
    exact beqAll_cons_iff.mpr ⟨beq_trans htree htree', beqAll_trans htrees htrees'⟩

end

mutual

/-- A tree is equal to itself unless there is a NaN somewhere in it. -/
theorem beq_self_iff : ∀ {tree : Tree},
    tree.beq tree = true ↔ ∀ value ∈ tree.constants, value.isNaN = false
  | .constant value => by
    rw [beq, Number.beq_self_iff, constants, List.forall_mem_singleton]
  | .parameter index => by simp [beq_parameter_iff, constants]
  | .binary op left right => by
    rw [beq_binary_iff, beq_self_iff, beq_self_iff, constants, List.forall_mem_append]
    exact and_iff_right rfl
  | .other kind operands => by
    rw [beq_other_iff, beqAll_self_iff, constants]
    exact and_iff_right rfl

theorem beqAll_self_iff : ∀ {trees : List Tree},
    beqAll trees trees = true ↔ ∀ value ∈ allConstants trees, value.isNaN = false
  | [] => by simp [beqAll, allConstants]
  | tree :: trees => by
    rw [beqAll_cons_iff, beq_self_iff, beqAll_self_iff, allConstants, List.forall_mem_append]

end

/-! ### What equal trees have in common -/

theorem label_eq_of_beq : ∀ {tree tree' : Tree}, tree.beq tree' = true → tree.label = tree'.label
  | .constant _, .constant _, _ => rfl
  | .parameter _, .parameter _, _ => rfl
  | .binary _ _ _, .binary _ _ _, h => congrArg Operator.label (beq_binary_iff.mp h).1
  | .other _ _, .other _ _, h => (beq_other_iff.mp h).1

mutual

theorem depth_eq_of_beq : ∀ {tree tree' : Tree}, tree.beq tree' = true → tree.depth = tree'.depth
  | .constant value, .constant value', _ => rfl
  | .parameter index, .parameter index', _ => rfl
  | .binary op left right, .binary op' left' right', h => by
    obtain ⟨-, hleft, hright⟩ := beq_binary_iff.mp h
    rw [depth, depth, depth_eq_of_beq hleft, depth_eq_of_beq hright]
  | .other kind operands, .other kind' operands', h => by
    rw [depth, depth, greatestDepth_eq_of_beqAll (beq_other_iff.mp h).2]

theorem greatestDepth_eq_of_beqAll : ∀ {trees trees' : List Tree},
    beqAll trees trees' = true → greatestDepth trees = greatestDepth trees'
  | [], [], _ => rfl
  | tree :: trees, tree' :: trees', h => by
    obtain ⟨htree, htrees⟩ := beqAll_cons_iff.mp h
    rw [greatestDepth, greatestDepth, depth_eq_of_beq htree, greatestDepth_eq_of_beqAll htrees]

end

/-- Equal trees are checked with the same outcome. -/
theorem check_eq_of_beq (names : List String) : ∀ {tree tree' : Tree},
    tree.beq tree' = true → tree.check names = tree'.check names
  | .constant value, .constant value', _ => rfl
  | .parameter index, .parameter index', h => by rw [beq_parameter_iff.mp h]
  | .binary op left right, .binary op' left' right', h => by
    obtain ⟨-, hleft, hright⟩ := beq_binary_iff.mp h
    rw [check_binary, check_binary, check_eq_of_beq names hleft, check_eq_of_beq names hright]
  | .other kind operands, .other kind' operands', h => by
    obtain ⟨rfl, -⟩ := beq_other_iff.mp h
    rfl

end Tree

/-- Trees that are checked with the same outcome are both expressions or are refused for the same
reason. -/
theorem Expression.ofTree_of_check_eq {root root' : Tree} {names : List String}
    (h : root.check names = root'.check names) :
    (∃ e e', ofTree root names = .ok e ∧ ofTree root' names = .ok e') ∨
      ∃ fault, ofTree root names = .error fault ∧ ofTree root' names = .error fault := by
  by_cases hdistinct : names.Nodup
  · cases hcheck : root.check names with
    | ok =>
      obtain ⟨e, he⟩ := exists_ofTree hdistinct hcheck
      obtain ⟨e', he'⟩ := exists_ofTree hdistinct (h.symm.trans hcheck)
      exact .inl ⟨e, e', he, he'⟩
    | error fault =>
      exact .inr ⟨fault, ofTree_of_check_error hdistinct hcheck,
        ofTree_of_check_error hdistinct (h.symm.trans hcheck)⟩
  · obtain ⟨name, hname⟩ := exists_repeatsFirst hdistinct
    exact .inr ⟨_, ofTree_of_repeatsFirst hname, ofTree_of_repeatsFirst hname⟩

namespace Tree

/-- The comparison of trees is symmetric and transitive, and a tree is equal to itself exactly if
none of its constants is NaN. Equal trees have the same label and the same depth, and with any names
they are both accepted or both refused for the same reason. -/
theorem beq_partial_equivalence :
    (∀ tree tree' : Tree, (tree == tree') = (tree' == tree)) ∧
      (∀ tree tree' tree'' : Tree,
        (tree == tree') = true → (tree' == tree'') = true → (tree == tree'') = true) ∧
      (∀ tree : Tree,
        (tree == tree) = true ↔ ∀ value ∈ tree.constants, value.isNaN = false) ∧
      ∀ tree tree' : Tree, (tree == tree') = true →
        tree.label = tree'.label ∧ tree.depth = tree'.depth ∧
          ∀ names,
            (∃ e e', Expression.ofTree tree names = .ok e ∧
              Expression.ofTree tree' names = .ok e') ∨
            ∃ fault, Expression.ofTree tree names = .error fault ∧
              Expression.ofTree tree' names = .error fault := by
  refine ⟨?_, ?_, ?_, ?_⟩
  · intro tree tree'
    exact Bool.eq_iff_iff.mpr ⟨beq_symm, beq_symm⟩
  · intro tree tree' tree'' h h'
    exact beq_trans h h'
  · intro tree
    exact beq_self_iff
  · intro tree tree' h
    refine ⟨label_eq_of_beq h, depth_eq_of_beq h, ?_⟩
    intro names
    exact Expression.ofTree_of_check_eq (check_eq_of_beq names h)

/-- Where zeros of both signs stand among the operands of a call, trees are equal and refused for the
same parameter, and a NaN below two calls makes a tree differ from itself. -/
theorem calls_partial_equivalence :
    let call (value : Float) : Tree := .other "max" [.other "abs" [.constant value], .parameter 0]
    let difference (value : Float) : Tree :=
      .binary .subtract (.parameter 2) (.binary .add (.constant value) (call value))
    (difference (-0.0) == difference 0.0) = true ∧
      (difference (-0.0)).depth = (difference 0.0).depth ∧
      Expression.ofTree (difference 0.0) ["x"] = .error (.invalidParameterIndex 2 1) ∧
      Expression.ofTree (difference (-0.0)) ["x"] = .error (.invalidParameterIndex 2 1) ∧
      (difference (0.0 / 0.0) == difference (0.0 / 0.0)) ≠ true := by
  intro call difference
  obtain ⟨hsymm, -, hself, hcommon⟩ := beq_partial_equivalence
  have hzeros : (difference 0.0 == difference (-0.0)) = true := by decide
  have hrefused : Expression.ofTree (difference 0.0) ["x"] = .error (.invalidParameterIndex 2 1) :=
    rfl
  obtain ⟨-, hdepth, hoften⟩ := hcommon _ _ hzeros
  refine ⟨(hsymm _ _).trans hzeros, hdepth.symm, hrefused, ?_, ?_⟩
  · obtain ⟨e, -, he, -⟩ | ⟨fault, hfault, hfault'⟩ := hoften ["x"]
    · cases he.symm.trans hrefused
    · rw [hfault', ← hfault, hrefused]
  · intro h
    have hnan := (hself _).mp h (0.0 / 0.0) (by simp [difference, constants])
    exact absurd hnan (by decide)

end Tree

end Formula
