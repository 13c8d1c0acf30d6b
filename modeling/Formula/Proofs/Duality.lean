import Formula.Algebra
import Formula.Proofs.Agreement
import Formula.Proofs.Comparison

/-!
# The laws of a function and its dual

If the two parameters of an expression are exchanged in its tree, its function gets its arguments in
the other order. What is grouped to the left for the one function is grouped to the right for the
other, so both satisfy the same laws as far as values are compared symmetrically. No property of the
operators is needed for this.

## Main definitions

- `Tree.rename`: the tree with other indices
- `Tree.dual`: the tree with its first two parameters exchanged
- `Expression.function`: the function of an expression of two parameters

## Main statements

- `agree_comm`, `agree_self`: agreement is symmetric and reflexive
- `Tree.value_dual`: the dual tree has the value for the exchanged arguments
- `Expression.laws_of_dual`: the laws of a function and of its dual
-/

namespace Formula

/-! ### Agreement -/

theorem agree_comm (x y : Float) : agree x y = agree y x := by
  rw [agree, agree, Number.beq_comm, Bool.and_comm]

/-- Every double agrees with itself, NaN too, which is not equal to itself. -/
theorem agree_self (x : Float) : agree x x = true := by
  rw [agree, Bool.or_eq_true]
  cases hnan : x.isNaN with
  | false => exact .inl (Number.beq_self_iff.mpr hnan)
  | true => exact .inr rfl

section Laws

variable {f : Float → Float → Except Failure Float} {g : Float → Float → Float}

theorem commutesAt_eq_ok (h : ∀ a b, f a b = .ok (g a b)) (a b : Float) :
    commutesAt f a b = .ok (agree (g a b) (g b a)) := by
  rw [commutesAt, h, h]
  rfl

theorem associatesAt_eq_ok (h : ∀ a b, f a b = .ok (g a b)) (a b c : Float) :
    associatesAt f a b c = .ok (agree (g (g a b) c) (g a (g b c))) := by
  simp only [associatesAt, h, ok_bind]
  rfl

end Laws

/-! ### Dual trees -/

namespace Tree

mutual

/-- The tree with an index given by `f` in the place of each index, wherever it occurs. -/
def rename (f : UInt32 → UInt32) : Tree → Tree
  | .constant value => .constant value
  | .parameter index => .parameter (f index)
  | .binary op left right => .binary op (left.rename f) (right.rename f)
  | .other kind operands => .other kind (renameAll f operands)

/-- The trees with an index given by `f` in the place of each index. -/
def renameAll (f : UInt32 → UInt32) : List Tree → List Tree
  | [] => []
  | tree :: trees => tree.rename f :: renameAll f trees

end

/-- The other one of the first two indices, and any further index itself. -/
def exchanged (index : UInt32) : UInt32 :=
  if index = 0 then 1 else if index = 1 then 0 else index

/-- The tree with its first two parameters exchanged. -/
def dual (tree : Tree) : Tree :=
  tree.rename exchanged

variable {n count : Nat} {tree : Tree} {f : UInt32 → UInt32}

theorem IsOver.rename (h : tree.IsOver n)
    (hf : ∀ index : UInt32, index.toNat < n → (f index).toNat < count) :
    (tree.rename f).IsOver count := by
  induction h with
  | constant value => exact .constant value
  | parameter hindex => exact .parameter (hf _ hindex)
  | binary op _ _ ihl ihr => exact .binary op ihl ihr

theorem toNat_exchanged_lt {index : UInt32} (h : index.toNat < 2) :
    (exchanged index).toNat < 2 := by
  rw [exchanged]
  split
  · decide
  · split
    · decide
    · exact h

/-- Exchanging parameters makes no use of further ones. -/
theorem IsOver.dual (h : tree.IsOver 2) : tree.dual.IsOver 2 :=
  h.rename fun _ => toNat_exchanged_lt

theorem argument_exchanged (a b : Float) :
    (fun index => argument [a, b] (exchanged index)) = argument [b, a] := by
  funext index
  rw [exchanged]
  by_cases hzero : index = 0
  · rw [if_pos hzero, hzero]
    rfl
  by_cases hone : index = 1
  · rw [if_neg hzero, if_pos hone, hone]
    rfl
  rw [if_neg hzero, if_neg hone]
  -- there is no argument beyond the first two, in whatever order they are
  have hne : index.toNat ≠ 0 := fun h => hzero (UInt32.toNat_inj.mp h)
  have hne' : index.toNat ≠ 1 := fun h => hone (UInt32.toNat_inj.mp h)
  have hlarge (x y : Float) : argument [x, y] index = 0 :=
    List.getD_eq_default _ _ (show 2 ≤ index.toNat by omega)
  rw [hlarge, hlarge]

section Values

variable [Arithmetic]

/-- The value of a renamed tree is that for the parameters found under the new indices. -/
theorem value_rename (parameters : UInt32 → Float) (tree : Tree) :
    (tree.rename f).value parameters = tree.value fun index => parameters (f index) := by
  cases tree with
  | constant value => rfl
  | parameter index => rfl
  | binary op left right =>
    rw [Tree.rename, value, value_rename parameters left, value_rename parameters right, value]
  | other kind operands => rfl

theorem value_dual (tree : Tree) (a b : Float) :
    tree.dual.value (argument [a, b]) = tree.value (argument [b, a]) := by
  rw [dual, value_rename, argument_exchanged]

end Values

end Tree

namespace Expression

section Laws

variable [Arithmetic]

/-- The function of an expression of two parameters. -/
def function (e : Expression) (a b : Float) : Except Failure Float :=
  e.evaluate [a, b]

theorem function_eq_ok {e : Expression} (harity : e.arity = 2) (a b : Float) :
    e.function a b = .ok (e.root.value (argument [a, b])) :=
  e.evaluate_of_length_eq harity.symm

/-- The dual tree of an expression of two parameters is one as well. Where the function of the one
associates, that of the other does with the operands in reverse order. Each of them commutes at two
operands in either order if the other does, and at an operand and itself in any case. -/
theorem laws_of_dual (e : Expression) (harity : e.arity = 2) :
    ∃ e', ofTree e.root.dual e.params = .ok e' ∧ ∀ a b c : Float,
      (∃ associates, associatesAt e.function a b c = .ok associates ∧
        associatesAt e'.function c b a = .ok associates) ∧
      (∃ commutes, commutesAt e.function a b = .ok commutes ∧
        commutesAt e.function b a = .ok commutes ∧
        commutesAt e'.function a b = .ok commutes) ∧
      commutesAt e.function a a = .ok true := by
  have hover : e.root.IsOver 2 := harity ▸ e.root_isOver
  obtain ⟨e', he', hroot, harity'⟩ := hover.dual.exists_expression e.distinct harity
  refine ⟨e', he', ?_⟩
  let value (a b : Float) : Float := e.root.value (argument [a, b])
  have hfunction : ∀ a b, e.function a b = .ok (value a b) := function_eq_ok harity
  have hdual : ∀ a b, e'.function a b = .ok (value b a) := by
    intro a b
    rw [function_eq_ok harity', hroot, Tree.value_dual]
  intro a b c
  refine ⟨⟨_, associatesAt_eq_ok hfunction a b c, ?_⟩,
    ⟨_, commutesAt_eq_ok hfunction a b, ?_, ?_⟩, ?_⟩
  · rw [associatesAt_eq_ok hdual, agree_comm]
  · rw [commutesAt_eq_ok hfunction, agree_comm]
  · rw [commutesAt_eq_ok hdual, agree_comm]
  · rw [commutesAt_eq_ok hfunction, agree_self]

end Laws

/-- A quotient by a product and its dual, at operands among which there are NaN and an infinity. -/
theorem quotient_laws_of_dual :
    ∃ e : Expression, e.root = .binary .divide (.parameter 1)
        (.binary .multiply (.parameter 0) (.parameter 1)) ∧ e.arity = 2 ∧
      ∃ e' : Expression, e'.root = .binary .divide (.parameter 0)
          (.binary .multiply (.parameter 1) (.parameter 0)) ∧
        (∃ associates, associatesAt e.function (0.0 / 0.0) (1.0 / 0.0) (-0.0) = .ok associates ∧
          associatesAt e'.function (-0.0) (1.0 / 0.0) (0.0 / 0.0) = .ok associates) ∧
        commutesAt e.function (0.0 / 0.0) (0.0 / 0.0) = .ok true := by
  let e : Expression := {
    root := .binary .divide (.parameter 1) (.binary .multiply (.parameter 0) (.parameter 1))
    params := ["x", "y"]
    distinct := by decide
    checked := rfl }
  obtain ⟨e', he', hlaws⟩ := e.laws_of_dual rfl
  obtain ⟨hassociates, -, hcommutes⟩ := hlaws (0.0 / 0.0) (1.0 / 0.0) (-0.0)
  exact ⟨e, rfl, rfl, e', (ofTree_eq_ok_iff.mp he').1, hassociates, hcommutes⟩

end Expression

end Formula
