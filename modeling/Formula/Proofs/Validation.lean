import Formula.Proofs.Compilation
import Formula.Proofs.Declaration
import Formula.Proofs.Evaluation
import Formula.Proofs.Replay

/-!
# Validation

A tree is no expression if a leaf that a walk reaches is of another kind or a parameter that is not
declared. Every walk ends at the leftmost such leaf, whatever its handlers do, so that the check
made beforehand spares all later walks a check of their own.

## Main definitions

- `Tree.leaves`: the leaves that a walk reaches, from left to right
- `Tree.objection?`: what is wrong with a leaf

## Main statements

- `Tree.value_trace`: a walk ends at the leftmost leaf to which there is an objection
- `Tree.walk_eq_error_iff`: with which fault a walk without effects ends
- `Expression.exists_walk_eq_ok`: no walk over an expression meets a fault
- `Expression.ofTree_exact_and_sufficient`: what is accepted, what is refused and for which reason,
  and what cannot fail afterwards
-/

namespace Formula

namespace Tree

/-- The leaves of a tree from left to right. A node of another kind counts as a leaf, whatever its
operands. -/
def leaves : Tree → List Tree
  | .binary _ left right => left.leaves ++ right.leaves
  | leaf => [leaf]

/-- Why no function of `count` parameters has the leaf, if it cannot have it. -/
def objection? (count : Nat) : Tree → Option Fault
  | .parameter index =>
    if index.toNat < count then none else some (.invalidParameterIndex index count)
  | .other kind _ => some (.unsupportedNodeKind kind)
  | _ => none

/-! ### How a walk ends -/

variable {names : List String} {tree : Tree} {fault : Fault}

/-- A walk ends at the leftmost leaf to which there is an objection. -/
theorem value_trace : ∀ tree : Tree,
    (tree.trace names).value =
      (tree.leaves.findSome? (objection? names.length)).elim (.ok ()) .error
  | .constant value => rfl
  | .parameter index => by
    change _ = ([parameter index].findSome? (objection? names.length)).elim _ _
    rw [List.findSome?_singleton, objection?]
    by_cases hindex : index.toNat < names.length
    · rw [trace_parameter_of_lt hindex, if_pos hindex]
      rfl
    · rw [trace_parameter_of_le (Nat.le_of_not_lt hindex), if_neg hindex]
      rfl
  | .binary op left right => by
    rw [value_trace_binary, leaves, List.findSome?_append, value_trace left, value_trace right]
    cases left.leaves.findSome? (objection? names.length) <;> rfl
  | .other kind operands => rfl

theorem value_trace_eq_error_iff :
    (tree.trace names).value = .error fault ↔
      tree.leaves.findSome? (objection? names.length) = some fault := by
  rw [value_trace]
  cases tree.leaves.findSome? (objection? names.length) <;> simp

theorem value_trace_eq_ok_iff :
    (tree.trace names).value = .ok () ↔
      ∀ leaf ∈ tree.leaves, leaf.objection? names.length = none := by
  rw [value_trace, ← List.findSome?_eq_none_iff]
  cases tree.leaves.findSome? (objection? names.length) <;> simp

theorem check_eq_value_trace : tree.check names = (tree.trace names).value := by
  cases htrace : (tree.trace names).value with
  | ok =>
    obtain ⟨result, hwalk, -⟩ := exists_replay_of_trace_ok Walker.idle htrace
    exact hwalk
  | error fault =>
    obtain ⟨results, hwalk, -⟩ := exists_replay_of_trace_error Walker.idle htrace
    exact hwalk

/-- A walk whose handlers have no effects fails with the objection to the leftmost bad leaf. -/
theorem walk_eq_error_iff {α : Type} (w : Walker Id α) :
    (tree.walk w names).run = .error fault ↔
      tree.leaves.findSome? (objection? names.length) = some fault := by
  rw [← value_trace_eq_error_iff]
  cases htrace : (tree.trace names).value with
  | ok =>
    obtain ⟨result, hwalk, -⟩ := exists_replay_of_trace_ok w htrace
    rw [hwalk]
    change Except.ok _ = Except.error fault ↔ _
    simp
  | error other =>
    obtain ⟨results, hwalk, -⟩ := exists_replay_of_trace_error w htrace
    rw [hwalk]
    change Except.error other = Except.error fault ↔ _
    simp

theorem render_eq_error_iff :
    tree.render names = .error fault ↔
      tree.leaves.findSome? (objection? names.length) = some fault :=
  walk_eq_error_iff Walker.renderer

end Tree

namespace Expression

variable {root : Tree} {names : List String}

/-! ### What is accepted -/

theorem ofTree_of_repeatsFirst {name : String} (h : RepeatsFirst name names) :
    ofTree root names = .error (.duplicateParameter name) := by
  have hrepeat := firstRepeat?_eq_some_iff.mpr h
  unfold ofTree
  split
  · next other hother => rw [Option.some_inj.mp (hother.symm.trans hrepeat)]
  · next hnone => cases hnone.symm.trans hrepeat

theorem ofTree_of_check_error {fault : Fault} (hdistinct : names.Nodup)
    (hcheck : root.check names = .error fault) : ofTree root names = .error fault := by
  have hnone := firstRepeat?_eq_none_iff.mpr hdistinct
  unfold ofTree
  split
  · next name hname => cases hname.symm.trans hnone
  · split
    · next other hother => rw [Except.error.inj (hother.symm.trans hcheck)]
    · next hok => cases hok.symm.trans hcheck

/-- With distinct names a tree is refused for the objection to its leftmost bad leaf. -/
theorem ofTree_eq_error_iff {fault : Fault} (hdistinct : names.Nodup) :
    ofTree root names = .error fault ↔
      root.leaves.findSome? (Tree.objection? names.length) = some fault := by
  rw [← Tree.value_trace_eq_error_iff, ← Tree.check_eq_value_trace]
  refine ⟨fun hrefused => ?_, ofTree_of_check_error hdistinct⟩
  cases hcheck : root.check names with
  | ok =>
    obtain ⟨e, he⟩ := exists_ofTree hdistinct hcheck
    cases he.symm.trans hrefused
  | error other =>
    have hother := (ofTree_of_check_error hdistinct hcheck).symm.trans hrefused
    rw [Except.error.inj hother]

theorem exists_ofTree_iff :
    (∃ e, ofTree root names = .ok e) ↔
      names.Nodup ∧ ∀ leaf ∈ root.leaves, leaf.objection? names.length = none := by
  rw [← Tree.value_trace_eq_ok_iff, ← Tree.check_eq_value_trace]
  constructor
  · rintro ⟨e, he⟩
    obtain ⟨rfl, rfl⟩ := ofTree_eq_ok_iff.mp he
    exact ⟨e.distinct, e.checked⟩
  · rintro ⟨hdistinct, hcheck⟩
    exact exists_ofTree hdistinct hcheck

/-! ### What cannot fail afterwards -/

/-- No walk over an expression meets a fault, whatever its handlers do. -/
theorem exists_walk_eq_ok {m : Type → Type} {α : Type} [Monad m] [LawfulMonad m]
    (e : Expression) (w : Walker m α) :
    ∃ result : m α, (e.root.walk w e.params).run = Except.ok <$> result := by
  have htrace := Tree.check_eq_value_trace.symm.trans e.checked
  obtain ⟨result, hwalk, -⟩ := Tree.exists_replay_of_trace_ok w htrace
  exact ⟨result, hwalk⟩

theorem exists_render_eq_ok (e : Expression) : ∃ text, e.render = .ok text :=
  e.exists_walk_eq_ok Walker.renderer

/-- Names and a tree make an expression exactly if the names are distinct and there is no objection
to a leaf. Names that repeat are found first, by a builder as well, and it is the one whose second
occurrence comes first that is reported; otherwise the objection to the leftmost bad leaf is, by a
rendering of the bare tree as well. An expression can be walked over, rendered, compiled and
evaluated without a further fault. -/
theorem ofTree_exact_and_sufficient [Arithmetic] (root : Tree) (names : List String) :
    ((∃ e, ofTree root names = .ok e) ↔
        names.Nodup ∧ ∀ leaf ∈ root.leaves, leaf.objection? names.length = none) ∧
      ((∃ b, Builder.declaring names = .ok b) ↔ names.Nodup) ∧
      (¬ names.Nodup → ∃ name, RepeatsFirst name names ∧
        (∀ other, RepeatsFirst other names → other = name) ∧
        ofTree root names = .error (.duplicateParameter name) ∧
        Builder.declaring names = .error (.duplicateParameter name)) ∧
      (names.Nodup → ∀ fault,
        (ofTree root names = .error fault ↔
          root.leaves.findSome? (Tree.objection? names.length) = some fault) ∧
        (root.render names = .error fault ↔
          root.leaves.findSome? (Tree.objection? names.length) = some fault)) ∧
      ∀ e, ofTree root names = .ok e →
        (∀ (m : Type → Type) [Monad m] [LawfulMonad m] (α : Type) (w : Walker m α),
          ∃ result : m α, (e.root.walk w e.params).run = Except.ok <$> result) ∧
        (∃ text, e.render = .ok text) ∧ (∃ p, e.compile.result = .ok p) ∧
        ∀ args : List Float, args.length = e.arity → ∃ value, e.evaluate args = .ok value := by
  refine ⟨exists_ofTree_iff, ⟨?_, ?_⟩, fun hrepeats => ?_, fun hdistinct fault => ?_, ?_⟩
  · rintro ⟨b, hb⟩
    obtain ⟨hconsistent, rfl⟩ := Builder.consistent_of_declaring hb
    exact hconsistent.distinct
  · intro hdistinct
    obtain ⟨b, hb, -⟩ := Builder.declaring_of_nodup hdistinct
    exact ⟨b, hb⟩
  · obtain ⟨name, hname⟩ := exists_repeatsFirst hrepeats
    refine ⟨name, hname, fun other hother => ?_, ofTree_of_repeatsFirst hname,
      Builder.declaring_of_repeatsFirst hname⟩
    -- both are what the search for a repetition finds
    have hsame := firstRepeat?_eq_some_iff.mpr hother
    rw [firstRepeat?_eq_some_iff.mpr hname] at hsame
    exact (Option.some_inj.mp hsame).symm
  · exact ⟨ofTree_eq_error_iff hdistinct, Tree.render_eq_error_iff⟩
  · intro e _
    refine ⟨fun m _ _ α w => e.exists_walk_eq_ok w, e.exists_render_eq_ok,
      ⟨e.program, e.result_compile⟩, fun args hlength => ?_⟩
    exact ⟨_, e.evaluate_of_length_eq hlength⟩

/-- Where two names repeat, the one that repeats first is reported; where none does, the first of two
bad leaves is; and a difference of a parameter and a constant is accepted and cannot fail. -/
theorem difference_validated [Arithmetic] :
    let bad : Tree := .binary .add (.other "negate" [.parameter 7]) (.parameter 3)
    let good : Tree := .binary .subtract (.parameter 1) (.constant 2.0)
    (ofTree bad ["x", "y", "x", "y"] = .error (.duplicateParameter "x") ∧
        Builder.declaring ["x", "y", "x", "y"] = .error (.duplicateParameter "x")) ∧
      (ofTree bad ["x"] = .error (.unsupportedNodeKind "negate") ∧
        bad.render ["x"] = .error (.unsupportedNodeKind "negate")) ∧
      ∃ e, ofTree good ["x", "y"] = .ok e ∧
        (∃ result, (e.root.walk Walker.recorder e.params).run = Except.ok <$> result) ∧
        (∃ text, e.render = .ok text) ∧ (∃ p, e.compile.result = .ok p) ∧
        ∃ value, e.evaluate [1.0, 3.0] = .ok value := by
  intro bad good
  have hfirst : RepeatsFirst "x" ["x", "y", "x", "y"] :=
    ⟨["x", "y"], ["y"], rfl, by decide, by decide⟩
  obtain ⟨-, -, hrepeats, -⟩ := ofTree_exact_and_sufficient bad ["x", "y", "x", "y"]
  obtain ⟨name, -, hunique, hrefused, hdeclaring⟩ := hrepeats (by decide)
  obtain rfl := hunique "x" hfirst
  obtain ⟨-, -, -, hleaves, -⟩ := ofTree_exact_and_sufficient bad ["x"]
  obtain ⟨hmade, hrendered⟩ := hleaves (by decide) (.unsupportedNodeKind "negate")
  obtain ⟨haccepted, -, -, -, hsuffices⟩ := ofTree_exact_and_sufficient good ["x", "y"]
  obtain ⟨e, he⟩ := haccepted.mpr ⟨by decide, by decide⟩
  obtain ⟨hwalk, hrender, hcompile, hevaluate⟩ := hsuffices e he
  have hparams : e.params = ["x", "y"] := (ofTree_eq_ok_iff.mp he).2
  have harity : [1.0, 3.0].length = e.arity := by rw [arity, hparams]; rfl
  exact ⟨⟨hrefused, hdeclaring⟩, ⟨hmade.mpr rfl, hrendered.mpr rfl⟩, e, he, hwalk _ _ _, hrender,
    hcompile, hevaluate _ harity⟩

end Expression

end Formula
