import Formula.Proofs.Agreement
import Formula.Proofs.Validation

/-!
# Unused parameters

An expression can have parameters that its tree does not mention. Declaring more of them changes the
number of arguments and nothing else: every walk over the tree goes as before, so that it is
rendered and compiled as before, and the arguments that no leaf stands for do not count.

## Main definitions

- `Tree.indices`: the indices of the parameters in a tree

## Main statements

- `Tree.IsOver.walk_append`: a walk over a tree does not see further names
- `Tree.value_congr`: the value of a tree depends on the parameters in it alone
- `Expression.unused_parameters_without_influence`: what stays the same where parameters are added
-/

namespace Formula

namespace Tree

/-- The indices of the parameters among the leaves that a walk reaches, from left to right. -/
def indices : Tree → List UInt32
  | .constant _ => []
  | .parameter index => [index]
  | .binary _ left right => left.indices ++ right.indices
  | .other _ _ => []

variable {tree : Tree}

/-- A walk does not see names that are declared behind those that the tree needs. -/
theorem IsOver.walk_append {m : Type → Type} {α : Type} [Monad m] {names : List String}
    (h : tree.IsOver names.length) (w : Walker m α) (extra : List String) :
    tree.walk w (names ++ extra) = tree.walk w names := by
  generalize hcount : names.length = count at h
  induction h with
  | constant value => rfl
  | @parameter index hindex =>
    subst hcount
    have hmore : index.toNat < (names ++ extra).length := by
      rw [List.length_append]
      omega
    rw [walk_parameter_of_lt w hmore, walk_parameter_of_lt w hindex,
      List.getElem_append_left hindex]
  | binary op _ _ ihl ihr => rw [walk_binary, walk_binary, ihl, ihr]

/-- Parameters that a tree does not mention do not count for its value. -/
theorem value_congr [Arithmetic] {parameters parameters' : UInt32 → Float} :
    ∀ {tree : Tree}, (∀ index ∈ tree.indices, parameters index = parameters' index) →
      tree.value parameters = tree.value parameters'
  | .constant value, _ => rfl
  | .parameter index, h => h index List.mem_cons_self
  | .binary op left right, h => by
    have hleft : left.value parameters = left.value parameters' := by
      apply value_congr
      intro index hindex
      exact h index (List.mem_append_left _ hindex)
    have hright : right.value parameters = right.value parameters' := by
      apply value_congr
      intro index hindex
      exact h index (List.mem_append_right _ hindex)
    rw [value, value, hleft, hright]
  | .other kind operands, _ => rfl

end Tree

namespace Expression

/-- The same tree over more parameters. -/
theorem exists_ofTree_append (e : Expression) {extra : List String}
    (hdistinct : (e.params ++ extra).Nodup) :
    ∃ e', ofTree e.root (e.params ++ extra) = .ok e' ∧ e'.root = e.root ∧
      e'.params = e.params ++ extra := by
  have hover : e.root.IsOver (e.params ++ extra).length := by
    apply e.root_isOver.mono
    rw [arity, List.length_append]
    omega
  obtain ⟨e', he'⟩ := exists_ofTree hdistinct (Tree.check_eq_ok_iff.mpr hover)
  exact ⟨e', he', ofTree_eq_ok_iff.mp he'⟩

section Influence

variable [Arithmetic]

/-- An expression and its program come to the value of the tree. -/
theorem evaluate_and_execute (e : Expression) {args : List Float} (h : args.length = e.arity) :
    e.evaluate args = .ok (e.root.value (argument args)) ∧
      (e.program.execute args).result = .ok (e.root.value (argument args)) := by
  have hvalue := e.evaluate_of_length_eq h
  exact ⟨hvalue, (e.result_execute_program args).trans hvalue⟩

/-- Declaring further parameters of new names gives an expression again. It is rendered alike and
compiled to the same instructions, which take the same room. Before and after, evaluating and
executing come to the same value for any two lists of arguments that agree where the tree mentions a
parameter. -/
theorem unused_parameters_without_influence (e : Expression) (extra : List String)
    (hdistinct : (e.params ++ extra).Nodup) :
    ∃ e' text p p', ofTree e.root (e.params ++ extra) = .ok e' ∧
      e.render = .ok text ∧ e'.render = .ok text ∧
      e.compile.result = .ok p ∧ e'.compile.result = .ok p' ∧
      p'.instructions = p.instructions ∧ p'.maxDepth = p.maxDepth ∧
      ∀ f ∈ [(e, p), (e', p')], ∀ g ∈ [(e, p), (e', p')], ∀ args args' : List Float,
        args.length = f.1.arity → args'.length = g.1.arity →
        (∀ index ∈ e.root.indices, args[index.toNat]? = args'[index.toNat]?) →
        ∃ value, f.1.evaluate args = .ok value ∧ (f.2.execute args).result = .ok value ∧
          g.1.evaluate args' = .ok value ∧ (g.2.execute args').result = .ok value := by
  obtain ⟨e', he', hroot, hparams⟩ := e.exists_ofTree_append hdistinct
  obtain ⟨text, htext⟩ := e.exists_render_eq_ok
  have hrender : e'.render = .ok text := by
    rw [← htext, render, render, hroot, hparams, Tree.render, Tree.render,
      e.root_isOver.walk_append]
  refine ⟨e', text, e.program, e'.program, he', htext, hrender, e.result_compile,
    e'.result_compile, congrArg Tree.postorder hroot, congrArg Tree.need hroot, ?_⟩
  -- both pairs are an expression over the one tree and its program
  have hpair : ∀ f ∈ [(e, e.program), (e', e'.program)],
      f.1.root = e.root ∧ f.2 = f.1.program := by
    intro f hf
    rcases List.mem_pair.mp hf with rfl | rfl
    · exact ⟨rfl, rfl⟩
    · exact ⟨hroot, rfl⟩
  intro f hf g hg args args' hargs hargs' hagree
  obtain ⟨hrootf, hprogramf⟩ := hpair f hf
  obtain ⟨hrootg, hprogramg⟩ := hpair g hg
  have hvalue : e.root.value (argument args) = e.root.value (argument args') := by
    apply Tree.value_congr
    intro index hindex
    rw [argument, argument, List.getD_eq_getElem?_getD, List.getD_eq_getElem?_getD,
      hagree index hindex]
  obtain ⟨hevaluate, hexecute⟩ := f.1.evaluate_and_execute hargs
  obtain ⟨hevaluate', hexecute'⟩ := g.1.evaluate_and_execute hargs'
  rw [hrootf] at hevaluate hexecute
  rw [hrootg, ← hvalue] at hevaluate' hexecute'
  rw [hprogramf, hprogramg]
  exact ⟨_, hevaluate, hexecute, hevaluate', hexecute'⟩

end Influence

/-- A difference does not depend on a parameter declared between its operands, nor on one that is
declared behind them. -/
theorem difference_unused_parameters :
    ∃ e : Expression, e.root = .binary .subtract (.parameter 0) (.parameter 2) ∧
      e.params = ["x", "y", "z"] ∧
    ∃ e' p p', ofTree e.root ["x", "y", "z", "w"] = .ok e' ∧
      e.render = .ok "sub(x, z)" ∧ e'.render = .ok "sub(x, z)" ∧
      e.compile.result = .ok p ∧ e'.compile.result = .ok p' ∧
      p'.instructions = p.instructions ∧ p'.maxDepth = p.maxDepth ∧
      ∃ value, e.evaluate [6.0, 3.0, 2.0] = .ok value ∧
        (p.execute [6.0, 3.0, 2.0]).result = .ok value ∧
        e'.evaluate [6.0, 5.0, 2.0, 1.0] = .ok value ∧
        (p'.execute [6.0, 5.0, 2.0, 1.0]).result = .ok value := by
  let e : Expression := {
    root := .binary .subtract (.parameter 0) (.parameter 2)
    params := ["x", "y", "z"]
    distinct := by decide
    checked := rfl }
  obtain ⟨e', text, p, p', he', htext, htext', hp, hp', hinstructions, hdepth, hvalue⟩ :=
    e.unused_parameters_without_influence ["w"] (by decide)
  have hrendered : e.render = .ok "sub(x, z)" := rfl
  obtain rfl : text = "sub(x, z)" := Except.ok.inj (htext.symm.trans hrendered)
  have harity : [6.0, 5.0, 2.0, 1.0].length = e'.arity := by
    rw [arity, (ofTree_eq_ok_iff.mp he').2]
    rfl
  have hagree : ∀ index ∈ e.root.indices,
      [6.0, 3.0, 2.0][index.toNat]? = [6.0, 5.0, 2.0, (1.0 : Float)][index.toNat]? := by
    intro index hindex
    have hmem : index ∈ [0, 2] := hindex
    rcases List.mem_pair.mp hmem with rfl | rfl
    · simp
    · simp
  exact ⟨e, rfl, rfl, e', p, p', he', htext, htext', hp, hp', hinstructions, hdepth,
    hvalue (e, p) (by simp) (e', p') (by simp) _ _ rfl harity hagree⟩

end Expression

end Formula
