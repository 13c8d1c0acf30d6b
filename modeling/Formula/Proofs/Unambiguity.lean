import Formula.Proofs.Naming
import Formula.Proofs.Spelling
import Formula.Proofs.Validation
import Formula.Sample
import Mathlib.Data.List.Nodup

/-!
# Renderings are unambiguous

A rendering sets parentheses and commas between labels: the texts of constants, the names of
parameters and the mnemonics of operators. Where no name contains such a character and none is the
text of a double, each label ends where the next of these characters stands, and that character
tells a leaf from an operator, even if a parameter is named as an operator is.

## Main definitions

- `PlainName`: a name that has no delimiter in it and is not the text of a double
- `Tree.text`: the characters of a rendering

## Main statements

- `Tree.IsOver.eq_of_text_append_eq`: a rendering is found again in front of what follows an operand
- `Expression.root_eq_of_render_eq`: expressions of one rendering have one tree
-/

namespace Formula

/-! ### Labels and delimiters -/

/-- The characters that stand between the labels of a rendering. -/
def isDelimiter (c : Char) : Bool :=
  c = '(' ∨ c = ')' ∨ c = ','

/-- A name that is one label and that no constant is rendered as. -/
structure PlainName (name : String) : Prop where
  undivided : ∀ c ∈ name.toList, isDelimiter c = false
  ne_compact : ∀ value, name ≠ Number.compact value

/-- What follows an operand: nothing, a comma or a closing parenthesis. -/
def FollowsOperand (rest : List Char) : Prop :=
  ∀ c ∈ rest.head?, c = ')' ∨ c = ','

theorem FollowsOperand.isDelimiter_head {rest : List Char} (h : FollowsOperand rest) :
    ∀ c ∈ rest.head?, isDelimiter c = true := by
  intro c hc
  rcases h c hc with rfl | rfl <;> decide

theorem not_followsOperand_open (rest : List Char) : ¬ FollowsOperand ('(' :: rest) := by
  intro h
  have hopen := h '(' rfl
  revert hopen
  decide

/-- Labels that are followed by delimiters end at the same place. -/
theorem label_eq_of_append_eq {label label' rest rest' : List Char}
    (hlabel : ∀ c ∈ label, isDelimiter c = false) (hlabel' : ∀ c ∈ label', isDelimiter c = false)
    (hrest : ∀ c ∈ rest.head?, isDelimiter c = true)
    (hrest' : ∀ c ∈ rest'.head?, isDelimiter c = true) (h : label ++ rest = label' ++ rest') :
    label = label' ∧ rest = rest' := by
  refine eq_of_span_append (p := fun c => !isDelimiter c) ?_ ?_ ?_ ?_ h
  · simpa using hlabel
  · simpa using hlabel'
  · simpa using hrest
  · simpa using hrest'

theorem isDelimiter_of_mem_compact {value : Float} :
    ∀ c ∈ (Number.compact value).toList, isDelimiter c = false := by
  intro c hc
  by_contra hdelimiter
  rw [Bool.not_eq_false, isDelimiter, decide_eq_true_iff] at hdelimiter
  have hchar := Number.isDigit_or_mem_of_mem_compact hc
  rcases hdelimiter with rfl | rfl | rfl <;> revert hchar <;> decide

namespace Operator

theorem isDelimiter_of_mem_mnemonic (op : Operator) :
    ∀ c ∈ op.mnemonic.toList, isDelimiter c = false := by
  have hnone : op.mnemonic.toList.any isDelimiter = false := by cases op <;> decide
  simpa only [List.any_eq_false, Bool.not_eq_true] using hnone

end Operator

/-! ### Trees -/

namespace Tree

/-- The characters of the rendering of a tree over the given names. -/
def text (names : List String) : Tree → List Char
  | constant value => (Number.compact value).toList
  | parameter index => (names.getD index.toNat "").toList
  | binary op left right =>
    op.mnemonic.toList ++ '(' :: (left.text names ++ ',' :: ' ' :: (right.text names ++ [')']))
  | other _ _ => []

/-- The label that a rendering begins with. -/
def rootText (names : List String) : Tree → List Char
  | binary op _ _ => op.mnemonic.toList
  | tree => tree.text names

/-- What follows the first label of a rendering. -/
def operandsText (names : List String) : Tree → List Char
  | binary _ left right => '(' :: (left.text names ++ ',' :: ' ' :: (right.text names ++ [')']))
  | _ => []

variable {names : List String} {rest rest' : List Char}

theorem text_eq_append (names : List String) (tree : Tree) :
    tree.text names = tree.rootText names ++ tree.operandsText names := by
  cases tree <;> simp [text, rootText, operandsText]

theorem operandsText_binary_append (op : Operator) (left right : Tree) (rest : List Char) :
    (binary op left right).operandsText names ++ rest =
      '(' :: (left.text names ++ ',' :: ' ' :: (right.text names ++ ')' :: rest)) := by
  simp [operandsText]

theorem IsOver.render_eq_ok {tree : Tree} (h : tree.IsOver names.length) :
    tree.render names = .ok (String.ofList (tree.text names)) := by
  induction h with
  | constant value => rw [text, String.ofList_toList]; rfl
  | @parameter index hindex =>
    have hget : names[index.toNat]? = some names[index.toNat] := List.getElem?_eq_getElem hindex
    rw [text, List.getD_eq_getElem?_getD, hget, Option.getD_some, String.ofList_toList, render,
      walk, hget]
    rfl
  | @binary op left right _ _ ihl ihr =>
    rw [render_binary, ihl, ok_bind, ihr, ok_bind]
    congr 1
    apply String.toList_injective
    simp [text, toString]

theorem IsOver.isDelimiter_of_mem_rootText {tree : Tree} (h : tree.IsOver names.length)
    (hplain : ∀ name ∈ names, PlainName name) :
    ∀ c ∈ tree.rootText names, isDelimiter c = false := by
  cases h with
  | constant value => exact isDelimiter_of_mem_compact
  | @parameter index hindex =>
    rw [rootText, text, List.getD_eq_getElem?_getD, List.getElem?_eq_getElem hindex]
    · exact (hplain _ (List.getElem_mem hindex)).undivided
    · rintro _ _ _ ⟨⟩
  | binary op => exact op.isDelimiter_of_mem_mnemonic

theorem isDelimiter_head_operandsText_append (tree : Tree) (hrest : FollowsOperand rest) :
    ∀ c ∈ (tree.operandsText names ++ rest).head?, isDelimiter c = true := by
  cases tree with
  | binary op left right =>
    rw [operandsText_binary_append]
    simp [isDelimiter]
  | _ => exact hrest.isDelimiter_head

/-- The first label of a rendering is found again in front of what follows. -/
theorem IsOver.rootText_eq_of_text_append_eq {tree tree' : Tree} (h : tree.IsOver names.length)
    (h' : tree'.IsOver names.length) (hplain : ∀ name ∈ names, PlainName name)
    (hrest : FollowsOperand rest) (hrest' : FollowsOperand rest')
    (htext : tree.text names ++ rest = tree'.text names ++ rest') :
    tree.rootText names = tree'.rootText names ∧
      tree.operandsText names ++ rest = tree'.operandsText names ++ rest' := by
  rw [text_eq_append, text_eq_append, List.append_assoc, List.append_assoc] at htext
  exact label_eq_of_append_eq (h.isDelimiter_of_mem_rootText hplain)
    (h'.isDelimiter_of_mem_rootText hplain) (tree.isDelimiter_head_operandsText_append hrest)
    (tree'.isDelimiter_head_operandsText_append hrest') htext

theorem rootText_parameter {index : UInt32} (hindex : index.toNat < names.length) :
    (parameter index).rootText names = names[index.toNat].toList := by
  have hget : names[index.toNat]? = some names[index.toNat] := List.getElem?_eq_getElem hindex
  change (names.getD index.toNat "").toList = _
  rw [List.getD_eq_getElem?_getD, hget, Option.getD_some]

theorem rootText_constant_ne_parameter {index : UInt32} (hplain : ∀ name ∈ names, PlainName name)
    (hindex : index.toNat < names.length) (value : Float) :
    (constant value).rootText names ≠ (parameter index).rootText names := by
  rw [rootText_parameter hindex]
  intro h
  have hname := hplain _ (List.getElem_mem hindex)
  exact hname.ne_compact value (String.toList_injective h).symm

theorem eq_of_rootText_parameter_eq {index index' : UInt32} (hdistinct : names.Nodup)
    (hindex : index.toNat < names.length) (hindex' : index'.toNat < names.length)
    (h : (parameter index).rootText names = (parameter index').rootText names) :
    index = index' := by
  rw [rootText_parameter hindex, rootText_parameter hindex'] at h
  have hname := String.toList_injective h
  exact UInt32.toNat_inj.mp (hdistinct.getElem_inj_iff.mp hname)

/-- A rendering is found again in front of what follows an operand: its tree and what follows are
told by the characters. -/
theorem IsOver.eq_of_text_append_eq {tree tree' : Tree} (h : tree.IsOver names.length)
    (h' : tree'.IsOver names.length) (hdistinct : names.Nodup)
    (hplain : ∀ name ∈ names, PlainName name) (hrest : FollowsOperand rest)
    (hrest' : FollowsOperand rest')
    (htext : tree.text names ++ rest = tree'.text names ++ rest') :
    tree = tree' ∧ rest = rest' := by
  induction h generalizing tree' rest rest' with
  | constant value =>
    obtain ⟨hroot, hafter⟩ := (IsOver.constant value).rootText_eq_of_text_append_eq h' hplain hrest
      hrest' htext
    cases h' with
    | constant value' =>
      obtain rfl : value = value' := Number.eq_of_compact_eq (String.toList_injective hroot)
      exact ⟨rfl, hafter⟩
    | parameter hindex' => exact absurd hroot (rootText_constant_ne_parameter hplain hindex' value)
    | binary op' =>
      -- what follows a leaf is no list of operands
      rw [operandsText_binary_append] at hafter
      subst hafter
      exact absurd hrest (not_followsOperand_open _)
  | parameter hindex =>
    obtain ⟨hroot, hafter⟩ := (IsOver.parameter hindex).rootText_eq_of_text_append_eq h' hplain
      hrest hrest' htext
    cases h' with
    | constant value' =>
      exact absurd hroot.symm (rootText_constant_ne_parameter hplain hindex value')
    | parameter hindex' =>
      obtain rfl := eq_of_rootText_parameter_eq hdistinct hindex hindex' hroot
      exact ⟨rfl, hafter⟩
    | binary op' =>
      rw [operandsText_binary_append] at hafter
      subst hafter
      exact absurd hrest (not_followsOperand_open _)
  | binary op hleft hright ihl ihr =>
    obtain ⟨hroot, hafter⟩ := (IsOver.binary op hleft hright).rootText_eq_of_text_append_eq h'
      hplain hrest hrest' htext
    rw [operandsText_binary_append] at hafter
    cases h' with
    | constant value' =>
      subst hafter
      exact absurd hrest' (not_followsOperand_open _)
    | parameter hindex' =>
      subst hafter
      exact absurd hrest' (not_followsOperand_open _)
    | binary op' hleft' hright' =>
      rw [operandsText_binary_append] at hafter
      obtain rfl : op = op' := Operator.mnemonic_injective (String.toList_injective hroot)
      have hcomma (rest : List Char) : FollowsOperand (',' :: rest) := by simp [FollowsOperand]
      have hclose (rest : List Char) : FollowsOperand (')' :: rest) := by simp [FollowsOperand]
      obtain ⟨rfl, hright⟩ := ihl hleft' (hcomma _) (hcomma _) (List.cons.inj hafter).2
      have hsecond := (List.cons.inj (List.cons.inj hright).2).2
      obtain ⟨rfl, hend⟩ := ihr hright' (hclose _) (hclose _) hsecond
      exact ⟨rfl, (List.cons.inj hend).2⟩

end Tree

/-! ### Expressions -/

theorem PlainName.of_head {name : String} {c : Char} {rest : List Char}
    (hname : name.toList = c :: rest) (hnone : name.toList.any isDelimiter = false)
    (hdigit : c.isDigit = false) (hhead : c ∉ ['.', 'i', '-', 'N']) : PlainName name where
  undivided := by simpa only [List.any_eq_false, Bool.not_eq_true] using hnone
  ne_compact value h := by
    rw [h] at hname
    rcases Number.head_compact hname with hdigit' | hmem
    · rw [hdigit] at hdigit'
      cases hdigit'
    · exact hhead hmem

theorem Sample.plainName_of_mem_params {sample : Sample} (h : sample ∈ all) {name : String}
    (hname : name ∈ sample.params) : PlainName name := by
  have hletter : name ∈ ["a", "b", "c", "d", "e", "x"] := by
    simp only [all, List.mem_cons, List.not_mem_nil, or_false] at h
    rcases h with rfl | rfl | rfl
    all_goals
      simp only [canonical, quadratic, division, List.mem_cons, List.not_mem_nil] at hname ⊢
      tauto
  simp only [List.mem_cons, List.not_mem_nil, or_false] at hletter
  rcases hletter with rfl | rfl | rfl | rfl | rfl | rfl <;>
    exact .of_head rfl (by decide) (by decide) (by decide)

namespace Expression

/-- The names of the samples' parameters are plain. Expressions of the same parameters, all of plain
names, that have the same rendering have the same tree: constants are the same if their bits are,
and there is one NaN. -/
theorem root_eq_of_render_eq :
    (∀ sample ∈ Sample.all, ∀ name ∈ sample.params, PlainName name) ∧
      ∀ e e' : Expression, e.params = e'.params → (∀ name ∈ e.params, PlainName name) →
        e.render = e'.render → e.root = e'.root := by
  refine ⟨fun sample hsample name => Sample.plainName_of_mem_params hsample, ?_⟩
  intro e e' hparams hplain hrender
  have hover' : e'.root.IsOver e.params.length := by
    rw [hparams]
    exact e'.root_isOver
  rw [render, render, ← hparams, e.root_isOver.render_eq_ok, hover'.render_eq_ok] at hrender
  have htext : e.root.text e.params = e'.root.text e.params :=
    String.ofList_injective (Except.ok.inj hrender)
  have hend : FollowsOperand [] := by simp [FollowsOperand]
  exact (e.root_isOver.eq_of_text_append_eq hover' e.distinct hplain hend hend
    (congrArg (· ++ []) htext)).1

/-- The tree of the sample of a quotient is read off its rendering. -/
theorem division_root_eq :
    ∃ e : Expression, Sample.division.expression.result = .ok e ∧ e.params = ["a", "b"] ∧
      e.render = .ok "div(a, b)" ∧
      e.root = .binary .divide (.parameter 0) (.parameter 1) := by
  obtain ⟨e, hbuilt, hparams, hrender⟩ : ∃ e : Expression,
      Sample.division.expression.result = .ok e ∧ e.params = ["a", "b"] ∧
        e.render = .ok "div(a, b)" := ⟨_, rfl, rfl, rfl⟩
  let quotient : Expression := {
    root := .binary .divide (.parameter 0) (.parameter 1)
    params := ["a", "b"]
    distinct := by decide
    checked := rfl }
  have hplain : ∀ name ∈ e.params, PlainName name := by
    rw [hparams]
    exact root_eq_of_render_eq.1 Sample.division (by simp [Sample.all])
  have hquotient : quotient.render = .ok "div(a, b)" := rfl
  exact ⟨e, hbuilt, hparams, hrender,
    root_eq_of_render_eq.2 e quotient hparams hplain (hrender.trans hquotient.symm)⟩

end Expression

end Formula
