import Formula.Builder
import Mathlib.Data.List.Basic

/-!
# Declaring parameters

A list of parameter names is checked for repetitions in two ways: before an expression is made, and
one name after the other by the table of a builder. Both find the name whose second occurrence comes
first. The table does because it agrees with the list of names, which every new name preserves.

## Main definitions

- `RepeatsFirst`: the name whose second occurrence in a list comes first
- `Builder.Consistent`: the table of a builder has the position of each name of its list

## Main statements

- `firstRepeat?_eq_some_iff`: which name is found to be repeated
- `Builder.Consistent.exists_run_parameter`: what the mention of a name comes to
- `Builder.declaring_of_nodup`, `Builder.declaring_of_repeatsFirst`: what declaring names comes to
-/

namespace Formula

/-! ### Repeated names -/

/-- The second occurrence of the name in the list comes before the second occurrence of any other
name. -/
def RepeatsFirst (name : String) (names : List String) : Prop :=
  ∃ before after, names = before ++ name :: after ∧ before.Nodup ∧ name ∈ before

theorem firstRepeatAfter?_eq_some_iff {name : String} {seen names : List String} :
    firstRepeatAfter? seen names = some name ↔
      ∃ before after, names = before ++ name :: after ∧ before.Nodup ∧
        (∀ earlier ∈ before, earlier ∉ seen) ∧ (name ∈ seen ∨ name ∈ before) := by
  induction names generalizing seen with
  | nil => simp [firstRepeatAfter?]
  | cons first rest ih =>
    by_cases hseen : first ∈ seen
    · rw [firstRepeatAfter?, if_pos hseen, Option.some_inj]
      constructor
      · rintro rfl
        exact ⟨[], rest, rfl, List.nodup_nil, by simp, .inl hseen⟩
      · rintro ⟨before, after, hnames, -, hbefore, -⟩
        cases before with
        | nil => exact (List.cons.inj hnames).1
        | cons earlier before =>
          obtain ⟨rfl, -⟩ := List.cons.inj hnames
          exact absurd hseen (hbefore first List.mem_cons_self)
    · rw [firstRepeatAfter?, if_neg hseen, ih]
      constructor
      · rintro ⟨before, after, rfl, hdistinct, hbefore, hname⟩
        have hfirst : first ∉ before := fun hmem => hbefore first hmem List.mem_cons_self
        refine ⟨first :: before, after, rfl, List.nodup_cons.mpr ⟨hfirst, hdistinct⟩, ?_, ?_⟩
        · grind
        · grind
      · rintro ⟨before, after, hnames, hdistinct, hbefore, hname⟩
        cases before with
        | nil =>
          obtain ⟨rfl, -⟩ := List.cons.inj hnames
          simp [hseen] at hname
        | cons earlier before =>
          obtain ⟨rfl, rfl⟩ := List.cons.inj hnames
          obtain ⟨hfirst, hdistinct⟩ := List.nodup_cons.mp hdistinct
          refine ⟨before, after, rfl, hdistinct, ?_, ?_⟩
          · grind
          · grind

theorem firstRepeat?_eq_some_iff {name : String} {names : List String} :
    firstRepeat? names = some name ↔ RepeatsFirst name names := by
  rw [firstRepeat?, firstRepeatAfter?_eq_some_iff]
  simp [RepeatsFirst]

theorem exists_repeatsFirst {names : List String} (h : ¬ names.Nodup) :
    ∃ name, RepeatsFirst name names := by
  rw [← firstRepeat?_eq_none_iff] at h
  obtain ⟨name, hname⟩ := Option.ne_none_iff_exists'.mp h
  exact ⟨name, firstRepeat?_eq_some_iff.mp hname⟩

/-! ### The table of a builder -/

namespace Builder

/-- No name is listed twice, and the table has the position of each listed name and of no other. -/
structure Consistent (b : Builder) : Prop where
  distinct : b.params.Nodup
  index?_of_mem : ∀ {name}, name ∈ b.params →
    b.index? name = some (UInt32.ofNat (b.params.idxOf name))
  index?_of_notMem : ∀ {name}, name ∉ b.params → b.index? name = none

theorem consistent_empty : Consistent {} where
  distinct := List.nodup_nil
  index?_of_mem h := absurd h List.not_mem_nil
  index?_of_notMem _ := rfl

variable {b : Builder} {name : String} {names : List String}

theorem index?_push_self : (b.push name).index? name = some b.nextIndex :=
  List.lookup_cons_self

theorem index?_push_of_ne {other : String} (h : other ≠ name) :
    (b.push name).index? other = b.index? other := by
  have hbeq : (other == name) = false := beq_eq_false_iff_ne.mpr h
  rw [index?, push, List.lookup_cons, hbeq]
  rfl

theorem Consistent.push (h : b.Consistent) (hnew : name ∉ b.params) :
    (b.push name).Consistent where
  distinct := by
    rw [Builder.push, List.nodup_append]
    exact ⟨h.distinct, by simp, by grind⟩
  index?_of_mem {other} hmem := by
    by_cases hother : other = name
    · subst hother
      rw [index?_push_self, Builder.push, List.idxOf_append_of_notMem hnew]
      simp [nextIndex]
    · have hold : other ∈ b.params := by simpa [Builder.push, hother] using hmem
      rw [index?_push_of_ne hother, h.index?_of_mem hold, Builder.push,
        List.idxOf_append_of_mem hold]
  index?_of_notMem {other} hmem := by
    have hparts : other ∉ b.params ∧ other ≠ name := by simpa [Builder.push] using hmem
    rw [index?_push_of_ne hparts.2, h.index?_of_notMem hparts.1]

theorem run_parameter_of_some {index : UInt32} (h : b.index? name = some index) :
    (parameter name).run b = (.parameter index, b) := by
  simp only [parameter, StateT.run_bind, StateT.run_get, pure_bind, h]
  rfl

theorem run_parameter_of_none (h : b.index? name = none) :
    (parameter name).run b = (.parameter b.nextIndex, b.push name) := by
  simp only [parameter, StateT.run_bind, StateT.run_get, pure_bind, h]
  rfl

/-- The mention of a name gives the leaf at its position and keeps the positions of all others. -/
theorem Consistent.exists_run_parameter (h : b.Consistent) (name : String) :
    ∃ after, (parameter name).run b =
        (.parameter (UInt32.ofNat (after.params.idxOf name)), after) ∧
      after.Consistent ∧ b.params <+: after.params ∧
      ∀ other, other ∈ after.params ↔ other = name ∨ other ∈ b.params := by
  by_cases hmem : name ∈ b.params
  · refine ⟨b, run_parameter_of_some (h.index?_of_mem hmem), h, List.prefix_refl _, ?_⟩
    grind
  · refine ⟨b.push name, ?_, h.push hmem, List.prefix_append _ _, ?_⟩
    · have hposition : (b.push name).params.idxOf name = b.params.length := by
        simp [Builder.push, List.idxOf_append_of_notMem hmem]
      rw [run_parameter_of_none (h.index?_of_notMem hmem), hposition, nextIndex]
    · grind [Builder.push]

/-! ### Declaring a list of names -/

theorem Consistent.declare_of_mem (h : b.Consistent) (hmem : name ∈ b.params) :
    b.declare name = .error (.duplicateParameter name) := by
  rw [declare, h.index?_of_mem hmem]

theorem Consistent.declare_of_notMem (h : b.Consistent) (hmem : name ∉ b.params) :
    b.declare name = .ok (b.push name) := by
  rw [declare, h.index?_of_notMem hmem, run_parameter_of_none (h.index?_of_notMem hmem)]

/-- Names that repeat neither each other nor declared ones are added to the declared ones. -/
theorem Consistent.foldlM_declare_of_nodup (h : b.Consistent)
    (hdistinct : (b.params ++ names).Nodup) :
    ∃ after, names.foldlM declare b = .ok after ∧ after.Consistent ∧
      after.params = b.params ++ names := by
  induction names generalizing b with
  | nil => exact ⟨b, rfl, h, (List.append_nil _).symm⟩
  | cons name names ih =>
    have hnew : name ∉ b.params := by grind [List.nodup_append]
    have hrest : ((b.push name).params ++ names).Nodup := by simpa [Builder.push] using hdistinct
    obtain ⟨after, hafter, hconsistent, hparams⟩ := ih (h.push hnew) hrest
    refine ⟨after, ?_, hconsistent, ?_⟩
    · rw [List.foldlM_cons, h.declare_of_notMem hnew, ok_bind, hafter]
    · rw [hparams, Builder.push, List.append_assoc, List.singleton_append]

theorem declaring_of_nodup (h : names.Nodup) :
    ∃ b, declaring names = .ok b ∧ b.Consistent ∧ b.params = names :=
  consistent_empty.foldlM_declare_of_nodup h

theorem declaring_of_repeatsFirst (h : RepeatsFirst name names) :
    declaring names = .error (.duplicateParameter name) := by
  obtain ⟨before, after, rfl, hdistinct, hname⟩ := h
  obtain ⟨b, hbefore, hconsistent, hparams⟩ := declaring_of_nodup hdistinct
  rw [declaring] at hbefore ⊢
  -- the names before the second occurrence are declared when it is come to
  rw [List.foldlM_append, hbefore, ok_bind, List.foldlM_cons,
    hconsistent.declare_of_mem (hparams ▸ hname), error_bind]

theorem consistent_of_declaring (h : declaring names = .ok b) :
    b.Consistent ∧ b.params = names := by
  by_cases hdistinct : names.Nodup
  · obtain ⟨declared, hdeclared, hconsistent, hparams⟩ := declaring_of_nodup hdistinct
    cases h.symm.trans hdeclared
    exact ⟨hconsistent, hparams⟩
  · obtain ⟨name, hname⟩ := exists_repeatsFirst hdistinct
    cases h.symm.trans (declaring_of_repeatsFirst hname)

end Builder

end Formula
