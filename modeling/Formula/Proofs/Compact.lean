import Formula.Proofs.Significance

/-!
# The compact texts of doubles

The compact text of a double that is a number reads as that double and as no other. Of a finite
double it has the fewest significant digits, an exponent exactly outside a middle range, and at
most 24 characters.

## Main statements

- `Number.length_spell_le`: the text of a magnitude has at most 23 characters
- `Number.mem_compact_iff`: the doubles that are written with an exponent
- `Number.compact_reads_back_shortest`: all of this about the text of a double
-/

namespace Formula

namespace Decimal

variable {d : Decimal}

/-! ### The lengths of the two notations -/

theorem length_signedNumeral_le {i : ℤ} (hlower : -1000 < i) (hupper : i < 1000) :
    (signedNumeral i).length ≤ 4 := by
  have hnumeral : (numeral i.natAbs).length ≤ 3 :=
    (length_numeral_le_iff (by decide)).mpr (by omega)
  unfold signedNumeral
  split
  · exact Nat.succ_le_succ hnumeral
  · omega

/-- Apart from the digits there are a point, the letter and the exponent. -/
theorem length_scientific_le (d : Decimal) :
    d.scientific.length ≤
      (numeral d.digits).length + 2 + (signedNumeral d.leadingExponent).length := by
  unfold scientific
  split
  · next hnil => exact absurd hnil (numeral_ne_nil d.digits)
  · next c hone =>
    rw [hone, List.length_cons, List.length_cons, List.length_singleton]
    omega
  · next c rest _ hcons =>
    rw [hcons, List.length_cons, List.length_cons, List.length_append, List.length_cons,
      List.length_cons]
    omega

/-- Without a point there are as many digits as the leading exponent tells. -/
theorem length_positional_of_nonneg (h : 0 ≤ d.exponent) :
    (d.positional.length : ℤ) = d.leadingExponent + 1 := by
  simp only [positional, if_pos h, List.length_append, List.length_replicate, leadingExponent]
  omega

theorem length_positional_le (h : d.exponent < 0) :
    d.positional.length ≤ max ((numeral d.digits).length + 1) ((-d.exponent).toNat + 2) := by
  simp only [positional, if_neg (not_le.mpr h)]
  split
  · rw [List.length_append, List.length_take, List.length_cons, List.length_drop]
    omega
  · rw [List.length_cons, List.length_cons, List.length_append, List.length_replicate]
    omega

end Decimal

namespace Number

open Decimal
open Binary64 (infinity readsAs shortest)

variable {d : Decimal} {n : ℕ} {v : Float}

/-! ### The range written positionally -/

/-- The two powers of ten at the ends of the range. -/
theorem readsAs_powers :
    readsAs ⟨1, -5⟩ leastPositional = true ∧ readsAs ⟨1, 16⟩ leastLarge = true := by
  decide +kernel

theorem leastPositional_pos : 0 < leastPositional := by
  decide

/-- The leading digits of finite doubles. -/
theorem leadingExponent_bounds (hpos : 0 < n) (hlt : n < infinity) (h : readsAs d n = true) :
    -324 ≤ d.leadingExponent ∧ d.leadingExponent < 309 := by
  constructor
  · apply le_leadingExponent
    exact Binary64.power_lt_of_reaches (Binary64.reaches_of_readsAs h) hpos
  · apply leadingExponent_lt (Binary64.digits_ne_zero_of_readsAs h hpos)
    exact Binary64.value_lt_power_of_readsAs h hlt

theorem leadingExponent_lt_of_lt_leastLarge (hpos : 0 < n) (hlt : n < leastLarge)
    (h : readsAs d n = true) : d.leadingExponent < 16 := by
  apply leadingExponent_lt (Binary64.digits_ne_zero_of_readsAs h hpos)
  rw [← value_power]
  exact Binary64.value_lt_of_readsAs h (Binary64.reaches_of_readsAs readsAs_powers.2) hlt

/-- From `1e-5` on there are few places behind the point. -/
theorem exponent_shortest_of_leastPositional_le (h : leastPositional ≤ n) :
    -21 ≤ (shortest n).exponent := by
  have hpos : 0 < n := leastPositional_pos.trans_le h
  rcases h.eq_or_lt with rfl | hlt
  · have hexponent := Binary64.le_exponent_shortest hpos readsAs_powers.1
    omega
  · have hlength := Binary64.length_numeral_shortest hpos
    have hreaches := Binary64.reaches_of_readsAs (Binary64.readsAs_shortest hpos)
    have hexponent : -5 ≤ (shortest n).leadingExponent := by
      apply le_leadingExponent
      rw [← value_power]
      exact Binary64.value_lt_of_readsAs readsAs_powers.1 hreaches hlt
    rw [leadingExponent] at hexponent
    omega

/-! ### The length of a text -/

theorem length_positional_shortest_le (hlower : leastPositional ≤ n) (hupper : n < leastLarge) :
    (shortest n).positional.length ≤ 23 := by
  have hpos : 0 < n := leastPositional_pos.trans_le hlower
  rcases le_or_gt 0 (shortest n).exponent with hnonneg | hneg
  · have hlength := length_positional_of_nonneg hnonneg
    have hleading :=
      leadingExponent_lt_of_lt_leastLarge hpos hupper (Binary64.readsAs_shortest hpos)
    omega
  · have hlength := length_positional_le hneg
    have hdigits := Binary64.length_numeral_shortest hpos
    have hexponent := exponent_shortest_of_leastPositional_le hlower
    omega

theorem length_scientific_shortest_le (hpos : 0 < n) (hlt : n < infinity) :
    (shortest n).scientific.length ≤ 23 := by
  have hlength := length_scientific_le (shortest n)
  have hdigits := Binary64.length_numeral_shortest hpos
  obtain ⟨hlower, hupper⟩ := leadingExponent_bounds hpos hlt (Binary64.readsAs_shortest hpos)
  have hexponent : (signedNumeral (shortest n).leadingExponent).length ≤ 4 :=
    length_signedNumeral_le (by omega) (by omega)
  omega

theorem length_spell_le (h : n < infinity) : (spell n).length ≤ 23 := by
  unfold spell
  split
  · decide
  · next hne =>
    rw [if_neg h.ne]
    split
    · next hrange => exact length_positional_shortest_le hrange.1 hrange.2
    · exact length_scientific_shortest_le (Nat.pos_of_ne_zero hne) h

theorem length_compact_le (h : v.isFinite = true) : (compact v).length ≤ 24 := by
  have hlt : magnitude v < infinity := isFinite_iff.mp h
  have hspell := length_spell_le hlt
  rw [compact_of_le hlt.le, String.length_ofList]
  split
  · exact Nat.succ_le_succ hspell
  · omega

/-! ### Exponents -/

theorem mem_scientific (d : Decimal) : 'e' ∈ d.scientific := by
  unfold scientific
  split <;> simp

theorem notMem_positional (d : Decimal) : 'e' ∉ d.positional := by
  intro hmem
  have hchar := isDigit_or_eq_of_mem_positional hmem
  revert hchar
  decide

theorem mem_spell_iff :
    'e' ∈ spell n ↔ n ≠ infinity ∧ n ≠ 0 ∧ (n < leastPositional ∨ leastLarge ≤ n) := by
  unfold spell
  split
  · next hzero => simp [hzero]
  · next hne =>
    split
    · next hinfinity => simp [hinfinity]
    · next hfinite =>
      split
      · next hrange =>
        exact iff_of_false (notMem_positional _) (by omega)
      · next hrange =>
        exact iff_of_true (mem_scientific _) ⟨hfinite, hne, by omega⟩

theorem mem_compact_iff_mem_spell (h : magnitude v ≤ infinity) :
    'e' ∈ (compact v).toList ↔ 'e' ∈ spell (magnitude v) := by
  rw [compact_of_le h, String.toList_ofList]
  split
  · simp
  · exact Iff.rfl

theorem abs_lt_iff (h : magnitude v ≤ infinity) : v.abs < 1e-5 ↔ magnitude v < leastPositional := by
  have hsign : isNegative 1e-5 = false := rfl
  have hle : magnitude 1e-5 ≤ infinity := by decide
  have habs : magnitude v.abs ≤ infinity := (magnitude_abs h).trans_le h
  rw [lt_iff_magnitude_lt habs hle (isNegative_abs h) hsign, magnitude_abs h, leastPositional]

theorem le_abs_iff (h : magnitude v ≤ infinity) : 1e16 ≤ v.abs ↔ leastLarge ≤ magnitude v := by
  have hsign : isNegative 1e16 = false := rfl
  have hle : magnitude 1e16 ≤ infinity := by decide
  have habs : magnitude v.abs ≤ infinity := (magnitude_abs h).trans_le h
  rw [le_iff_magnitude_le hle habs hsign (isNegative_abs h), magnitude_abs h, leastLarge]

/-- Finite doubles outside a middle range are written with an exponent. -/
theorem mem_compact_iff (h : magnitude v ≤ infinity) :
    'e' ∈ (compact v).toList ↔
      v.isFinite = true ∧ (v == 0) = false ∧ (v.abs < 1e-5 ∨ 1e16 ≤ v.abs) := by
  have hfinite : v.isFinite = true ↔ magnitude v ≠ infinity := by
    rw [isFinite_iff]
    omega
  have hzero : (v == 0) = false ↔ magnitude v ≠ 0 := by
    rw [← Bool.not_eq_true, beq_zero_iff h]
  rw [mem_compact_iff_mem_spell h, mem_spell_iff, hfinite, hzero, abs_lt_iff h, le_abs_iff h]

/-! ### The text of a double -/

/-- The compact text of a double that is a number reads as that double and is the text of no other
number. If the double is finite, no text that reads as it has fewer significant digits, and its
own has at most 24 characters. There is an exponent exactly for finite doubles other than zero
whose absolute value is less than `1e-5` or at least `1e16`. -/
theorem compact_reads_back_shortest (v : Float) (h : v.isNaN = false) :
    ofText? (compact v) = some v ∧
    (∀ w, compact w = compact v → w = v) ∧
    (v.isFinite = true → ∀ text, ofText? text = some v →
      significantDigits (compact v) ≤ significantDigits text) ∧
    ('e' ∈ (compact v).toList ↔
      v.isFinite = true ∧ (v == 0) = false ∧ (v.abs < 1e-5 ∨ 1e16 ≤ v.abs)) ∧
    (v.isFinite = true → (compact v).length ≤ 24) := by
  have hle : magnitude v ≤ infinity := by
    rw [← Bool.not_eq_true, isNaN_iff] at h
    exact Nat.le_of_not_lt h
  refine ⟨ofText?_compact hle, ?_, ?_, mem_compact_iff hle, length_compact_le⟩
  · intro w hsame
    exact eq_of_compact_eq hsame
  · intro hfinite text htext
    exact significantDigits_compact_le hfinite htext

/-- The least positive double has many more digits than its text. -/
theorem compact_least_positive :
    (5e-324 : Float).isNaN = false ∧ compact 5e-324 = "5e-324" ∧ ofText? "5e-324" = some 5e-324 ∧
      (∀ w, compact w = "5e-324" → w = 5e-324) ∧
      ∀ text, ofText? text = some 5e-324 → 1 ≤ significantDigits text := by
  have hnumber : (5e-324 : Float).isNaN = false := by decide +kernel
  have hfinite : (5e-324 : Float).isFinite = true := by decide +kernel
  have htext : compact 5e-324 = "5e-324" := by decide +kernel
  have hone : significantDigits "5e-324" = 1 := by decide +kernel
  obtain ⟨hreads, honly, hshortest, -⟩ := compact_reads_back_shortest 5e-324 hnumber
  rw [htext] at hreads honly hshortest
  rw [hone] at hshortest
  exact ⟨hnumber, htext, hreads, honly, hshortest hfinite⟩

end Number

end Formula
