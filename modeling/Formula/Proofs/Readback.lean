import Formula.Proofs.Nearest
import Formula.Proofs.Pattern

/-!
# Constants read back

The compact text of a double that is a number is read as that double, sign and infinities
included. Any other text of a finite double is a decimal that rounds to it.

## Main statements

- `Number.ofText?_compact`: the text of a double that is a number reads as that double
- `Number.exists_decimal?_of_ofText?`: a text of a finite double is a decimal nearest to it
-/

namespace Formula

namespace Number

open Binary64 (infinity nearest readsAs)

variable {v : Float} {d : Decimal} {c : Char} {n : Nat} {text : List Char}

/-! ### Words and decimals -/

theorem toLower_of_isDigit_or_eq (h : c.isDigit = true ∨ c = '.') : c.toLower = c := by
  apply dif_neg
  rintro ⟨hlower, -⟩
  rcases h with hdigit | rfl
  · rw [Char.isDigit, Bool.and_eq_true] at hdigit
    have hupper : c.val ≤ '9'.val := of_decide_eq_true hdigit.2
    exact absurd (UInt32.le_trans hlower hupper) (by decide)
  · exact absurd hlower (by decide)

/-- A decimal is none of the words. -/
theorem magnitude?_of_decimal? (h : decimal? text = some d) :
    magnitude? text = some (nearest d) := by
  cases text with
  | nil => cases h
  | cons c rest =>
    have hhead := isDigit_or_eq_of_decimal? h
    have hword {letter : Char} {word : List Char} (hletter : ¬ (letter.isDigit ∨ letter = '.')) :
        (c :: rest).map Char.toLower ≠ letter :: word := by
      rw [List.map_cons, toLower_of_isDigit_or_eq hhead]
      rintro heq
      exact hletter ((List.cons.inj heq).1 ▸ hhead)
    have hinf : ¬ ('i'.isDigit ∨ 'i' = '.') := by decide
    have hnan : ¬ ('n'.isDigit ∨ 'n' = '.') := by decide
    unfold magnitude?
    dsimp only
    rw [if_neg (not_or.mpr ⟨hword hinf, hword hinf⟩), if_neg (hword hnan), h, Option.map_some]

theorem magnitude?_spell (h : n ≤ infinity) : magnitude? (spell n) = some n := by
  rcases Nat.eq_or_lt_of_le h with rfl | hlt
  · rw [spell_infinity]
    rfl
  · obtain ⟨d, hd, hreads⟩ := exists_decimal?_spell hlt.ne
    rw [magnitude?_of_decimal? hd, (Binary64.nearest_eq_iff hlt).mpr hreads]

/-! ### Signs -/

theorem splitSign_spell (n : Nat) : splitSign (spell n) = (false, spell n) := by
  unfold splitSign
  split
  · next rest hminus => exact absurd hminus (spell_ne_minus_cons n rest)
  · next rest hplus =>
    rcases head_spell hplus with hdigit | hmem
    · exact absurd hdigit (by decide)
    · exact absurd hmem (by decide)
  · rfl

/-- The text of a double that is a number reads as that double. -/
theorem ofText?_compact (h : magnitude v ≤ infinity) : ofText? (compact v) = some v := by
  have hsplit : splitSign (if isNegative v then '-' :: spell (magnitude v)
      else spell (magnitude v)) = (isNegative v, spell (magnitude v)) := by
    cases isNegative v
    · exact splitSign_spell (magnitude v)
    · rfl
  rw [ofText?, compact_of_le h, String.toList_ofList, hsplit]
  dsimp only
  rw [magnitude?_spell h, Option.map_some, ofMagnitude_magnitude]

/-! ### Texts of finite doubles -/

theorem isFinite_ofMagnitude_nan (negative : Bool) :
    (ofMagnitude negative (infinity + Nat.pow 2 51)).isFinite = false := by
  cases negative <;> rfl

/-- Whatever text stands for a finite double is a decimal that is nearest to it. -/
theorem exists_decimal?_of_ofText? {text : String} (hfinite : v.isFinite = true)
    (h : ofText? text = some v) :
    ∃ d, decimal? (splitSign text.toList).2 = some d ∧ nearest d = magnitude v := by
  have hlt : magnitude v < infinity := isFinite_iff.mp hfinite
  rw [ofText?] at h
  generalize splitSign text.toList = parts at h ⊢
  obtain ⟨negative, rest⟩ := parts
  obtain ⟨n, hn, rfl⟩ := Option.map_eq_some_iff.mp h
  simp only [magnitude?] at hn
  split at hn
  · cases hn
    rw [magnitude_ofMagnitude (Nat.le_refl _)] at hlt
    exact absurd hlt (Nat.lt_irrefl _)
  · split at hn
    · cases hn
      rw [isFinite_ofMagnitude_nan] at hfinite
      cases hfinite
    · obtain ⟨d, hd, rfl⟩ := Option.map_eq_some_iff.mp hn
      exact ⟨d, hd, (magnitude_ofMagnitude (Binary64.nearest_le_infinity d)).symm⟩

end Number

end Formula
