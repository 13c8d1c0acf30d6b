import Formula.Number.Reading
import Mathlib.Data.List.TakeDrop

/-!
# Numerals

The texts of decimal numbers are read back. Both notations keep all digits and tell where the point
is, so a text stands for the fraction that was written.

## Main statements

- `span_append`: a run of like elements is found again in front of others
- `Number.eq_of_numeral_append_eq`: a number is told by its digits in front of other characters
- `Number.decimal?_scientific`: the notation with an exponent reads as the decimal written
- `Number.exists_decimal?_positional`: the positional notation reads as a decimal of the same value
-/

namespace Formula

/-- A run of elements with a property ends where the first one without it stands. -/
theorem span_append {α : Type} {p : α → Bool} {run rest : List α} (hrun : ∀ a ∈ run, p a = true)
    (hrest : ∀ a ∈ rest.head?, p a = false) : (run ++ rest).span p = (run, rest) := by
  rw [List.span_eq_takeWhile_dropWhile, List.takeWhile_append_of_pos hrun,
    List.dropWhile_append_of_pos hrun]
  cases rest with
  | nil => simp
  | cons a rest =>
    have ha : p a = false := hrest a rfl
    simp [ha]

/-- Runs of like elements in front of others end at the same place. -/
theorem eq_of_span_append {α : Type} {p : α → Bool} {run run' rest rest' : List α}
    (hrun : ∀ a ∈ run, p a = true) (hrun' : ∀ a ∈ run', p a = true)
    (hrest : ∀ a ∈ rest.head?, p a = false) (hrest' : ∀ a ∈ rest'.head?, p a = false)
    (h : run ++ rest = run' ++ rest') : run = run' ∧ rest = rest' := by
  have hspan := span_append hrun hrest
  rw [h, span_append hrun' hrest'] at hspan
  cases hspan
  exact ⟨rfl, rfl⟩

namespace Decimal

theorem isDigit_of_mem_numeral {n : Nat} : ∀ c ∈ numeral n, c.isDigit = true :=
  fun _ hmem => Nat.isDigit_of_mem_toDigits (by decide) (by decide) hmem

theorem numeral_ne_nil (n : Nat) : numeral n ≠ [] :=
  Nat.toDigits_ne_nil

end Decimal

namespace Number

open Decimal

variable {whole fraction rest : List Char}

/-! ### Digits -/

theorem digitsValue_numeral (n : Nat) : digitsValue (numeral n) = n :=
  Nat.ofDigitChars_ten_toDigits

theorem eq_of_numeral_eq {m n : Nat} (h : numeral m = numeral n) : m = n := by
  have hvalue := congrArg digitsValue h
  rwa [digitsValue_numeral, digitsValue_numeral] at hvalue

/-- A number is told by its digits in front of what does not continue them. -/
theorem eq_of_numeral_append_eq {m n : Nat} {rest' : List Char}
    (hrest : ∀ c ∈ rest.head?, c.isDigit = false) (hrest' : ∀ c ∈ rest'.head?, c.isDigit = false)
    (h : numeral m ++ rest = numeral n ++ rest') : m = n ∧ rest = rest' := by
  obtain ⟨hdigits, hafter⟩ :=
    eq_of_span_append isDigit_of_mem_numeral isDigit_of_mem_numeral hrest hrest' h
  exact ⟨eq_of_numeral_eq hdigits, hafter⟩

theorem digitsValue_append_zeros (ds : List Char) (count : Nat) :
    digitsValue (ds ++ List.replicate count '0') = digitsValue ds * Nat.pow 10 count := by
  rw [digitsValue, Nat.ofDigitChars_append, Nat.ofDigitChars_replicate_zero]
  exact Nat.mul_comm _ _

theorem digitsValue_zeros_append (count : Nat) (ds : List Char) :
    digitsValue (List.replicate count '0' ++ ds) = digitsValue ds := by
  rw [digitsValue, Nat.ofDigitChars_append, Nat.ofDigitChars_replicate_zero, Nat.mul_zero,
    digitsValue]

/-! ### Exponents -/

theorem exponentDigits?_numeral (n : Nat) : exponentDigits? (numeral n) = some n := by
  have hall : (numeral n).all Char.isDigit = true :=
    List.all_eq_true.mpr isDigit_of_mem_numeral
  rw [exponentDigits?, if_pos ⟨numeral_ne_nil n, hall⟩, digitsValue_numeral]

/-- Digits behind the letter are an exponent without a sign. -/
theorem exponent?_of_digits {ds : List Char} (hds : ∀ c ∈ ds, c.isDigit = true) :
    exponent? ('e' :: ds) = (exponentDigits? ds).map fun n : Nat => (n : Int) := by
  rw [exponent?, if_pos (.inl rfl)]
  · cases exponentDigits? ds <;> rfl
  · rintro rest rfl
    exact absurd (hds '-' List.mem_cons_self) (by decide)
  · rintro rest rfl
    exact absurd (hds '+' List.mem_cons_self) (by decide)

theorem exponent?_minus (ds : List Char) :
    exponent? ('e' :: '-' :: ds) = (exponentDigits? ds).map fun n : Nat => -(n : Int) := by
  rw [exponent?, if_pos (.inl rfl)]
  cases exponentDigits? ds <;> rfl

/-- An exponent is read with its sign. -/
theorem exponent?_signedNumeral (e : Int) : exponent? ('e' :: signedNumeral e) = some e := by
  unfold signedNumeral
  split
  · next hneg =>
    rw [exponent?_minus, exponentDigits?_numeral, Option.map_some]
    congr 1
    omega
  · next hpos =>
    rw [exponent?_of_digits isDigit_of_mem_numeral, exponentDigits?_numeral, Option.map_some]
    congr 1
    omega

/-! ### Digits, point and exponent -/

/-- What follows the digits of a number is an exponent or nothing. -/
theorem head?_of_exponent (h : ∀ c ∈ rest.head?, c = 'e') :
    (∀ c ∈ rest.head?, c.isDigit = false) ∧ splitFraction rest = ([], rest) := by
  cases rest with
  | nil => exact ⟨by simp, rfl⟩
  | cons c rest =>
    obtain rfl : c = 'e' := h c rfl
    exact ⟨by simp, rfl⟩

theorem decimal?_whole (hwhole : ∀ c ∈ whole, c.isDigit = true) (hne : whole ≠ [])
    (hrest : ∀ c ∈ rest.head?, c = 'e') :
    decimal? (whole ++ rest) = (exponent? rest).map fun e => ⟨digitsValue whole, e⟩ := by
  obtain ⟨hhead, hsplit⟩ := head?_of_exponent hrest
  unfold decimal?
  rw [span_append hwhole hhead]
  simp [hsplit, hne]

theorem decimal?_point (hwhole : ∀ c ∈ whole, c.isDigit = true) (hne : whole ≠ [])
    (hfraction : ∀ c ∈ fraction, c.isDigit = true) (hrest : ∀ c ∈ rest.head?, c = 'e') :
    decimal? (whole ++ '.' :: (fraction ++ rest)) =
      (exponent? rest).map fun e => ⟨digitsValue (whole ++ fraction), e - fraction.length⟩ := by
  obtain ⟨hhead, -⟩ := head?_of_exponent hrest
  have hpoint : ∀ c ∈ ('.' :: (fraction ++ rest)).head?, c.isDigit = false := by simp
  have hsplit : splitFraction ('.' :: (fraction ++ rest)) = (fraction, rest) :=
    span_append hfraction hhead
  unfold decimal?
  rw [span_append hwhole hpoint]
  simp only [hsplit]
  rw [if_neg fun hnil => hne hnil.1]

/-! ### The two notations -/

/-- The notation with an exponent keeps the digits and the exponent. -/
theorem decimal?_scientific (d : Decimal) : decimal? d.scientific = some d := by
  have hdigits : ∀ c ∈ numeral d.digits, c.isDigit = true := isDigit_of_mem_numeral
  have hvalue : digitsValue (numeral d.digits) = d.digits := digitsValue_numeral d.digits
  have hleading : d.leadingExponent = d.exponent + (numeral d.digits).length - 1 := rfl
  have hexponent : ∀ c ∈ ('e' :: signedNumeral d.leadingExponent).head?, c = 'e' := by simp
  obtain ⟨c, rest, hcons⟩ := List.exists_cons_of_ne_nil (numeral_ne_nil d.digits)
  rw [hcons] at hdigits hvalue hleading
  cases rest with
  | nil =>
    have hplaces : d.leadingExponent = d.exponent := by simp [hleading]
    have hread := decimal?_whole hdigits (by simp) hexponent
    rw [exponent?_signedNumeral, hvalue, Option.map_some, hplaces] at hread
    simp only [scientific, hcons, hplaces]
    exact hread
  | cons second rest =>
    obtain ⟨hfirst, hrest⟩ := List.forall_mem_cons.mp hdigits
    have hplaces : d.leadingExponent - (second :: rest).length = d.exponent := by
      rw [hleading, List.length_cons]
      omega
    have hall : digitsValue ([c] ++ (second :: rest)) = d.digits := hvalue
    have hread := decimal?_point (List.forall_mem_singleton.mpr hfirst) (by simp) hrest hexponent
    rw [exponent?_signedNumeral, Option.map_some, hplaces, hall] at hread
    simp only [scientific, hcons]
    exact hread

/-- A text without an exponent. -/
theorem decimal?_of_digits (hwhole : ∀ c ∈ whole, c.isDigit = true) (hne : whole ≠ []) :
    decimal? whole = some ⟨digitsValue whole, 0⟩ := by
  have hend : ∀ c ∈ ([] : List Char).head?, c = 'e' := by simp
  have hread := decimal?_whole hwhole hne hend
  rwa [List.append_nil] at hread

theorem decimal?_of_point (hwhole : ∀ c ∈ whole, c.isDigit = true) (hne : whole ≠ [])
    (hfraction : ∀ c ∈ fraction, c.isDigit = true) :
    decimal? (whole ++ '.' :: fraction) =
      some ⟨digitsValue (whole ++ fraction), -fraction.length⟩ := by
  have hend : ∀ c ∈ ([] : List Char).head?, c = 'e' := by simp
  have hread := decimal?_point hwhole hne hfraction hend
  rw [List.append_nil] at hread
  rw [hread]
  simp [exponent?]

theorem isDigit_of_mem_zeros {count : Nat} : ∀ c ∈ List.replicate count '0', c.isDigit = true := by
  intro c hmem
  rw [List.eq_of_mem_replicate hmem]
  decide

/-- Zeros that stand for a positive exponent are read as digits. -/
theorem decimal?_positional_of_nonneg {d : Decimal} (h : 0 ≤ d.exponent) :
    decimal? d.positional = some ⟨d.digits * Nat.pow 10 d.exponent.toNat, 0⟩ := by
  have hall : ∀ c ∈ numeral d.digits ++ List.replicate d.exponent.toNat '0', c.isDigit = true :=
    List.forall_mem_append.mpr ⟨isDigit_of_mem_numeral, isDigit_of_mem_zeros⟩
  have hread := decimal?_of_digits hall (by simp [numeral_ne_nil])
  rw [digitsValue_append_zeros, digitsValue_numeral] at hread
  simp only [positional, if_pos h]
  exact hread

/-- A point stands as many places from the end as the exponent tells. -/
theorem decimal?_positional_of_neg {d : Decimal} (h : d.exponent < 0) :
    decimal? d.positional = some d := by
  have hdigits : ∀ c ∈ numeral d.digits, c.isDigit = true := isDigit_of_mem_numeral
  have hvalue : digitsValue (numeral d.digits) = d.digits := digitsValue_numeral d.digits
  obtain ⟨places, hplaces⟩ : ∃ places : Nat, (-d.exponent).toNat = places := ⟨_, rfl⟩
  have hexponent : d.exponent = -(places : Int) := by omega
  simp only [positional, if_neg (Int.not_le_of_gt h), hplaces]
  split
  · next hinside =>
    -- the point stands among the digits
    have hwhole : (numeral d.digits).take ((numeral d.digits).length - places) ≠ [] := by
      rw [ne_eq, List.take_eq_nil_iff]
      rintro (hnone | hnil)
      · omega
      · exact numeral_ne_nil d.digits hnil
    have hfraction : ∀ c ∈ (numeral d.digits).drop ((numeral d.digits).length - places),
        c.isDigit = true := fun c hmem => hdigits c (List.mem_of_mem_drop hmem)
    have hread := decimal?_of_point (fun c hmem => hdigits c (List.mem_of_mem_take hmem)) hwhole
      hfraction
    have hlength : (numeral d.digits).length - ((numeral d.digits).length - places) = places := by
      omega
    rw [List.take_append_drop, hvalue, List.length_drop, hlength, ← hexponent] at hread
    exact hread
  · next hleft =>
    -- zeros fill up the places between the point and the digits
    have hzero : ∀ c ∈ ['0'], c.isDigit = true := List.forall_mem_singleton.mpr (by decide)
    have hfraction : ∀ c ∈ List.replicate (places - (numeral d.digits).length) '0' ++
        numeral d.digits, c.isDigit = true :=
      List.forall_mem_append.mpr ⟨isDigit_of_mem_zeros, hdigits⟩
    have hread := decimal?_of_point hzero (by decide) hfraction
    have hlength : places - (numeral d.digits).length + (numeral d.digits).length = places := by
      omega
    have hall : digitsValue (['0'] ++
        (List.replicate (places - (numeral d.digits).length) '0' ++ numeral d.digits)) =
          d.digits := by
      rw [← List.append_assoc, List.singleton_append, ← List.replicate_succ,
        digitsValue_zeros_append, hvalue]
    rw [List.length_append, List.length_replicate, hlength, ← hexponent, hall] at hread
    exact hread

/-- The positional notation keeps the value. -/
theorem exists_decimal?_positional (d : Decimal) :
    ∃ d', decimal? d.positional = some d' ∧ d'.numerator = d.numerator ∧
      d'.denominator = d.denominator := by
  by_cases h : 0 ≤ d.exponent
  · have hplaces : (-d.exponent).toNat = 0 := by omega
    refine ⟨_, decimal?_positional_of_nonneg h, Nat.mul_one _, ?_⟩
    rw [denominator, denominator, hplaces]
    rfl
  · exact ⟨d, decimal?_positional_of_neg (by omega), rfl, rfl⟩

end Number

end Formula
