import Formula.Proofs.Coarsest
import Formula.Proofs.Readback
import Mathlib.Data.List.DropRight

/-!
# Significant digits

The significant digits of a number's text are those from the first to the last that is not zero.
The compact text of a finite double has no more of them than any other text of that double.

## Main definitions

- `Number.mantissa`: the digits of a text in front of its exponent
- `Number.significant`: digits without the zeros at both ends

## Main statements

- `Number.digits_eq_digitsValue_mantissa`: a number is read from its mantissa
- `Number.significantDigits_compact_le`: a constant is written with the fewest significant digits
-/

namespace Formula

namespace Number

open Decimal

variable {d : Decimal} {c : Char} {ds text run rest : List Char}

/-- The digits of a number's text, as far as its exponent. -/
def mantissa (text : List Char) : List Char :=
  (text.takeWhile fun c => c != 'e' && c != 'E').filter Char.isDigit

/-- Digits without the zeros at both ends. -/
def significant (ds : List Char) : List Char :=
  (ds.dropWhile (· == '0')).rdropWhile (· == '0')

/-- How many significant digits a number's text has. -/
def significantDigits (text : String) : Nat :=
  (significant (mantissa text.toList)).length

/-! ### The mantissa of a text -/

/-- What stands in front of an exponent gives its digits to the mantissa. -/
theorem mantissa_append (hrun : ∀ c ∈ run, c.isDigit = true ∨ c ∈ ['.', '-', '+']) :
    mantissa (run ++ rest) = run.filter Char.isDigit ++ mantissa rest := by
  have hother : ∀ c ∈ ['.', '-', '+'], (c != 'e' && c != 'E') = true := by simp
  have hletter : ∀ c ∈ run, (c != 'e' && c != 'E') = true := by
    intro c hmem
    rcases hrun c hmem with hdigit | hmem
    · rw [Bool.and_eq_true, bne_iff_ne, bne_iff_ne]
      constructor <;> rintro rfl <;> exact absurd hdigit (by decide)
    · exact hother c hmem
  rw [mantissa, List.takeWhile_append_of_pos hletter, List.filter_append, mantissa]

theorem mantissa_digits_append (hds : ∀ c ∈ ds, c.isDigit = true) :
    mantissa (ds ++ rest) = ds ++ mantissa rest := by
  rw [mantissa_append fun c hmem => .inl (hds c hmem), List.filter_eq_self.mpr hds]

/-- A mantissa begins with the leading digits of the text. -/
theorem mantissa_eq_takeWhile_append (text : List Char) :
    mantissa text = text.takeWhile Char.isDigit ++ mantissa (text.dropWhile Char.isDigit) := by
  have hdigits : ∀ c ∈ text.takeWhile Char.isDigit, c.isDigit = true :=
    fun c hmem => List.mem_takeWhile_imp hmem
  rw [← mantissa_digits_append hdigits, List.takeWhile_append_dropWhile]

theorem mantissa_cons (hc : c ∈ ['.', '-', '+']) : mantissa (c :: rest) = mantissa rest := by
  have hnone : ∀ c ∈ ['.', '-', '+'], [c].filter Char.isDigit = [] := by simp
  have happend : mantissa ([c] ++ rest) = [c].filter Char.isDigit ++ mantissa rest :=
    mantissa_append (List.forall_mem_singleton.mpr (.inr hc))
  rwa [hnone c hc] at happend

theorem mantissa_of_exponent (h : ∀ c ∈ rest.head?, c = 'e' ∨ c = 'E') : mantissa rest = [] := by
  cases rest with
  | nil => rfl
  | cons c rest => rcases h c rfl with rfl | rfl <;> rfl

theorem mantissa_splitSign (text : List Char) : mantissa (splitSign text).2 = mantissa text := by
  unfold splitSign
  split
  · exact (mantissa_cons (by simp)).symm
  · exact (mantissa_cons (by simp)).symm
  · rfl

/-! ### Numbers and their mantissas -/

theorem head_of_exponent? {e : ℤ} (h : exponent? rest = some e) :
    ∀ c ∈ rest.head?, c = 'e' ∨ c = 'E' := by
  cases rest with
  | nil => simp
  | cons c rest =>
    rintro _ ⟨⟩
    by_contra hletter
    unfold exponent? at h
    dsimp only at h
    rw [if_neg hletter] at h
    cases h

theorem mantissa_eq_of_splitFraction {fraction : List Char}
    (hsplit : splitFraction text = (fraction, rest))
    (hrest : ∀ c ∈ rest.head?, c = 'e' ∨ c = 'E') : mantissa text = fraction := by
  unfold splitFraction at hsplit
  split at hsplit
  · next after =>
    rw [List.span_eq_takeWhile_dropWhile] at hsplit
    obtain ⟨rfl, rfl⟩ := Prod.mk.inj hsplit
    rw [mantissa_cons (by simp), mantissa_eq_takeWhile_append, mantissa_of_exponent hrest,
      List.append_nil]
  · obtain ⟨rfl, rfl⟩ := Prod.mk.inj hsplit
    exact mantissa_of_exponent hrest

/-- A number is read from its mantissa. -/
theorem digits_eq_digitsValue_mantissa (h : decimal? text = some d) :
    d.digits = digitsValue (mantissa text) := by
  unfold decimal? at h
  rw [List.span_eq_takeWhile_dropWhile] at h
  dsimp only at h
  cases hsplit : splitFraction (text.dropWhile Char.isDigit) with
  | mk fraction rest =>
    rw [hsplit] at h
    dsimp only at h
    split at h
    · cases h
    · obtain ⟨e, he, rfl⟩ := Option.map_eq_some_iff.mp h
      rw [mantissa_eq_takeWhile_append,
        mantissa_eq_of_splitFraction hsplit (head_of_exponent? he)]

/-! ### Zeros at both ends -/

theorem digitsValue_dropWhile (ds : List Char) :
    digitsValue (ds.dropWhile (· == '0')) = digitsValue ds := by
  induction ds with
  | nil => rfl
  | cons c ds ih =>
    rw [List.dropWhile_cons]
    split
    · next hzero =>
      rw [ih, beq_iff_eq.mp hzero]
      exact (digitsValue_zeros_append 1 ds).symm
    · rfl

theorem digitsValue_rdropWhile (ds : List Char) :
    ∃ zeros, digitsValue ds = digitsValue (ds.rdropWhile (· == '0')) * 10 ^ zeros := by
  induction ds using List.reverseRecOn with
  | nil => exact ⟨0, rfl⟩
  | append_singleton ds c ih =>
    rw [List.rdropWhile_concat]
    split
    · next hzero =>
      obtain ⟨zeros, hzeros⟩ := ih
      refine ⟨zeros + 1, ?_⟩
      have happend : digitsValue (ds ++ ['0']) = digitsValue ds * 10 :=
        digitsValue_append_zeros ds 1
      rw [beq_iff_eq.mp hzero, happend, hzeros, pow_succ, mul_assoc]
    · exact ⟨0, (mul_one _).symm⟩

/-- Zeros at the ends change nothing but the power of ten. -/
theorem digitsValue_significant (ds : List Char) :
    ∃ zeros, digitsValue ds = digitsValue (significant ds) * 10 ^ zeros := by
  obtain ⟨zeros, hzeros⟩ := digitsValue_rdropWhile (ds.dropWhile (· == '0'))
  rw [digitsValue_dropWhile] at hzeros
  exact ⟨zeros, hzeros⟩

theorem digitsValue_lt (hds : ∀ c ∈ ds, c.isDigit = true) :
    digitsValue ds < 10 ^ ds.length := by
  induction ds using List.reverseRecOn with
  | nil => decide
  | append_singleton ds c ih =>
    obtain ⟨hinit, hlast⟩ := List.forall_mem_append.mp hds
    have hlt := ih hinit
    have hdigit : c.toNat - '0'.toNat ≤ 9 := by
      have hc := List.forall_mem_singleton.mp hlast
      rw [Char.isDigit, Bool.and_eq_true] at hc
      have hupper : c.toNat ≤ '9'.toNat := of_decide_eq_true hc.2
      have hnine : '9'.toNat = '0'.toNat + 9 := rfl
      omega
    have hvalue : digitsValue (ds ++ [c]) = 10 * digitsValue ds + (c.toNat - '0'.toNat) := by
      rw [digitsValue, Nat.ofDigitChars_append]
      rfl
    rw [hvalue, List.length_append, List.length_singleton, pow_succ]
    omega

theorem isDigit_of_mem_significant (hds : ∀ c ∈ ds, c.isDigit = true) :
    ∀ c ∈ significant ds, c.isDigit = true := fun c hmem =>
  hds c ((List.dropWhile_suffix _).subset ((List.rdropWhile_prefix _ _).subset hmem))

theorem rdropWhile_append_zeros (ds : List Char) (count : ℕ) :
    (ds ++ List.replicate count '0').rdropWhile (· == '0') = ds.rdropWhile (· == '0') := by
  induction count with
  | zero => rw [List.replicate_zero, List.append_nil]
  | succ count ih =>
    rw [List.replicate_succ', ← List.append_assoc, List.rdropWhile_concat_pos _ _ _ rfl, ih]

/-- Zeros in front of digits and behind them are not significant. -/
theorem length_significant_le (before after : ℕ) (ds : List Char) :
    (significant (List.replicate before '0' ++ (ds ++ List.replicate after '0'))).length ≤
      ds.length := by
  have hzero (count : ℕ) : ∀ c ∈ List.replicate count '0', (c == '0') = true :=
    fun c hmem => beq_iff_eq.mpr (List.eq_of_mem_replicate hmem)
  rw [significant, List.dropWhile_append_of_pos (hzero before), List.dropWhile_append]
  split
  · rw [List.dropWhile_eq_nil_iff.mpr (hzero after)]
    exact Nat.zero_le _
  · rw [rdropWhile_append_zeros]
    exact (List.rdropWhile_prefix _ _).length_le.trans (List.dropWhile_suffix _).length_le

/-! ### The mantissas of the two notations -/

theorem mantissa_digits (hds : ∀ c ∈ ds, c.isDigit = true) : mantissa ds = ds := by
  have hnil : mantissa [] = [] := rfl
  have happend : mantissa (ds ++ []) = ds ++ mantissa [] := mantissa_digits_append hds
  rwa [hnil, List.append_nil] at happend

theorem mantissa_point (hrun : ∀ c ∈ run, c.isDigit = true) (hds : ∀ c ∈ ds, c.isDigit = true)
    (hrest : ∀ c ∈ rest.head?, c = 'e' ∨ c = 'E') :
    mantissa (run ++ '.' :: (ds ++ rest)) = run ++ ds := by
  rw [mantissa_digits_append hrun, mantissa_cons (by simp), mantissa_digits_append hds,
    mantissa_of_exponent hrest, List.append_nil]

theorem mantissa_of_point (hrun : ∀ c ∈ run, c.isDigit = true)
    (hds : ∀ c ∈ ds, c.isDigit = true) : mantissa (run ++ '.' :: ds) = run ++ ds := by
  have hpoint : mantissa (run ++ '.' :: (ds ++ [])) = run ++ ds :=
    mantissa_point hrun hds (by simp)
  rwa [List.append_nil] at hpoint

theorem mantissa_scientific (d : Decimal) : mantissa d.scientific = numeral d.digits := by
  have hdigits : ∀ c ∈ numeral d.digits, c.isDigit = true := isDigit_of_mem_numeral
  have hexponent : ∀ c ∈ ('e' :: signedNumeral d.leadingExponent).head?, c = 'e' ∨ c = 'E' := by
    simp
  unfold scientific
  split
  · next hnil => exact absurd hnil (numeral_ne_nil d.digits)
  · next c hone =>
    rw [hone] at hdigits ⊢
    have happend : mantissa ([c] ++ 'e' :: signedNumeral d.leadingExponent) = _ :=
      mantissa_digits_append hdigits
    rwa [mantissa_of_exponent hexponent, List.append_nil] at happend
  · next c rest _ hcons =>
    rw [hcons] at hdigits ⊢
    obtain ⟨hfirst, hrest⟩ := List.forall_mem_cons.mp hdigits
    exact mantissa_point (List.forall_mem_singleton.mpr hfirst) hrest hexponent

/-- The positional notation may add zeros at both ends. -/
theorem exists_mantissa_positional (d : Decimal) :
    ∃ before after, mantissa d.positional =
      List.replicate before '0' ++ (numeral d.digits ++ List.replicate after '0') := by
  have hdigits : ∀ c ∈ numeral d.digits, c.isDigit = true := isDigit_of_mem_numeral
  simp only [positional]
  split
  · refine ⟨0, d.exponent.toNat, ?_⟩
    exact mantissa_digits (List.forall_mem_append.mpr ⟨hdigits, isDigit_of_mem_zeros⟩)
  · split
    · refine ⟨0, 0, ?_⟩
      rw [mantissa_of_point (fun c hmem => hdigits c (List.mem_of_mem_take hmem))
        (fun c hmem => hdigits c (List.mem_of_mem_drop hmem)), List.take_append_drop,
        List.replicate_zero, List.nil_append, List.append_nil]
    · refine ⟨(-d.exponent).toNat - (numeral d.digits).length + 1, 0, ?_⟩
      have hzero : ∀ c ∈ ['0'], c.isDigit = true := List.forall_mem_singleton.mpr (by decide)
      rw [List.replicate_succ, List.replicate_zero, List.append_nil]
      exact mantissa_of_point hzero (List.forall_mem_append.mpr ⟨isDigit_of_mem_zeros, hdigits⟩)

/-! ### The fewest digits -/

variable {v : Float} {n : ℕ}

theorem length_significant_mantissa_spell (hne : n ≠ 0) (hlt : n < Binary64.infinity) :
    (significant (mantissa (spell n))).length ≤
      (numeral (Binary64.shortest n).digits).length := by
  unfold spell
  rw [if_neg hne, if_neg hlt.ne]
  split
  · obtain ⟨before, after, hmantissa⟩ := exists_mantissa_positional (Binary64.shortest n)
    rw [hmantissa]
    exact length_significant_le before after _
  · rw [mantissa_scientific]
    have hle := length_significant_le 0 0 (numeral (Binary64.shortest n).digits)
    rwa [List.replicate_zero, List.nil_append, List.append_nil] at hle

/-- A decimal that reads as a double is written with no fewer significant digits. -/
theorem length_numeral_shortest_le (hpos : 0 < n) (h : decimal? text = some d)
    (hreads : Binary64.readsAs d n = true) :
    (numeral (Binary64.shortest n).digits).length ≤ (significant (mantissa text)).length := by
  have hdigits : ∀ c ∈ mantissa text, c.isDigit = true := fun _ hmem => List.of_mem_filter hmem
  obtain ⟨zeros, hzeros⟩ := digitsValue_significant (mantissa text)
  rw [← digits_eq_digitsValue_mantissa h] at hzeros
  have hlt := digitsValue_lt (isDigit_of_mem_significant hdigits)
  generalize significant (mantissa text) = ds at hzeros hlt ⊢
  have hlength : 0 < ds.length := by
    rw [List.length_pos_iff]
    rintro rfl
    exact Binary64.digits_ne_zero_of_readsAs hreads hpos (hzeros.trans (zero_mul _))
  have hsame : Binary64.readsAs ⟨digitsValue ds, zeros + d.exponent⟩ n = true := by
    apply Binary64.readsAs_of_value_eq_value hreads
    rw [Decimal.value, Decimal.value, hzeros, zpow_add₀ (by norm_num), zpow_natCast]
    push_cast
    ring
  exact (length_numeral_le_iff hlength).mpr (Binary64.digits_shortest_lt hpos hsame hlt)

theorem mantissa_compact (h : magnitude v ≤ Binary64.infinity) :
    mantissa (compact v).toList = mantissa (spell (magnitude v)) := by
  rw [compact_of_le h, String.toList_ofList]
  split
  · exact mantissa_cons (by simp)
  · rfl

/-- No text that reads as a finite double has fewer significant digits than its compact text. -/
theorem significantDigits_compact_le {text : String} (hfinite : v.isFinite = true)
    (h : ofText? text = some v) : significantDigits (compact v) ≤ significantDigits text := by
  have hlt : magnitude v < Binary64.infinity := isFinite_iff.mp hfinite
  rw [significantDigits, significantDigits, mantissa_compact hlt.le]
  by_cases hzero : magnitude v = 0
  · rw [hzero]
    exact Nat.zero_le _
  · obtain ⟨d, hd, hnearest⟩ := exists_decimal?_of_ofText? hfinite h
    have hreads := (Binary64.nearest_eq_iff hlt).mp hnearest
    rw [← mantissa_splitSign text.toList]
    exact (length_significant_mantissa_spell hzero hlt).trans
      (length_numeral_shortest_le (Nat.pos_of_ne_zero hzero) hd hreads)

end Number

end Formula
