import Formula.Proofs.Numeral
import Formula.Proofs.Rounding

/-!
# The spelling of doubles

A double is spelled with an optional sign and the text of its magnitude. The text of a finite
magnitude reads as a decimal that rounds to that magnitude and to no other, so that no two doubles
are spelled alike.

## Main definitions

- `Number.spell`: the compact text of a magnitude

## Main statements

- `Number.exists_decimal?_spell`: the text of a finite magnitude reads as a decimal that rounds to
  it
- `Number.eq_of_compact_eq`: doubles of the same compact text are the same
- `Number.head_compact`, `Number.isDigit_or_mem_of_mem_compact`: the characters of compact texts

## Design notes

There is one NaN, so that doubles are the same exactly if their bits are.
-/

namespace Formula

namespace Number

open Decimal Float.Model.UnpackedFloat

/-! ### Sign, magnitude and bits -/

theorem eq_of_toBits_eq {v w : Float} (h : v.toBits = w.toBits) : v = w := by
  obtain ⟨⟨bits, hv⟩⟩ := v
  obtain ⟨⟨bits', hw⟩⟩ := w
  cases h
  rfl

theorem eq_of_magnitude_eq {v w : Float} (hsign : isNegative v = isNegative w)
    (hmagnitude : magnitude v = magnitude w) : v = w := by
  have hpow : Nat.pow 2 63 = 9223372036854775808 := rfl
  have hv := v.toBits.toNat_lt
  have hw := w.toBits.toNat_lt
  rw [isNegative, isNegative, hpow, decide_eq_decide] at hsign
  rw [magnitude, magnitude, hpow] at hmagnitude
  refine eq_of_toBits_eq (UInt64.toNat_inj.mp ?_)
  by_cases hneg : 9223372036854775808 ≤ v.toBits.toNat
  · have hneg' := hsign.mp hneg
    omega
  · have hneg' : ¬ 9223372036854775808 ≤ w.toBits.toNat := fun h => hneg (hsign.mpr h)
    omega

/-- All bits of the exponent of NaN are set and some of the fraction are, for which the bits are
always the same. -/
theorem toBits_of_infinity_lt {v : Float} (h : Binary64.infinity < magnitude v) :
    v.toBits.toBitVec = packedNaN .binary64 := by
  have hvalid : Float.Model.Format.binary64.Valid v.toBits.toBitVec := v.toModel.valid
  have hinfinity : Binary64.infinity = 9218868437227405312 := rfl
  have hpow : Nat.pow 2 63 = 9223372036854775808 := rfl
  rw [magnitude, hinfinity, hpow] at h
  apply hvalid.eq_packedNaN
  · apply BitVec.eq_of_toNat_eq
    simp only [unpackExponent, BitVec.toNat_cast, BitVec.extractLsb_toNat,
      Nat.shiftRight_eq_div_pow]
    change v.toBits.toNat / 4503599627370496 % 2048 = 2047
    omega
  · intro hzero
    have hfraction := congrArg BitVec.toNat hzero
    simp only [unpackMantissa, BitVec.toNat_cast, BitVec.extractLsb_toNat,
      Nat.shiftRight_eq_div_pow] at hfraction
    change v.toBits.toNat / 1 % 4503599627370496 = 0 at hfraction
    omega

theorem eq_of_infinity_lt {v w : Float} (hv : Binary64.infinity < magnitude v)
    (hw : Binary64.infinity < magnitude w) : v = w := by
  apply eq_of_toBits_eq
  apply UInt64.toBitVec_inj.mp
  rw [toBits_of_infinity_lt hv, toBits_of_infinity_lt hw]

/-! ### Texts of magnitudes -/

/-- The compact text of a magnitude up to that of infinity. -/
def spell (n : Nat) : List Char :=
  if n = 0 then
    ['0']
  else if n = Binary64.infinity then
    ['i', 'n', 'f']
  else if leastPositional ≤ n ∧ n < leastLarge then
    (Binary64.shortest n).positional
  else
    (Binary64.shortest n).scientific

theorem compact_of_infinity_lt {v : Float} (h : Binary64.infinity < magnitude v) :
    compact v = "NaN" :=
  if_pos h

theorem compact_of_le {v : Float} (h : magnitude v ≤ Binary64.infinity) :
    compact v = String.ofList
      (if isNegative v then '-' :: spell (magnitude v) else spell (magnitude v)) :=
  if_neg (Nat.not_lt_of_le h)

/-- The text of a finite magnitude reads as a decimal that rounds to it. -/
theorem exists_decimal?_spell {n : Nat} (h : n ≠ Binary64.infinity) :
    ∃ d, decimal? (spell n) = some d ∧ Binary64.readsAs d n = true := by
  unfold spell
  by_cases hzero : n = 0
  · subst hzero
    exact ⟨⟨0, 0⟩, rfl, by decide +kernel⟩
  · have hreads := Binary64.readsAs_shortest (Nat.pos_of_ne_zero hzero)
    rw [if_neg hzero, if_neg h]
    split
    · obtain ⟨d, hd, hnumerator, hdenominator⟩ :=
        exists_decimal?_positional (Binary64.shortest n)
      exact ⟨d, hd, (Binary64.readsAs_congr hnumerator hdenominator n).trans hreads⟩
    · exact ⟨_, decimal?_scientific _, hreads⟩

theorem spell_infinity : spell Binary64.infinity = ['i', 'n', 'f'] := rfl

theorem decimal?_inf : decimal? ['i', 'n', 'f'] = none := rfl

/-- Different magnitudes have different texts. -/
theorem eq_of_spell_eq {m n : Nat} (h : spell m = spell n) : m = n := by
  by_cases hm : m = Binary64.infinity
  · by_cases hn : n = Binary64.infinity
    · rw [hm, hn]
    · obtain ⟨d, hd, -⟩ := exists_decimal?_spell hn
      rw [← h, hm, spell_infinity, decimal?_inf] at hd
      cases hd
  · obtain ⟨d, hd, hreads⟩ := exists_decimal?_spell hm
    by_cases hn : n = Binary64.infinity
    · rw [h, hn, spell_infinity, decimal?_inf] at hd
      cases hd
    · obtain ⟨d', hd', hreads'⟩ := exists_decimal?_spell hn
      rw [h, hd'] at hd
      cases hd
      exact Binary64.eq_of_readsAs hreads hreads'

/-! ### Texts of doubles -/

theorem decimal?_cons_eq_none {c : Char} (hdigit : c.isDigit = false) (hpoint : c ≠ '.')
    (rest : List Char) : decimal? (c :: rest) = none := by
  have hspan : ([] ++ c :: rest).span Char.isDigit = ([], c :: rest) :=
    span_append (by simp) (by simp [hdigit])
  have hsplit : splitFraction (c :: rest) = ([], c :: rest) := by
    unfold splitFraction
    split
    · next heq => exact absurd (List.cons.inj heq).1 hpoint
    · rfl
  rw [decimal?, ← List.nil_append (c :: rest), hspan]
  simp [hsplit]

theorem isDigit_or_eq_of_decimal? {c : Char} {rest : List Char} {d : Decimal}
    (h : decimal? (c :: rest) = some d) : c.isDigit = true ∨ c = '.' := by
  by_contra hother
  rw [not_or, Bool.not_eq_true] at hother
  rw [decimal?_cons_eq_none hother.1 hother.2] at h
  cases h

/-- The text of a magnitude begins with what a number can begin with, or it is a word. -/
theorem head_spell {n : Nat} {c : Char} {rest : List Char} (h : spell n = c :: rest) :
    c.isDigit = true ∨ c ∈ ['.', 'i'] := by
  by_cases hn : n = Binary64.infinity
  · rw [hn, spell_infinity] at h
    cases h
    simp
  · obtain ⟨d, hd, -⟩ := exists_decimal?_spell hn
    rw [h] at hd
    rcases isDigit_or_eq_of_decimal? hd with hdigit | rfl
    · exact .inl hdigit
    · simp

theorem spell_ne_minus_cons (n : Nat) (rest : List Char) : spell n ≠ '-' :: rest := by
  intro h
  have hhead := head_spell h
  revert hhead
  decide

theorem spell_ne_nan (n : Nat) : spell n ≠ ['N', 'a', 'N'] := by
  intro h
  have hhead := head_spell h
  revert hhead
  decide

/-- A double that is a number is not spelled as NaN is. -/
theorem compact_ne_nan {v : Float} (h : magnitude v ≤ Binary64.infinity) : compact v ≠ "NaN" := by
  rw [compact_of_le h]
  intro heq
  have hchars : (if isNegative v then '-' :: spell (magnitude v) else spell (magnitude v)) =
      ['N', 'a', 'N'] := String.ofList_injective heq
  split at hchars
  · cases hchars
  · exact spell_ne_nan _ hchars

/-- The sign in front of a text and the magnitude behind it are both recovered. -/
theorem eq_of_compact_eq_of_le {v w : Float} (hv : magnitude v ≤ Binary64.infinity)
    (hw : magnitude w ≤ Binary64.infinity) (h : compact v = compact w) : v = w := by
  rw [compact_of_le hv, compact_of_le hw] at h
  have hchars := String.ofList_injective h
  cases hsign : isNegative v <;> cases hsign' : isNegative w
  all_goals simp only [hsign, hsign', if_true, if_false, Bool.false_eq_true] at hchars
  · exact eq_of_magnitude_eq (hsign.trans hsign'.symm) (eq_of_spell_eq hchars)
  · exact absurd hchars (spell_ne_minus_cons _ _)
  · exact absurd hchars.symm (spell_ne_minus_cons _ _)
  · exact eq_of_magnitude_eq (hsign.trans hsign'.symm) (eq_of_spell_eq (List.cons.inj hchars).2)

/-- Different doubles have different texts. -/
theorem eq_of_compact_eq {v w : Float} (h : compact v = compact w) : v = w := by
  rcases Nat.lt_or_ge Binary64.infinity (magnitude v) with hv | hv
  · rcases Nat.lt_or_ge Binary64.infinity (magnitude w) with hw | hw
    · exact eq_of_infinity_lt hv hw
    · rw [compact_of_infinity_lt hv] at h
      exact absurd h.symm (compact_ne_nan hw)
  · rcases Nat.lt_or_ge Binary64.infinity (magnitude w) with hw | hw
    · rw [compact_of_infinity_lt hw] at h
      exact absurd h (compact_ne_nan hv)
    · exact eq_of_compact_eq_of_le hv hw h

/-! ### Characters -/

/-- The text of a double begins with its sign, with what a number can begin with, or with a word. -/
theorem head_compact {v : Float} {c : Char} {rest : List Char}
    (h : (compact v).toList = c :: rest) : c.isDigit = true ∨ c ∈ ['.', 'i', '-', 'N'] := by
  rcases Nat.lt_or_ge Binary64.infinity (magnitude v) with hv | hv
  · rw [compact_of_infinity_lt hv] at h
    have hchars : ['N', 'a', 'N'] = c :: rest := h
    cases hchars
    simp
  · rw [compact_of_le hv, String.toList_ofList] at h
    split at h
    · cases h
      simp
    · exact (head_spell h).imp_right (List.mem_append_left ['-', 'N'])

theorem isDigit_or_eq_of_mem_positional {d : Decimal} {c : Char} (h : c ∈ d.positional) :
    c.isDigit = true ∨ c = '.' := by
  have hdigits : ∀ c ∈ numeral d.digits, c.isDigit = true := isDigit_of_mem_numeral
  simp only [positional] at h
  split at h
  · rcases List.mem_append.mp h with h | h
    · exact .inl (hdigits c h)
    · exact .inl (isDigit_of_mem_zeros c h)
  · split at h
    · rcases List.mem_append.mp h with h | h
      · exact .inl (hdigits c (List.mem_of_mem_take h))
      · rcases List.mem_cons.mp h with rfl | h
        · exact .inr rfl
        · exact .inl (hdigits c (List.mem_of_mem_drop h))
    · rcases List.mem_cons.mp h with rfl | h
      · exact .inl (by decide)
      · rcases List.mem_cons.mp h with rfl | h
        · exact .inr rfl
        · rcases List.mem_append.mp h with h | h
          · exact .inl (isDigit_of_mem_zeros c h)
          · exact .inl (hdigits c h)

theorem isDigit_or_eq_of_mem_signedNumeral {i : Int} {c : Char} (h : c ∈ signedNumeral i) :
    c.isDigit = true ∨ c = '-' := by
  unfold signedNumeral at h
  split at h
  · rcases List.mem_cons.mp h with rfl | h
    · exact .inr rfl
    · exact .inl (isDigit_of_mem_numeral c h)
  · exact .inl (isDigit_of_mem_numeral c h)

theorem isDigit_or_mem_of_mem_scientific {d : Decimal} {c : Char} (h : c ∈ d.scientific) :
    c.isDigit = true ∨ c ∈ ['.', 'e', '-'] := by
  have hdigits : ∀ c ∈ numeral d.digits, c.isDigit = true := isDigit_of_mem_numeral
  have htail : c ∈ 'e' :: signedNumeral d.leadingExponent →
      c.isDigit = true ∨ c ∈ ['.', 'e', '-'] := by
    intro h
    rcases List.mem_cons.mp h with rfl | h
    · simp
    · rcases isDigit_or_eq_of_mem_signedNumeral h with hdigit | rfl <;> simp [*]
  unfold scientific at h
  split at h
  · exact htail h
  · next first hcons =>
    rw [hcons] at hdigits
    rcases List.mem_cons.mp h with rfl | h
    · exact .inl (hdigits c List.mem_cons_self)
    · exact htail h
  · next first rest _ hcons =>
    rw [hcons] at hdigits
    obtain ⟨hfirst, hrest⟩ := List.forall_mem_cons.mp hdigits
    rcases List.mem_cons.mp h with rfl | h
    · exact .inl hfirst
    · rcases List.mem_cons.mp h with rfl | h
      · simp
      · rcases List.mem_append.mp h with h | h
        · exact .inl (hrest c h)
        · exact htail h

theorem isDigit_or_mem_of_mem_spell {n : Nat} {c : Char} (h : c ∈ spell n) :
    c.isDigit = true ∨ c ∈ ['.', 'e', '-', 'i', 'n', 'f'] := by
  unfold spell at h
  split at h
  · rw [List.mem_singleton.mp h]
    exact .inl (by decide)
  · split at h
    · exact .inr (List.mem_append_right ['.', 'e', '-'] h)
    · split at h
      · rcases isDigit_or_eq_of_mem_positional h with hdigit | rfl
        · exact .inl hdigit
        · exact .inr List.mem_cons_self
      · exact (isDigit_or_mem_of_mem_scientific h).imp_right
          (List.mem_append_left ['i', 'n', 'f'])

/-- A double is spelled with digits, a point, minus signs and the letters of its exponent, or in one
of the words for infinity and NaN. -/
theorem isDigit_or_mem_of_mem_compact {v : Float} {c : Char} (h : c ∈ (compact v).toList) :
    c.isDigit = true ∨ c ∈ ['.', 'e', '-', 'i', 'n', 'f', 'N', 'a'] := by
  rcases Nat.lt_or_ge Binary64.infinity (magnitude v) with hv | hv
  · rw [compact_of_infinity_lt hv] at h
    have hchar : c ∈ ['N', 'a', 'N'] := h
    have hsubset : ['N', 'a', 'N'] ⊆ ['.', 'e', '-', 'i', 'n', 'f', 'N', 'a'] := by simp
    exact .inr (hsubset hchar)
  · rw [compact_of_le hv, String.toList_ofList] at h
    have hspell (hmem : c ∈ spell (magnitude v)) :
        c.isDigit = true ∨ c ∈ ['.', 'e', '-', 'i', 'n', 'f', 'N', 'a'] :=
      (isDigit_or_mem_of_mem_spell hmem).imp_right (List.mem_append_left ['N', 'a'])
    split at h
    · rcases List.mem_cons.mp h with rfl | hmem
      · simp
      · exact hspell hmem
    · exact hspell h

end Number

end Formula
