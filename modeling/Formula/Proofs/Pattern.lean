import Formula.Proofs.Spelling
import Mathlib

/-!
# Doubles as sign and magnitude

A double that is a number consists of its sign and the pattern of its magnitude. Taking it apart
as the arithmetic of doubles does, into sign, significand and exponent, and putting it together
again keeps both, and the order of doubles is that of their patterns.

## Main definitions

- `Number.unpacked`: what a sign and a magnitude stand for

## Main statements

- `Number.ofMagnitude_magnitude`: a number is put together again from its sign and its magnitude
- `Number.lt_iff_magnitude_lt`, `Number.le_iff_magnitude_le`: the order of doubles without a sign
- `Number.isFinite_iff`, `Number.isNaN_iff`: the magnitudes of finite doubles and of NaN
-/

namespace Formula

namespace Number

open Float.Model.UnpackedFloat

/-! ### Sign, exponent and fraction -/

/-- The sign that a sign bit stands for. -/
def signOf (negative : Bool) : Sign :=
  if negative then .negative else .positive

/-- The significand of a finite magnitude: its fraction, and the implicit bit of a normal number. -/
def significand (n : Nat) : Nat :=
  if n < Nat.pow 2 52 then n else Nat.pow 2 52 + n % Nat.pow 2 52

/-- The exponent of the significand of a finite magnitude. -/
def exponent (n : Nat) : Int :=
  max ((n / Nat.pow 2 52 : Nat) - 1075) (-1074)

theorem significand_pos {n : Nat} (h : n ≠ 0) : 0 < significand n := by
  unfold significand
  split
  · exact Nat.pos_of_ne_zero h
  · exact Nat.add_pos_left (Nat.pow_pos (by decide)) _

/-- The double with the magnitude `n`, taken apart as the arithmetic of doubles does it. -/
def unpacked (negative : Bool) (n : Nat) : Float.Model.UnpackedFloat :=
  if n = Binary64.infinity then
    .infinity (signOf negative)
  else if h : n = 0 then
    .zero (signOf negative)
  else
    .finite (signOf negative) (significand n) (exponent n) (significand_pos h)

section Fields

variable {b : BitVec 64}

theorem unpackSign_eq_iff {sign : BitVec 1} :
    @unpackSign .binary64 b = sign ↔ b.toNat / 9223372036854775808 % 2 = sign.toNat := by
  rw [← BitVec.toNat_inj]
  simp only [unpackSign, BitVec.toNat_cast, BitVec.extractLsb_toNat, Nat.shiftRight_eq_div_pow]

theorem toNat_unpackExponent :
    (@unpackExponent .binary64 b).toNat = b.toNat / 4503599627370496 % 2048 := by
  simp only [unpackExponent, BitVec.toNat_cast, BitVec.extractLsb_toNat, Nat.shiftRight_eq_div_pow]

theorem unpackExponent_eq_iff (exponent : BitVec 11) :
    @unpackExponent .binary64 b = exponent ↔
      b.toNat / 4503599627370496 % 2048 = exponent.toNat := by
  rw [← BitVec.toNat_inj, toNat_unpackExponent]

theorem toNat_unpackMantissa :
    (@unpackMantissa .binary64 b).toNat = b.toNat % 4503599627370496 := by
  simp only [unpackMantissa, BitVec.toNat_cast, BitVec.extractLsb_toNat, Nat.shiftRight_zero]

theorem unpackMantissa_eq_iff (fraction : BitVec 52) :
    @unpackMantissa .binary64 b = fraction ↔
      b.toNat % 4503599627370496 = fraction.toNat := by
  rw [← BitVec.toNat_inj, toNat_unpackMantissa]

theorem ofBitVec_unpackSign :
    Sign.ofBitVec (@unpackSign .binary64 b) = signOf (9223372036854775808 ≤ b.toNat) := by
  have hlt := b.isLt
  unfold Sign.ofBitVec signOf
  simp only [unpackSign_eq_iff, decide_eq_true_eq]
  show (if _ = 0 then _ else _) = _
  by_cases h : 9223372036854775808 ≤ b.toNat
  · rw [if_pos h, if_neg (by omega)]
  · rw [if_neg h, if_pos (by omega)]

end Fields

theorem toNat_implicit_append (fraction : BitVec 52) :
    (1#1 ++ fraction).toNat = 4503599627370496 + fraction.toNat := by
  have hfraction := fraction.isLt
  rw [BitVec.toNat_append, ← Nat.shiftLeft_add_eq_or_of_lt hfraction, Nat.shiftLeft_eq]
  rfl

/-- Taking apart the bits of a double that is no NaN. -/
theorem unpack_eq {b : BitVec 64} (h : b.toNat % 9223372036854775808 ≤ Binary64.infinity) :
    Float.Model.UnpackedFloat.unpack .binary64 b =
      unpacked (9223372036854775808 ≤ b.toNat) (b.toNat % 9223372036854775808) := by
  have hlt := b.isLt
  have hinfinity : Binary64.infinity = 9218868437227405312 := rfl
  have hpow : Nat.pow 2 52 = 4503599627370496 := rfl
  have hbias : (Float.Model.Format.binary64.exponentBias : Int) = 1023 := rfl
  rw [hinfinity] at h
  unfold Float.Model.UnpackedFloat.unpack unpacked
  simp only [ofBitVec_unpackSign, hinfinity, hbias, toNat_unpackExponent,
    toNat_unpackMantissa, toNat_implicit_append]
  by_cases hall : b.toNat / 4503599627370496 % 2048 = 2047
  · rw [if_pos ((unpackExponent_eq_iff (-1#11)).mpr hall), if_pos, if_pos (by omega)]
    apply (unpackMantissa_eq_iff 0#52).mpr
    show _ = 0
    omega
  have hfinite : ¬ b.toNat % 9223372036854775808 = 9218868437227405312 := by omega
  rw [if_neg (mt (unpackExponent_eq_iff (-1#11)).mp hall), if_neg hfinite]
  by_cases hnone : b.toNat / 4503599627370496 % 2048 = 0
  · rw [if_pos ((unpackExponent_eq_iff 0#11).mpr hnone)]
    by_cases hzero : b.toNat % 4503599627370496 = 0
    · rw [dif_pos ((unpackMantissa_eq_iff 0#52).mpr hzero), dif_pos (by omega)]
    · rw [dif_neg (mt (unpackMantissa_eq_iff 0#52).mp hzero), dif_neg (by omega)]
      congr 1
      · rw [significand, hpow, if_pos (by omega)]
        omega
      · rw [exponent, hpow]
        omega
  · rw [if_neg (mt (unpackExponent_eq_iff 0#11).mp hnone), dif_neg (by omega)]
    congr 1
    · rw [significand, hpow, if_neg (by omega)]
      omega
    · rw [exponent, hpow]
      omega

/-! ### Doubles -/

variable {v w : Float} {negative : Bool} {n : Nat}

theorem unpack_toModel (h : magnitude v ≤ Binary64.infinity) :
    v.toModel.unpack = unpacked (isNegative v) (magnitude v) :=
  unpack_eq h

/-- The magnitude leaves room for the sign above it. -/
theorem bits_mod (negative : Bool) (h : n ≤ Binary64.infinity) :
    ((if negative then 9223372036854775808 else 0) + n) % 9223372036854775808 = n := by
  have hinfinity : Binary64.infinity = 9218868437227405312 := rfl
  split <;> omega

theorem decide_le_bits (negative : Bool) (h : n ≤ Binary64.infinity) :
    decide (9223372036854775808 ≤ (if negative then 9223372036854775808 else 0) + n) =
      negative := by
  have hinfinity : Binary64.infinity = 9218868437227405312 := rfl
  cases negative with
  | false => exact decide_eq_false (by simp; omega)
  | true => exact decide_eq_true (by simp)

/-- The bits of a double with the given sign and magnitude. -/
theorem toNat_bits (negative : Bool) (h : n ≤ Binary64.infinity) :
    ((if negative then Nat.pow 2 63 else 0) + n).toUInt64.toBitVec.toNat =
      (if negative then 9223372036854775808 else 0) + n := by
  have hinfinity : Binary64.infinity = 9218868437227405312 := rfl
  have hpow : Nat.pow 2 63 = 9223372036854775808 := rfl
  rw [hpow]
  show _ % 18446744073709551616 = _
  split <;> omega

theorem unpack_bits (negative : Bool) (h : n ≤ Binary64.infinity) :
    Float.Model.UnpackedFloat.unpack .binary64
      ((if negative then Nat.pow 2 63 else 0) + n).toUInt64.toBitVec = unpacked negative n := by
  have hbits := toNat_bits negative h
  rw [unpack_eq, hbits, bits_mod negative h, decide_le_bits negative h]
  rw [hbits, bits_mod negative h]
  exact h

theorem toBitVec_toBits_ofMagnitude (negative : Bool) (h : n ≤ Binary64.infinity) :
    (ofMagnitude negative n).toBits.toBitVec =
      Float.Model.UnpackedFloat.pack .binary64 (unpacked negative n) := by
  rw [← unpack_bits negative h]
  rfl

/-- A double is made from the bits that are asked for, unless they are those of NaN. -/
theorem toNat_toBits_ofMagnitude (h : n ≤ Binary64.infinity) :
    (ofMagnitude negative n).toBits.toNat = (if negative then 9223372036854775808 else 0) + n := by
  have hinfinity : Binary64.infinity = 9218868437227405312 := rfl
  have hbits := toNat_bits negative h
  show (Float.Model.UnpackedFloat.pack .binary64 (Float.Model.UnpackedFloat.unpack .binary64
    ((if negative then Nat.pow 2 63 else 0) + n).toUInt64.toBitVec)).toNat = _
  rw [pack_unpack, if_neg, hbits]
  rw [isNaNBits, decide_eq_true_eq, not_and, not_not]
  intro hexponent
  have hall := (unpackExponent_eq_iff (-1#11)).mp hexponent
  apply (unpackMantissa_eq_iff 0#52).mpr
  rw [hbits] at hall ⊢
  change _ = 2047 at hall
  show _ = 0
  split at hall <;> split <;> omega

theorem magnitude_ofMagnitude (h : n ≤ Binary64.infinity) :
    magnitude (ofMagnitude negative n) = n := by
  have hpow : Nat.pow 2 63 = 9223372036854775808 := rfl
  rw [magnitude, toNat_toBits_ofMagnitude h, hpow, bits_mod negative h]

theorem isNegative_ofMagnitude (h : n ≤ Binary64.infinity) :
    isNegative (ofMagnitude negative n) = negative := by
  have hpow : Nat.pow 2 63 = 9223372036854775808 := rfl
  rw [isNegative, toNat_toBits_ofMagnitude h, hpow, decide_le_bits negative h]

/-- A double is put together again from its sign and its magnitude. -/
theorem ofMagnitude_magnitude (v : Float) : ofMagnitude (isNegative v) (magnitude v) = v := by
  have hpow : Nat.pow 2 63 = 9223372036854775808 := rfl
  have hbits : (if isNegative v then Nat.pow 2 63 else 0) + magnitude v = v.toBits.toNat := by
    have hlt := v.toBits.toNat_lt
    rw [isNegative, magnitude, hpow]
    by_cases hneg : 9223372036854775808 ≤ v.toBits.toNat
    · rw [decide_eq_true hneg, if_pos rfl]
      omega
    · rw [decide_eq_false hneg, if_neg Bool.false_ne_true]
      omega
  rw [ofMagnitude, hbits, Nat.toUInt64, UInt64.ofNat_toNat, Float.ofBits_toBits]

theorem abs_unpacked (negative : Bool) (n : Nat) :
    (unpacked negative n).abs = unpacked false n := by
  unfold unpacked
  split
  · rfl
  · split <;> rfl

/-- The absolute value has the same magnitude and no sign. -/
theorem abs_eq (h : magnitude v ≤ Binary64.infinity) : v.abs = ofMagnitude false (magnitude v) := by
  apply Float.toBits_inj.mp
  apply UInt64.toBitVec_inj.mp
  rw [toBitVec_toBits_ofMagnitude false h, ← abs_unpacked (isNegative v), ← unpack_toModel h]
  rfl

theorem magnitude_abs (h : magnitude v ≤ Binary64.infinity) : magnitude v.abs = magnitude v := by
  rw [abs_eq h, magnitude_ofMagnitude h]

theorem isNegative_abs (h : magnitude v ≤ Binary64.infinity) : isNegative v.abs = false := by
  rw [abs_eq h, isNegative_ofMagnitude h]

/-- Significands and exponents order finite magnitudes, the exponents first. -/
theorem exponent_lt_or_significand_lt {m n : Nat} (h : m < n) :
    exponent m < exponent n ∨ exponent m = exponent n ∧ significand m < significand n := by
  have hpow : Nat.pow 2 52 = 4503599627370496 := rfl
  unfold exponent significand
  rw [hpow]
  split <;> split <;> omega

theorem compare_finite (m n : Nat) :
    (compare (exponent m) (exponent n)).then (compare (significand m) (significand n)) =
      compare m n := by
  rcases Nat.lt_trichotomy m n with hlt | rfl | hlt
  · rw [Nat.compare_eq_lt.mpr hlt]
    rcases exponent_lt_or_significand_lt hlt with he | ⟨he, hs⟩
    · rw [Int.compare_eq_lt.mpr he]
      rfl
    · rw [Int.compare_eq_eq.mpr he, Nat.compare_eq_lt.mpr hs]
      rfl
  · rw [Int.compare_eq_eq.mpr rfl, Nat.compare_eq_eq.mpr rfl, Nat.compare_eq_eq.mpr rfl]
    rfl
  · rw [Nat.compare_eq_gt.mpr hlt]
    rcases exponent_lt_or_significand_lt hlt with he | ⟨he, hs⟩
    · rw [Int.compare_eq_gt.mpr he]
      rfl
    · rw [Int.compare_eq_eq.mpr he.symm, Nat.compare_eq_gt.mpr hs]
      rfl

/-- Doubles without a sign are ordered as their magnitudes are. -/
theorem compare_unpacked {m n : Nat} (hm : m ≤ Binary64.infinity) (hn : n ≤ Binary64.infinity) :
    (unpacked false m).compare (unpacked false n) = some (compare m n) := by
  have hpos : 0 < Binary64.infinity := by decide
  unfold unpacked
  by_cases hm' : m = Binary64.infinity
  · by_cases hn' : n = Binary64.infinity
    · rw [if_pos hm', if_pos hn', hm', hn', Nat.compare_eq_eq.mpr rfl]
      rfl
    · have hlt : n < m := by omega
      rw [if_pos hm', if_neg hn', Nat.compare_eq_gt.mpr hlt]
      split <;> rfl
  · rw [if_neg hm']
    by_cases hn' : n = Binary64.infinity
    · have hlt : m < n := by omega
      rw [if_pos hn', Nat.compare_eq_lt.mpr hlt]
      split <;> rfl
    · rw [if_neg hn']
      by_cases hm0 : m = 0
      · by_cases hn0 : n = 0
        · rw [dif_pos hm0, dif_pos hn0, hm0, hn0, Nat.compare_eq_eq.mpr rfl]
          rfl
        · rw [dif_pos hm0, dif_neg hn0, Nat.compare_eq_lt.mpr (by omega)]
          rfl
      · by_cases hn0 : n = 0
        · rw [dif_neg hm0, dif_pos hn0, Nat.compare_eq_gt.mpr (by omega)]
          rfl
        · rw [dif_neg hm0, dif_neg hn0]
          exact congrArg some (compare_finite m n)

theorem lt_iff_magnitude_lt (hv : magnitude v ≤ Binary64.infinity)
    (hw : magnitude w ≤ Binary64.infinity) (hsign : isNegative v = false)
    (hsign' : isNegative w = false) : v < w ↔ magnitude v < magnitude w := by
  show decide ((v.toModel.unpack.compare w.toModel.unpack == some .lt) = true) = true ↔ _
  rw [unpack_toModel hv, unpack_toModel hw, hsign, hsign', compare_unpacked hv hw]
  simp [Nat.compare_eq_lt]

theorem le_iff_magnitude_le (hv : magnitude v ≤ Binary64.infinity)
    (hw : magnitude w ≤ Binary64.infinity) (hsign : isNegative v = false)
    (hsign' : isNegative w = false) : v ≤ w ↔ magnitude v ≤ magnitude w := by
  show decide ((v.toModel.unpack.compare w.toModel.unpack).any (·.isLE) = true) = true ↔ _
  rw [unpack_toModel hv, unpack_toModel hw, hsign, hsign', compare_unpacked hv hw]
  simp [Nat.isLE_compare]

theorem unpack_of_infinity_lt (h : Binary64.infinity < magnitude v) :
    v.toModel.unpack = .notANumber := by
  show Float.Model.UnpackedFloat.unpack .binary64 v.toBits.toBitVec = _
  rw [toBits_of_infinity_lt h, unpack_packedNaN]

theorem isFinite_iff : v.isFinite = true ↔ magnitude v < Binary64.infinity := by
  show v.toModel.unpack.isFinite = true ↔ _
  rcases Nat.lt_or_ge Binary64.infinity (magnitude v) with hnan | hle
  · rw [unpack_of_infinity_lt hnan]
    exact iff_of_false (by decide) (by omega)
  · rw [unpack_toModel hle, unpacked]
    by_cases hinfinity : magnitude v = Binary64.infinity
    · rw [if_pos hinfinity]
      exact iff_of_false (by simp [isFinite]) (by omega)
    · rw [if_neg hinfinity]
      refine iff_of_true ?_ (by omega)
      split <;> rfl

theorem isNaN_iff : v.isNaN = true ↔ Binary64.infinity < magnitude v := by
  show v.toModel.unpack.isNaN = true ↔ _
  rcases Nat.lt_or_ge Binary64.infinity (magnitude v) with hnan | hle
  · rw [unpack_of_infinity_lt hnan]
    exact iff_of_true rfl hnan
  · rw [unpack_toModel hle, unpacked]
    refine iff_of_false ?_ (by omega)
    split
    · simp [isNaN]
    · split <;> simp [isNaN]

/-- The two zeros are equal to zero, and nothing else is. -/
theorem beq_zero_iff (h : magnitude v ≤ Binary64.infinity) :
    (v == 0) = true ↔ magnitude v = 0 := by
  have hmagnitude : magnitude 0 = 0 := rfl
  have hsign : isNegative 0 = false := rfl
  have hzero : (0 : Float).toModel.unpack = .zero .positive := by
    rw [unpack_toModel (by omega), hmagnitude, hsign]
    rfl
  show (v.toModel.unpack.compare (0 : Float).toModel.unpack == some .eq) = true ↔ _
  rw [unpack_toModel h, hzero, unpacked]
  by_cases hinfinity : magnitude v = Binary64.infinity
  · rw [if_pos hinfinity, hinfinity]
    cases isNegative v <;> decide
  · rw [if_neg hinfinity]
    split
    · next hzero => simp [hzero, Float.Model.UnpackedFloat.compare]
    · next hne =>
      cases isNegative v <;> simp [hne, signOf, Float.Model.UnpackedFloat.compare]

end Number

end Formula
