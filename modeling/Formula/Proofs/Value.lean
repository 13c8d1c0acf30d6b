import Formula.Proofs.Numeral
import Formula.Proofs.Rounding
import Mathlib.Algebra.Order.Field.Power
import Mathlib.Algebra.Order.Floor.Semifield
import Mathlib.Data.Rat.Floor
import Mathlib.Tactic.FieldSimp
import Mathlib.Tactic.Linarith
import Mathlib.Tactic.Positivity

/-!
# The values of decimals and of doubles

Decimals and the patterns of doubles stand for rational numbers. The reals that round to a double
form an interval around its value, and a decimal in that interval reads as the double.

## Main definitions

- `Decimal.value`, `Binary64.value`: the rational number that is meant
- `Binary64.limit`: the boundary between a pattern and the one before it

## Main statements

- `Binary64.reaches_iff`: reaching a pattern is being at or above its limit
- `Binary64.readsAs_of_between`: decimals between two that read alike read as they do
- `Binary64.value_lt_of_readsAs`: decimals of lesser doubles are less
-/

namespace Formula

namespace Decimal

/-- The number that a decimal stands for. -/
def value (d : Decimal) : ℚ :=
  d.digits * 10 ^ d.exponent

variable {d : Decimal} {p : ℕ}

theorem value_eq_div (d : Decimal) : d.value = (d.numerator : ℚ) / d.denominator := by
  have hpow (k : ℕ) : ((Nat.pow 10 k : ℕ) : ℚ) = 10 ^ k := by exact_mod_cast Nat.cast_pow 10 k
  rw [value, numerator, denominator, Nat.cast_mul, hpow, hpow]
  rcases le_or_gt 0 d.exponent with h | h
  · obtain ⟨e, he⟩ := Int.eq_ofNat_of_zero_le h
    simp [he]
  · obtain ⟨e, he⟩ := Int.eq_ofNat_of_zero_le (neg_nonneg.mpr h.le)
    have hexponent : d.exponent = -(e : ℤ) := by omega
    simp [hexponent, div_eq_mul_inv]

@[simp]
theorem value_power (e : ℤ) : (Decimal.mk 1 e).value = 10 ^ e := by
  rw [value, Nat.cast_one, one_mul]

theorem value_le_value {x y : ℕ} (e : ℤ) (h : x ≤ y) :
    (Decimal.mk x e).value ≤ (Decimal.mk y e).value :=
  mul_le_mul_of_nonneg_right (Nat.cast_le.mpr h) (by positivity)

theorem value_succ (x : ℕ) (e : ℤ) :
    (Decimal.mk (x + 1) e).value = (Decimal.mk x e).value + 10 ^ e := by
  rw [value, value, Nat.cast_succ, add_one_mul]

/-- A decimal of at most `p` digits is less than the power of ten that is `p` places further up. -/
theorem value_lt (h : d.digits < 10 ^ p) : d.value < 10 ^ (p + d.exponent) := by
  have hdigits : (d.digits : ℚ) < 10 ^ p := by exact_mod_cast h
  rw [zpow_add₀ (by norm_num), zpow_natCast]
  exact mul_lt_mul_of_pos_right hdigits (by positivity)

theorem le_value (h : 10 ^ p ≤ d.digits) : 10 ^ (p + d.exponent) ≤ d.value := by
  have hdigits : (10 : ℚ) ^ p ≤ d.digits := by exact_mod_cast h
  rw [zpow_add₀ (by norm_num), zpow_natCast]
  exact mul_le_mul_of_nonneg_right hdigits (by positivity)

theorem length_numeral_le_iff {n : ℕ} (hp : 0 < p) : (numeral n).length ≤ p ↔ n < 10 ^ p :=
  Nat.length_toDigits_le_iff (by decide) hp

theorem length_numeral_pos (n : ℕ) : 0 < (numeral n).length :=
  List.length_pos_of_ne_nil (numeral_ne_nil n)

theorem lt_power_length_numeral (n : ℕ) : n < 10 ^ (numeral n).length :=
  (length_numeral_le_iff (length_numeral_pos n)).mp le_rfl

/-- The leading digit tells the power of ten below a decimal and the one above it. -/
theorem value_lt_leadingExponent (d : Decimal) : d.value < 10 ^ (d.leadingExponent + 1) := by
  have hexponent : d.leadingExponent + 1 = (numeral d.digits).length + d.exponent := by
    rw [leadingExponent]
    omega
  rw [hexponent]
  exact value_lt (lt_power_length_numeral d.digits)

theorem leadingExponent_le_value (h : d.digits ≠ 0) : 10 ^ d.leadingExponent ≤ d.value := by
  obtain ⟨p, hp⟩ := Nat.exists_eq_succ_of_ne_zero (length_numeral_pos d.digits).ne'
  have hexponent : d.leadingExponent = p + d.exponent := by
    rw [leadingExponent, hp]
    omega
  rw [hexponent]
  apply le_value
  by_contra hlt
  rw [not_le] at hlt
  rcases Nat.eq_zero_or_pos p with rfl | hpos
  · rw [pow_zero] at hlt
    omega
  · have hlength := (length_numeral_le_iff hpos).mpr hlt
    omega

theorem leadingExponent_lt {k : ℤ} (hdigits : d.digits ≠ 0) (h : d.value < 10 ^ k) :
    d.leadingExponent < k := by
  have hpower : (10 : ℚ) ^ d.leadingExponent < 10 ^ k :=
    (leadingExponent_le_value hdigits).trans_lt h
  exact (zpow_lt_zpow_iff_right₀ (by norm_num)).mp hpower

theorem le_leadingExponent {k : ℤ} (h : 10 ^ k < d.value) : k ≤ d.leadingExponent := by
  have hpower : (10 : ℚ) ^ k < 10 ^ (d.leadingExponent + 1) :=
    h.trans (value_lt_leadingExponent d)
  exact Int.lt_add_one_iff.mp ((zpow_lt_zpow_iff_right₀ (by norm_num)).mp hpower)

end Decimal

namespace Binary64

variable {a b c d : Decimal} {m n : ℕ}

/-! ### Doubles -/

/-- A power of two as a rational number. -/
def scale (k : ℕ) : ℚ :=
  (Nat.pow 2 k : ℕ)

theorem scale_pos (k : ℕ) : 0 < scale k :=
  Nat.cast_pos.mpr (Nat.pow_pos (by decide))

theorem scale_succ (k : ℕ) : scale (k + 1) = scale k * 2 := by
  have hdouble : Nat.pow 2 (k + 1) = Nat.pow 2 k * 2 := Nat.pow_succ 2 k
  rw [scale, scale, hdouble]
  norm_cast

/-- The number that pattern `n` stands for. -/
def value (n : ℕ) : ℚ :=
  units n / scale 1074

/-- The boundary between pattern `n` and the one before it. -/
def limit (n : ℕ) : ℚ :=
  boundary n / scale 1075

/-- The boundary is halfway between the two neighbours. -/
theorem limit_eq (n : ℕ) : limit n = (value (n - 1) + value n) / 2 := by
  have hpos := (scale_pos 1074).ne'
  rw [limit, value, value, boundary, scale_succ, Nat.cast_add]
  field_simp

theorem value_nonneg (n : ℕ) : 0 ≤ value n :=
  div_nonneg (Nat.cast_nonneg _) (scale_pos 1074).le

theorem value_lt_value (h : m < n) : value m < value n :=
  div_lt_div_of_pos_right (Nat.cast_lt.mpr (units_lt_units h)) (scale_pos 1074)

theorem limit_lt_limit (h : m < n) : limit m < limit n :=
  div_lt_div_of_pos_right (Nat.cast_lt.mpr (boundary_lt_boundary h)) (scale_pos 1075)

theorem limit_lt_value (hpos : 0 < n) : limit n < value n := by
  have hbelow : value (n - 1) < value n := value_lt_value (by omega)
  rw [limit_eq]
  linarith

theorem value_lt_limit (n : ℕ) : value n < limit (n + 1) := by
  have habove : value n < value (n + 1) := value_lt_value (Nat.lt_succ_self n)
  rw [limit_eq, Nat.add_sub_cancel]
  linarith

/-! ### Intervals of decimals that read alike -/

/-- Decimals are compared with multiples of a power of two between natural numbers. -/
theorem div_scale_le_value_iff (x k : ℕ) :
    x / scale k ≤ d.value ↔ x * d.denominator ≤ d.numerator * Nat.pow 2 k := by
  have hdenominator : (0 : ℚ) < d.denominator := Nat.cast_pos.mpr (denominator_pos d)
  rw [Decimal.value_eq_div, div_le_div_iff₀ (scale_pos k) hdenominator, scale]
  norm_cast

theorem div_scale_lt_value_iff (x k : ℕ) :
    x / scale k < d.value ↔ x * d.denominator < d.numerator * Nat.pow 2 k := by
  have hdenominator : (0 : ℚ) < d.denominator := Nat.cast_pos.mpr (denominator_pos d)
  rw [Decimal.value_eq_div, div_lt_div_iff₀ (scale_pos k) hdenominator, scale]
  norm_cast

/-- A decimal reaches a pattern from its limit on, and the limit belongs to the even one. -/
theorem reaches_iff :
    reaches d n = true ↔ if n % 2 = 0 then limit n ≤ d.value else limit n < d.value := by
  unfold reaches limit
  generalize 1075 = k
  split
  · rw [decide_eq_true_eq, div_scale_le_value_iff]
  · rw [decide_eq_true_eq, div_scale_lt_value_iff]

theorem limit_le_of_reaches (h : reaches d n = true) : limit n ≤ d.value := by
  rw [reaches_iff] at h
  split at h
  · exact h
  · exact h.le

theorem reaches_of_limit_lt (h : limit n < d.value) : reaches d n = true := by
  rw [reaches_iff]
  split
  · exact h.le
  · exact h

theorem reaches_of_value_le (h : reaches c n = true) (hle : c.value ≤ d.value) :
    reaches d n = true := by
  rw [reaches_iff] at h ⊢
  split at h
  · next heven =>
    rw [if_pos heven]
    exact h.trans hle
  · next hodd =>
    rw [if_neg hodd]
    exact h.trans_le hle

theorem reaches_of_le_value (hpos : 0 < n) (h : value n ≤ d.value) : reaches d n = true :=
  reaches_of_limit_lt ((limit_lt_value hpos).trans_le h)

theorem not_reaches_of_value_le (h : reaches c n = false) (hle : d.value ≤ c.value) :
    reaches d n = false := by
  refine Bool.eq_false_iff.mpr fun hreaches => ?_
  rw [reaches_of_value_le hreaches hle] at h
  cases h

theorem not_reaches_of_lt_limit (h : d.value < limit n) : reaches d n = false :=
  Bool.eq_false_iff.mpr fun hreaches => (limit_le_of_reaches hreaches).not_gt h

theorem not_reaches_succ (h : d.value ≤ value n) : reaches d (n + 1) = false :=
  not_reaches_of_lt_limit (h.trans_lt (value_lt_limit n))

/-- The decimals that read as a double are an interval. -/
theorem readsAs_of_between (ha : readsAs a n = true) (hc : readsAs c n = true)
    (hab : a.value ≤ b.value) (hbc : b.value ≤ c.value) : readsAs b n = true := by
  obtain ⟨hlower, -⟩ := readsAs_iff.mp ha
  obtain ⟨-, hupper⟩ := readsAs_iff.mp hc
  exact readsAs_iff.mpr ⟨reaches_of_value_le hlower hab, not_reaches_of_value_le hupper hbc⟩

/-- The interval of a double contains what lies between one of its decimals and the double. -/
theorem readsAs_of_le_value (ha : readsAs a n = true) (hab : a.value ≤ b.value)
    (hb : b.value ≤ value n) : readsAs b n = true := by
  obtain ⟨hlower, -⟩ := readsAs_iff.mp ha
  exact readsAs_iff.mpr ⟨reaches_of_value_le hlower hab, not_reaches_succ hb⟩

theorem readsAs_of_value_le (hpos : 0 < n) (hc : readsAs c n = true) (hb : value n ≤ b.value)
    (hbc : b.value ≤ c.value) : readsAs b n = true := by
  obtain ⟨-, hupper⟩ := readsAs_iff.mp hc
  exact readsAs_iff.mpr ⟨reaches_of_le_value hpos hb, not_reaches_of_value_le hupper hbc⟩

theorem readsAs_of_value_eq_value (h : readsAs c n = true) (heq : c.value = d.value) :
    readsAs d n = true :=
  readsAs_of_between h h heq.le heq.ge

/-- Decimals of lesser doubles are less. -/
theorem value_lt_of_readsAs (hc : readsAs c m = true) (hd : reaches d n = true) (hlt : m < n) :
    c.value < d.value := by
  by_contra hle
  obtain ⟨-, hupper⟩ := readsAs_iff.mp hc
  have hreaches := reaches_of_value_le (reaches_of_le hd hlt) (not_lt.mp hle)
  rw [hupper] at hreaches
  cases hreaches

/-- Only zero has no digits. -/
theorem digits_ne_zero_of_reaches (h : reaches d n = true) (hpos : 0 < n) : d.digits ≠ 0 := by
  intro hzero
  have hlimit := limit_le_of_reaches h
  have hfirst : limit 0 < limit n := limit_lt_limit hpos
  have hnonneg : 0 ≤ limit 0 := div_nonneg (Nat.cast_nonneg _) (scale_pos 1075).le
  rw [Decimal.value, hzero, Nat.cast_zero, zero_mul] at hlimit
  linarith

theorem digits_ne_zero_of_readsAs (h : readsAs d n = true) (hpos : 0 < n) : d.digits ≠ 0 :=
  digits_ne_zero_of_reaches (reaches_of_readsAs h) hpos

end Binary64

end Formula
