import Formula.Proofs.Nearest
import Mathlib.Data.Int.Log

/-!
# The coarsest grid

The shortest decimal of a double lies on the coarsest grid of powers of ten that has a point in
the interval of the double. Therefore no other decimal that reads as the double has fewer digits.

## Main statements

- `Binary64.exists_onGrid?`: a grid with a point in the interval has one next to the double
- `Binary64.le_exponent_shortest`: no coarser grid has a point in the interval
- `Binary64.digits_shortest_lt`: no decimal that reads as the double has fewer digits
- `Binary64.length_numeral_shortest`: seventeen digits are enough
-/

namespace Formula

namespace Binary64

variable {d : Decimal} {digits n p : ℕ} {e : ℤ}

/-! ### Grid points next to a double -/

theorem floorOn_le (n : ℕ) (e : ℤ) : (Decimal.mk (floorOn n e) e).value ≤ value n := by
  have hdenominator : (0 : ℚ) < (Decimal.mk (floorOn n e) e).denominator :=
    Nat.cast_pos.mpr (denominator_pos _)
  rw [Decimal.value_eq_div, value, div_le_div_iff₀ hdenominator (scale_pos 1074)]
  unfold Decimal.numerator Decimal.denominator floorOn
  dsimp only
  generalize 1074 = k
  rw [scale]
  norm_cast
  rw [Nat.mul_assoc, Nat.mul_comm (Nat.pow 10 e.toNat)]
  exact Nat.div_mul_le_self _ _

theorem lt_floorOn_succ (n : ℕ) (e : ℤ) :
    value n < (Decimal.mk (floorOn n e + 1) e).value := by
  have hdenominator : (0 : ℚ) < (Decimal.mk (floorOn n e + 1) e).denominator :=
    Nat.cast_pos.mpr (denominator_pos _)
  rw [Decimal.value_eq_div, value, div_lt_div_iff₀ (scale_pos 1074) hdenominator]
  unfold Decimal.numerator Decimal.denominator floorOn
  dsimp only
  generalize 1074 = k
  rw [scale]
  norm_cast
  have hpos : 0 < Nat.pow 2 k * Nat.pow 10 e.toNat :=
    Nat.mul_pos (Nat.pow_pos (by decide)) (Nat.pow_pos (by decide))
  rw [Nat.mul_assoc, Nat.mul_comm (Nat.pow 10 e.toNat), Nat.mul_comm (_ + 1)]
  exact Nat.lt_mul_div_succ _ hpos

/-- If a grid point reads as a double, then one of the two next to the double does. -/
theorem readsAs_floorOn_or (hpos : 0 < n) (h : readsAs ⟨digits, e⟩ n = true) :
    readsAs ⟨floorOn n e, e⟩ n = true ∨ readsAs ⟨floorOn n e + 1, e⟩ n = true := by
  rcases Nat.lt_or_ge (floorOn n e) digits with habove | hbelow
  · right
    apply readsAs_of_value_le hpos h
    · exact (lt_floorOn_succ n e).le
    · exact Decimal.value_le_value e habove
  · left
    apply readsAs_of_le_value h
    · exact Decimal.value_le_value e hbelow
    · exact floorOn_le n e

theorem exists_onGrid? (hpos : 0 < n) (h : readsAs ⟨digits, e⟩ n = true) :
    ∃ d, onGrid? n e = some d := by
  have hnext := readsAs_floorOn_or hpos h
  simp only [onGrid?]
  split
  · exact ⟨_, rfl⟩
  · exact ⟨_, rfl⟩
  · exact ⟨_, rfl⟩
  · next hlow hhigh => simp [hlow, hhigh] at hnext

theorem exponent_of_onGrid? (h : onGrid? n e = some d) : d.exponent = e := by
  simp only [onGrid?] at h
  split at h <;> cases h <;> rfl

/-! ### The search for the coarsest grid -/

/-- The search passes over no grid with a point in the interval. -/
theorem le_exponent_search (hpos : 0 < n) (h : readsAs ⟨digits, e⟩ n = true) {steps : ℕ}
    (hsteps : e ≤ steps - 1074) : e ≤ (search n steps).exponent := by
  induction steps with
  | zero => exact hsteps
  | succ steps ih =>
    rw [search]
    split
    · next hgrid =>
      rw [exponent_of_onGrid? hgrid]
      exact hsteps
    · next hgrid =>
      apply ih
      have hne : e ≠ (steps + 1 : ℕ) - 1074 := by
        rintro rfl
        obtain ⟨d, hd⟩ := exists_onGrid? hpos h
        rw [hgrid] at hd
        cases hd
      omega

/-- The next double is at most twice as large. -/
theorem value_succ_le (hpos : 0 < n) : value (n + 1) ≤ 2 * value n := by
  have hunits : units (n + 1) ≤ 2 * units n := by
    have hulp := ulp_le_units hpos
    rw [units_succ]
    omega
  have hcast : (units (n + 1) : ℚ) ≤ 2 * units n := by exact_mod_cast hunits
  rw [value, value, ← mul_div_assoc]
  exact div_le_div_of_nonneg_right hcast (scale_pos 1074).le

/-- A double is less than the power of ten with as many zeros as its whole part has digits. -/
theorem value_lt_power (n : ℕ) :
    value n < 10 ^ (Decimal.numeral (units n / Nat.pow 2 1074)).length := by
  rw [value, div_lt_iff₀ (scale_pos 1074)]
  generalize 1074 = k
  have hscale : 0 < Nat.pow 2 k := Nat.pow_pos (by decide)
  have hwhole := Decimal.lt_power_length_numeral (units n / Nat.pow 2 k)
  rw [scale]
  exact_mod_cast (Nat.div_lt_iff_lt_mul hscale).mp hwhole

/-- The first grid of the search is coarse enough. -/
theorem exponent_le_of_readsAs (hpos : 0 < n) (h : readsAs ⟨digits, e⟩ n = true) :
    e ≤ (Decimal.numeral (units n / Nat.pow 2 1074)).length := by
  -- a point on a coarser grid is ten times as large as the double, whose interval ends sooner
  by_contra hlt
  rw [not_le] at hlt
  have hpower := value_lt_power n
  generalize (Decimal.numeral (units n / Nat.pow 2 1074)).length = length at hlt hpower
  obtain ⟨-, hsucc⟩ := readsAs_iff.mp h
  have hdigits : 10 ^ 0 ≤ digits := Nat.pos_of_ne_zero (digits_ne_zero_of_readsAs h hpos)
  have hlower : (10 : ℚ) ^ (length + 1) ≤ (Decimal.mk digits e).value := by
    calc (10 : ℚ) ^ (length + 1) = 10 ^ (length + 1 : ℤ) := by norm_cast
      _ ≤ 10 ^ ((0 : ℕ) + e) := zpow_le_zpow_right₀ (by norm_num) (by omega)
      _ ≤ (Decimal.mk digits e).value := Decimal.le_value hdigits
  have hupper : (Decimal.mk digits e).value ≤ limit (n + 1) := by
    by_contra hgt
    rw [reaches_of_limit_lt (not_le.mp hgt)] at hsucc
    cases hsucc
  have hdouble := value_succ_le hpos
  rw [limit_eq, Nat.add_sub_cancel] at hupper
  rw [pow_succ] at hlower
  have hpositive : (0 : ℚ) < 10 ^ length := by positivity
  linarith

/-- No grid coarser than that of the shortest decimal has a point in the interval. -/
theorem le_exponent_shortest (hpos : 0 < n) (h : readsAs ⟨digits, e⟩ n = true) :
    e ≤ (shortest n).exponent := by
  apply le_exponent_search hpos h
  rw [Nat.cast_add, Nat.cast_ofNat, add_sub_cancel_right]
  exact exponent_le_of_readsAs hpos h

/-- A decimal that reads as a double has no fewer digits than the shortest one. -/
theorem digits_shortest_lt (hpos : 0 < n) (h : readsAs ⟨digits, e⟩ n = true)
    (hdigits : digits < 10 ^ p) : (shortest n).digits < 10 ^ p := by
  by_contra hge
  have hexponent := le_exponent_shortest hpos h
  -- otherwise a power of ten lies between the two, on a grid that is too coarse
  have hpower : readsAs ⟨1, p + (shortest n).exponent⟩ n = true := by
    apply readsAs_of_between h (readsAs_shortest hpos)
    · rw [Decimal.value_power]
      calc (Decimal.mk digits e).value ≤ 10 ^ (p + e) := (Decimal.value_lt hdigits).le
        _ ≤ 10 ^ (p + (shortest n).exponent) :=
          zpow_le_zpow_right₀ (by norm_num) (by omega)
    · rw [Decimal.value_power]
      exact Decimal.le_value (not_lt.mp hge)
  have hp : p = 0 := by
    have hle := le_exponent_shortest hpos hpower
    omega
  rw [hp, pow_zero] at hdigits
  exact digits_ne_zero_of_readsAs h hpos (Nat.lt_one_iff.mp hdigits)

/-! ### Seventeen digits -/

/-- A double is small against its interval times ten to the sixteenth power. -/
theorem units_lt_gap (n : ℕ) : 2 * units (n + 1) < (ulp n + ulp (n + 1)) * 10 ^ 16 := by
  have hpow : Nat.pow 2 52 = 4503599627370496 := rfl
  have hpos : 0 < ulp n := ulp_pos n
  have hbound : units (n + 1) ≤ (4503599627370496 + (n + 1) % 4503599627370496) * ulp (n + 1) := by
    simp only [units, ulp, hpow]
    split
    · next hzero =>
      rw [hzero]
      show _ ≤ _ * 1
      omega
    · exact Nat.le_refl _
  by_cases hfirst : (n + 1) % 4503599627370496 = 0
  · -- the neighbour below may be nearer, but the fraction is zero
    rw [hfirst] at hbound
    omega
  · -- both neighbours are equally far away
    have hsame : ulp (n + 1) = ulp n := by
      have hexponent : (n + 1) / 4503599627370496 = n / 4503599627370496 := by omega
      rw [ulp, ulp, hpow, hexponent]
    have hfraction : 4503599627370496 + (n + 1) % 4503599627370496 ≤ 9007199254740991 := by omega
    have hmul := Nat.mul_le_mul_right (ulp (n + 1)) hfraction
    omega

theorem value_lt_gap (hpos : 0 < n) : value n < (limit (n + 1) - limit n) * 10 ^ 16 := by
  obtain ⟨m, rfl⟩ := Nat.exists_eq_succ_of_ne_zero hpos.ne'
  have hgap : 2 * units (m + 1) < (boundary (m + 2) - boundary (m + 1)) * 10 ^ 16 := by
    have hunits := units_lt_gap m
    have hdistance : boundary (m + 2) - boundary (m + 1) = ulp m + ulp (m + 1) := by
      show units (m + 1) + units (m + 2) - (units m + units (m + 1)) = _
      rw [units_succ (m + 1), units_succ m]
      omega
    rwa [hdistance]
  have hle : boundary (m + 1) ≤ boundary (m + 2) := (boundary_lt_boundary (by omega)).le
  have hcast : (2 : ℚ) * units (m + 1) < (boundary (m + 2) - boundary (m + 1)) * 10 ^ 16 := by
    rw [← Nat.cast_sub hle]
    exact_mod_cast hgap
  rw [Nat.succ_eq_add_one, value, limit, limit, ← sub_div, div_mul_eq_mul_div,
    div_lt_div_iff₀ (scale_pos 1074) (scale_pos 1075), scale_succ]
  calc units (m + 1) * (scale 1074 * 2) = 2 * units (m + 1) * scale 1074 := by ring
    _ < (boundary (m + 2) - boundary (m + 1)) * 10 ^ 16 * scale 1074 :=
      mul_lt_mul_of_pos_right hcast (scale_pos 1074)

/-- A positive double lies between two neighbouring powers of ten. -/
theorem exists_power_le_value (hpos : 0 < n) :
    ∃ e : ℤ, 10 ^ 16 * 10 ^ e ≤ value n ∧ value n < 10 ^ ((17 : ℕ) + e) := by
  have hvalue : 0 < value n := (value_nonneg 0).trans_lt (value_lt_value hpos)
  refine ⟨Int.log 10 (value n) - 16, ?_, ?_⟩
  · have hle := Int.zpow_log_le_self (b := 10) (by decide) hvalue
    rw [← zpow_natCast, ← zpow_add₀ (by norm_num)]
    simpa using hle
  · have hlt := Int.lt_zpow_succ_log_self (b := 10) (by decide) (value n)
    have hexponent : ((17 : ℕ) : ℤ) + (Int.log 10 (value n) - 16) = Int.log 10 (value n) + 1 := by
      omega
    rw [hexponent]
    exact hlt

/-- Every positive double has a decimal of seventeen digits that reads as it. -/
theorem exists_readsAs_lt (hpos : 0 < n) : ∃ d, readsAs d n = true ∧ d.digits < 10 ^ 17 := by
  obtain ⟨e, hlower, hupper⟩ := exists_power_le_value hpos
  have hstep : (10 : ℚ) ^ e < limit (n + 1) - limit n := by
    have hgap := value_lt_gap hpos
    linarith
  have hdigits : floorOn n e < 10 ^ 17 := by
    by_contra hge
    have hle := Decimal.le_value (d := ⟨floorOn n e, e⟩) (not_lt.mp hge)
    exact absurd (hle.trans (floorOn_le n e)) (not_le.mpr hupper)
  rcases lt_or_ge (limit n) (Decimal.mk (floorOn n e) e).value with hinside | houtside
  · exact ⟨_, readsAs_iff.mpr ⟨reaches_of_limit_lt hinside, not_reaches_succ (floorOn_le n e)⟩,
      hdigits⟩
  · -- the grid point below is outside, and a step is less than the width of the interval
    have hnext : readsAs ⟨floorOn n e + 1, e⟩ n = true := by
      refine readsAs_iff.mpr ⟨reaches_of_le_value hpos (lt_floorOn_succ n e).le, ?_⟩
      apply not_reaches_of_lt_limit
      rw [Decimal.value_succ]
      linarith
    rcases (Nat.succ_le_of_lt hdigits).lt_or_eq with hlt | heq
    · exact ⟨_, hnext, hlt⟩
    · -- a power of ten needs one digit
      refine ⟨⟨1, (17 : ℕ) + e⟩, readsAs_of_value_eq_value hnext ?_, by norm_num⟩
      have hcast : ((floorOn n e + 1 : ℕ) : ℚ) = 10 ^ 17 := by exact_mod_cast heq
      rw [Decimal.value_power, zpow_add₀ (by norm_num), zpow_natCast, Decimal.value, hcast]

/-- The shortest decimal has at most seventeen digits. -/
theorem length_numeral_shortest (hpos : 0 < n) :
    (Decimal.numeral (shortest n).digits).length ≤ 17 := by
  obtain ⟨⟨digits, e⟩, hreads, hdigits⟩ := exists_readsAs_lt hpos
  exact (Decimal.length_numeral_le_iff (by decide)).mpr (digits_shortest_lt hpos hreads hdigits)

end Binary64

end Formula
