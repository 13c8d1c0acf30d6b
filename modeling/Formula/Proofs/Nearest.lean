import Formula.Proofs.Value

/-!
# Rounding to the nearest double

The search for the nearest double finds the last pattern that a decimal reaches. So a decimal is
read as a finite double exactly if it lies in the interval of that double.

## Main statements

- `Binary64.le_descend_iff`: the search bit by bit ends at the last pattern reached
- `Binary64.le_nearest_iff`: the patterns up to the nearest one are those reached
- `Binary64.nearest_eq_iff`: the nearest finite pattern is the one that a decimal reads as
-/

namespace Formula

namespace Binary64

variable {d : Decimal} {base bits n : ℕ}

/-! ### The search -/

theorem pow_succ_two (bits : ℕ) : Nat.pow 2 (bits + 1) = Nat.pow 2 bits + Nat.pow 2 bits := by
  have hdouble : Nat.pow 2 (bits + 1) = Nat.pow 2 bits * 2 := Nat.pow_succ 2 bits
  omega

theorem descend_lt (d : Decimal) (bits base : ℕ) :
    descend d bits base < base + Nat.pow 2 bits := by
  induction bits generalizing base with
  | zero => exact Nat.lt_succ_self base
  | succ bits ih =>
    rw [descend, pow_succ_two]
    split
    · have hupper := ih (base + Nat.pow 2 bits)
      omega
    · have hlower := ih base
      omega

/-- The search ends at the last pattern that the decimal reaches. -/
theorem le_descend_iff (hbase : reaches d base = true) (hlt : n < base + Nat.pow 2 bits) :
    n ≤ descend d bits base ↔ reaches d n = true := by
  induction bits generalizing base with
  | zero =>
    have hle : n ≤ base := Nat.le_of_lt_succ hlt
    exact iff_of_true hle (reaches_of_le hbase hle)
  | succ bits ih =>
    rw [pow_succ_two] at hlt
    rw [descend]
    split
    · next hupper => exact ih hupper (by omega)
    · next hupper =>
      rcases Nat.lt_or_ge n (base + Nat.pow 2 bits) with hlower | hge
      · exact ih hbase hlower
      · -- neither the search nor the decimal gets as far as the upper half
        have hend := descend_lt d bits base
        refine iff_of_false (by omega) fun hreaches => hupper ?_
        exact reaches_of_le hreaches hge

theorem reaches_zero (d : Decimal) : reaches d 0 = true := by
  have hboundary : boundary 0 = 0 := rfl
  rw [reaches, hboundary, Nat.zero_mul, if_pos rfl]
  exact decide_eq_true (Nat.zero_le _)

/-! ### The finite range -/

/-- Two powers of ten outside the range of the finite doubles. -/
theorem reaches_powers : reaches ⟨1, 309⟩ infinity = true ∧ reaches ⟨1, -324⟩ 1 = false := by
  decide +kernel

/-- A decimal from `10 ^ 309` on is beyond the finite doubles. -/
theorem reaches_of_power_le (h : 10 ^ (309 : ℤ) ≤ d.value) (hn : n ≤ infinity) :
    reaches d n = true := by
  have hinfinity : reaches d infinity = true :=
    reaches_of_value_le reaches_powers.1 (by rwa [Decimal.value_power])
  exact reaches_of_le hinfinity hn

/-- A decimal that reaches more than zero is greater than `10 ^ (-324)`. -/
theorem power_lt_of_reaches (h : reaches d n = true) (hpos : 0 < n) :
    10 ^ (-324 : ℤ) < d.value := by
  by_contra hle
  rw [not_lt, ← Decimal.value_power] at hle
  have hone := reaches_of_value_le (reaches_of_le h hpos) hle
  rw [reaches_powers.2] at hone
  cases hone

theorem value_lt_power_of_readsAs (h : readsAs d n = true) (hn : n < infinity) :
    d.value < 10 ^ (309 : ℤ) := by
  rw [← Decimal.value_power]
  exact value_lt_of_readsAs h reaches_powers.1 hn

/-! ### The nearest double -/

theorem nearest_le_infinity (d : Decimal) : nearest d ≤ infinity := by
  unfold nearest
  split
  · exact Nat.zero_le _
  · split
    · exact Nat.le_refl _
    · split
      · exact Nat.zero_le _
      · exact Nat.min_le_left _ _

/-- The patterns up to the nearest one are those that a decimal reaches. -/
theorem le_nearest_iff (hn : n ≤ infinity) : n ≤ nearest d ↔ reaches d n = true := by
  rcases Nat.eq_zero_or_pos n with rfl | hpos
  · exact iff_of_true (Nat.zero_le _) (reaches_zero d)
  -- far outside the finite range the answer is given without the search, but it is the same
  unfold nearest
  split
  · next hzero =>
    refine iff_of_false (by omega) fun hreaches => ?_
    exact digits_ne_zero_of_reaches hreaches hpos hzero
  · next hdigits =>
    split
    · next hlarge =>
      refine iff_of_true hn (reaches_of_power_le ?_ hn)
      calc (10 : ℚ) ^ (309 : ℤ) ≤ 10 ^ d.leadingExponent :=
            zpow_le_zpow_right₀ (by norm_num) (by omega)
        _ ≤ d.value := Decimal.leadingExponent_le_value hdigits
    · split
      · next hsmall =>
        refine iff_of_false (by omega) fun hreaches => ?_
        have hexponent := Decimal.le_leadingExponent (power_lt_of_reaches hreaches hpos)
        omega
      · have hinfinity : infinity < 0 + Nat.pow 2 63 := by decide
        rw [Nat.le_min, and_iff_right hn]
        exact le_descend_iff (reaches_zero d) (by omega)

/-- A decimal is nearest to the finite double in whose interval it lies. -/
theorem nearest_eq_iff (hn : n < infinity) : nearest d = n ↔ readsAs d n = true := by
  rw [readsAs_iff, ← le_nearest_iff hn.le, ← Bool.not_eq_true, ← le_nearest_iff hn]
  omega

end Binary64

end Formula
