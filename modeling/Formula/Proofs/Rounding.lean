import Formula.Decimal.Shortest

/-!
# Rounding to doubles

The boundaries between neighbouring doubles increase, so a decimal rounds to one double only. The
shortest decimal of a double is found by testing that it rounds to it, and where every test fails
the exact value of the double is left.

## Main definitions

- `Binary64.ulp`: the distance from a pattern to the next one

## Main statements

- `Binary64.eq_of_readsAs`: a decimal rounds to at most one double
- `Binary64.readsAs_shortest`: the shortest decimal of a double rounds to it
-/

namespace Formula

namespace Binary64

/-! ### Doubles in increasing order -/

/-- The distance from pattern `n` to the next one. -/
def ulp (n : Nat) : Nat :=
  Nat.pow 2 (n / Nat.pow 2 52 - 1)

theorem ulp_pos (n : Nat) : 0 < ulp n :=
  Nat.pow_pos (by decide)

theorem units_succ (n : Nat) : units (n + 1) = units n + ulp n := by
  have hpow : Nat.pow 2 52 = 4503599627370496 := rfl
  simp only [units, ulp, hpow]
  -- the next pattern has the next fraction, or the first one of the next exponent
  by_cases hlast : n % 4503599627370496 = 4503599627370495
  · have hexponent : (n + 1) / 4503599627370496 = n / 4503599627370496 + 1 := by omega
    have hfraction : (n + 1) % 4503599627370496 = 0 := by omega
    rw [hexponent, hfraction, if_neg (Nat.succ_ne_zero _), Nat.add_sub_cancel, hlast]
    split
    · next hzero => rw [hzero]
    · next hne =>
      obtain ⟨e, he⟩ := Nat.exists_eq_succ_of_ne_zero hne
      have hdouble : Nat.pow 2 (e + 1) = Nat.pow 2 e * 2 := Nat.pow_succ 2 e
      rw [he, Nat.succ_sub_one, hdouble]
      omega
  · have hexponent : (n + 1) / 4503599627370496 = n / 4503599627370496 := by omega
    have hfraction : (n + 1) % 4503599627370496 = n % 4503599627370496 + 1 := by omega
    rw [hexponent, hfraction]
    split
    · next hzero => rw [hzero]
    · rw [← Nat.add_assoc, Nat.add_mul, Nat.one_mul]

/-- No positive double is less than the distance to the next one. -/
theorem ulp_le_units {n : Nat} (hpos : 0 < n) : ulp n ≤ units n := by
  have hpow : Nat.pow 2 52 = 4503599627370496 := rfl
  simp only [units, ulp, hpow]
  split
  · next hzero =>
    rw [hzero]
    show 1 ≤ n % 4503599627370496
    omega
  · exact Nat.le_mul_of_pos_left _ (by omega)

theorem units_lt_units_succ (n : Nat) : units n < units (n + 1) := by
  have hpos : 0 < ulp n := ulp_pos n
  rw [units_succ]
  omega

theorem units_lt_units {m n : Nat} (h : m < n) : units m < units n := by
  induction h with
  | refl => exact units_lt_units_succ m
  | step _ ih => exact Nat.lt_trans ih (units_lt_units_succ _)

theorem units_le_units {m n : Nat} (h : m ≤ n) : units m ≤ units n := by
  rcases Nat.eq_or_lt_of_le h with rfl | hlt
  · exact Nat.le_refl _
  · exact Nat.le_of_lt (units_lt_units hlt)

theorem boundary_lt_boundary {m n : Nat} (h : m < n) : boundary m < boundary n := by
  have hbelow : units (m - 1) ≤ units (n - 1) := units_le_units (by omega)
  have habove : units m < units n := units_lt_units h
  unfold boundary
  omega

/-! ### Decimals and the doubles that they reach -/

/-- Whether a decimal reaches a double depends on nothing but its value as a fraction. -/
theorem reaches_congr {d d' : Decimal} (hnumerator : d.numerator = d'.numerator)
    (hdenominator : d.denominator = d'.denominator) (n : Nat) : reaches d n = reaches d' n := by
  unfold reaches
  rw [hnumerator, hdenominator]

theorem readsAs_congr {d d' : Decimal} (hnumerator : d.numerator = d'.numerator)
    (hdenominator : d.denominator = d'.denominator) (n : Nat) : readsAs d n = readsAs d' n := by
  unfold readsAs
  rw [reaches_congr hnumerator hdenominator, reaches_congr hnumerator hdenominator]

theorem denominator_pos (d : Decimal) : 0 < d.denominator :=
  Nat.pow_pos (by decide)

theorem le_of_reaches {d : Decimal} {n : Nat} (h : reaches d n = true) :
    boundary n * d.denominator ≤ d.numerator * Nat.pow 2 1075 := by
  unfold reaches at h
  split at h
  · exact of_decide_eq_true h
  · exact Nat.le_of_lt (of_decide_eq_true h)

theorem reaches_of_lt {d : Decimal} {n : Nat}
    (h : boundary n * d.denominator < d.numerator * Nat.pow 2 1075) : reaches d n = true := by
  unfold reaches
  split
  · exact decide_eq_true (Nat.le_of_lt h)
  · exact decide_eq_true h

/-- A decimal that reaches a double reaches all lesser ones. -/
theorem reaches_of_le {d : Decimal} {m n : Nat} (h : reaches d n = true) (hle : m ≤ n) :
    reaches d m = true := by
  rcases Nat.eq_or_lt_of_le hle with rfl | hlt
  · exact h
  · have hbound : boundary m * d.denominator < boundary n * d.denominator :=
      Nat.mul_lt_mul_of_pos_right (boundary_lt_boundary hlt) (denominator_pos d)
    exact reaches_of_lt (Nat.lt_of_lt_of_le hbound (le_of_reaches h))

theorem readsAs_iff {d : Decimal} {n : Nat} :
    readsAs d n = true ↔ reaches d n = true ∧ reaches d (n + 1) = false := by
  simp [readsAs]

theorem reaches_of_readsAs {d : Decimal} {n : Nat} (h : readsAs d n = true) :
    reaches d n = true :=
  (readsAs_iff.mp h).1

/-- A decimal rounds to at most one double. -/
theorem eq_of_readsAs {d : Decimal} {m n : Nat} (hm : readsAs d m = true)
    (hn : readsAs d n = true) : m = n := by
  obtain ⟨hm, hm'⟩ := readsAs_iff.mp hm
  obtain ⟨hn, hn'⟩ := readsAs_iff.mp hn
  rcases Nat.lt_trichotomy m n with hlt | heq | hlt
  · rw [reaches_of_le hn hlt] at hm'
    cases hm'
  · exact heq
  · rw [reaches_of_le hm hlt] at hn'
    cases hn'

/-! ### The shortest decimal -/

/-- A multiple of `2 ^ (-k)` is a decimal with `k` places. -/
theorem exact_value (u : Nat) {k m : Nat} {e : Int} (he : e = -k) (hm : m = k + 1) :
    (Decimal.mk (u * Nat.pow 5 k) e).numerator * Nat.pow 2 m =
      2 * u * (Decimal.mk (u * Nat.pow 5 k) e).denominator := by
  have hwhole : e.toNat = 0 := by omega
  have hplaces : (-e).toNat = k := by omega
  have hten : Nat.pow 10 k = Nat.pow 2 k * Nat.pow 5 k := Nat.mul_pow 2 5 k
  have hdouble : Nat.pow 2 m = Nat.pow 2 k * 2 := hm ▸ Nat.pow_succ 2 k
  have hone : Nat.pow 10 0 = 1 := rfl
  simp only [Decimal.numerator, Decimal.denominator, hwhole, hplaces, hten, hdouble, hone,
    Nat.mul_one]
  ac_rfl

/-- The value of a double lies between the boundaries on its two sides. -/
theorem readsAs_of_value_eq {d : Decimal} {n : Nat} (hpos : 0 < n)
    (hvalue : d.numerator * Nat.pow 2 1075 = 2 * units n * d.denominator) :
    readsAs d n = true := by
  have hbelow : units (n - 1) < units n := units_lt_units (by omega)
  have habove : units n < units (n + 1) := units_lt_units_succ n
  refine readsAs_iff.mpr ⟨reaches_of_lt ?_, ?_⟩
  · have hbound : boundary n < 2 * units n := by
      unfold boundary
      omega
    rw [hvalue]
    exact Nat.mul_lt_mul_of_pos_right hbound (denominator_pos d)
  · have hbound : 2 * units n < boundary (n + 1) := by
      rw [boundary, Nat.add_sub_cancel]
      omega
    refine Bool.eq_false_iff.mpr fun hreaches => ?_
    have hle := le_of_reaches hreaches
    rw [hvalue] at hle
    exact Nat.not_le_of_lt (Nat.mul_lt_mul_of_pos_right hbound (denominator_pos d)) hle

theorem readsAs_of_onGrid? {n : Nat} {exponent : Int} {d : Decimal}
    (h : onGrid? n exponent = some d) : readsAs d n = true := by
  simp only [onGrid?] at h
  split at h
  · next hlow hhigh =>
    cases h
    split
    · exact hlow
    · exact hhigh
  · next hlow _ =>
    cases h
    exact hlow
  · next _ hhigh =>
    cases h
    exact hhigh
  · cases h

theorem readsAs_search {n : Nat} (hpos : 0 < n) (steps : Nat) :
    readsAs (search n steps) n = true := by
  induction steps with
  | zero =>
    rw [search]
    apply readsAs_of_value_eq hpos
    apply exact_value
    · rfl
    · rfl
  | succ steps ih =>
    rw [search]
    split
    · next hgrid => exact readsAs_of_onGrid? hgrid
    · exact ih

theorem readsAs_shortest {n : Nat} (hpos : 0 < n) : readsAs (shortest n) n = true :=
  readsAs_search hpos _

end Binary64

end Formula
