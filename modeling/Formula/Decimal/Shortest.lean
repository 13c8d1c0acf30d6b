import Formula.Decimal.Binary64

/-!
# Shortest decimals

Every finite positive double has a decimal with the fewest significant digits among those that
round to it. It lies on the coarsest grid of powers of ten that has a point among the reals that
round to the double.

## Main definitions

- `Binary64.floorOn`: the last grid point that is not above the double
- `Binary64.onGrid?`: the grid point that reads as the double, if there is one
- `Binary64.shortest`: the decimal on the coarsest such grid

## Design notes

A grid that has a point among the reals that round to the double has one next to the double, so
only its two neighbours are tested. The search starts at a power of ten above the double and goes
down to `10 ^ (-1074)`, on which the double itself lies.
-/

namespace Formula

namespace Binary64

/-- How many times `10 ^ exponent` goes into the double with pattern `n`. -/
def floorOn (n : Nat) (exponent : Int) : Nat :=
  units n * Nat.pow 10 (-exponent).toNat / (Nat.pow 2 1074 * Nat.pow 10 exponent.toNat)

/-- The double with pattern `n` is less than halfway from `low * 10 ^ exponent` to the next grid
point. -/
def belowMiddle (n low : Nat) (exponent : Int) : Bool :=
  2 * units n * Nat.pow 10 (-exponent).toNat <
    (2 * low + 1) * Nat.pow 2 1074 * Nat.pow 10 exponent.toNat

/-- The multiple of `10 ^ exponent` that reads as pattern `n`. Of two the nearer one is taken, and
the greater one if both are equally near. -/
def onGrid? (n : Nat) (exponent : Int) : Option Decimal :=
  let low := floorOn n exponent
  match readsAs ⟨low, exponent⟩ n, readsAs ⟨low + 1, exponent⟩ n with
  | true, true => some ⟨if belowMiddle n low exponent then low else low + 1, exponent⟩
  | true, false => some ⟨low, exponent⟩
  | false, true => some ⟨low + 1, exponent⟩
  | false, false => none

/-- Tries the grids from `10 ^ (steps - 1074)` downwards and ends with the exact value. -/
def search (n : Nat) : Nat → Decimal
  | 0 => ⟨units n * Nat.pow 5 1074, -1074⟩
  | steps + 1 =>
    match onGrid? n ((steps + 1 : Nat) - 1074) with
    | some d => d
    | none => search n steps

/-- The decimal with the fewest digits that reads as pattern `n`. The first grid is that of the
power of ten above the whole part of the double. -/
def shortest (n : Nat) : Decimal :=
  search n ((Decimal.numeral (units n / Nat.pow 2 1074)).length + 1074)

end Binary64

end Formula
