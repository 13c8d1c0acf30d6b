import Formula.Decimal

/-!
# Decimals and doubles

The non-negative doubles are numbered by their bit patterns: pattern `0` is zero, the patterns
below `infinity` are the finite doubles in increasing order, and `infinity` itself stands where
the next double would be if the exponent range went on. All comparisons of a decimal with a
double are made exactly, between natural numbers.

## Main definitions

- `Binary64.units`: the value of a pattern in units of the least positive double
- `Binary64.reaches`: a decimal rounds to a given double or a greater one
- `Binary64.readsAs`: a decimal lies among the reals that round to a given double
- `Binary64.nearest`: the pattern that a decimal rounds to, ties to even

## Design notes

The boundary between two neighbouring doubles is halfway between them and belongs to the one with
the even pattern. `reaches` tests one boundary; the reals that round to pattern `n` reach `n` and
do not reach `n + 1`. This one test serves printing and reading alike.
-/

namespace Formula

namespace Binary64

/-- The pattern of positive infinity. -/
def infinity : Nat := 0x7FF * Nat.pow 2 52

/-- The value of pattern `n`, in units of `2 ^ (-1074)`, the least positive double. -/
def units (n : Nat) : Nat :=
  let exponent := n / Nat.pow 2 52
  let fraction := n % Nat.pow 2 52
  if exponent = 0 then fraction else (Nat.pow 2 52 + fraction) * Nat.pow 2 (exponent - 1)

/-- Twice the boundary between pattern `n` and the one before it, in the same units. -/
def boundary (n : Nat) : Nat :=
  units (n - 1) + units n

/-- The decimal `d` is at least the boundary below pattern `n`, so that it rounds to `n` or more.
On the boundary itself the even pattern wins. -/
def reaches (d : Decimal) (n : Nat) : Bool :=
  let value := d.numerator * Nat.pow 2 1075
  let bound := boundary n * d.denominator
  if n % 2 = 0 then bound ≤ value else bound < value

/-- The decimal `d` rounds to pattern `n`. -/
def readsAs (d : Decimal) (n : Nat) : Bool :=
  reaches d n && !reaches d (n + 1)

/-- The greatest pattern below `2 ^ bits` above `base` that `d` reaches, found bit by bit. -/
def descend (d : Decimal) : Nat → Nat → Nat
  | 0, base => base
  | bits + 1, base =>
    if reaches d (base + Nat.pow 2 bits) then
      descend d bits (base + Nat.pow 2 bits)
    else
      descend d bits base

/-- The pattern nearest to `d`, ties to even. From the boundary above the greatest finite double
on this is `infinity`. Decimals beyond `10 ^ 310` or below `10 ^ (-330)` are far outside the
finite range and are settled without computing their value. -/
def nearest (d : Decimal) : Nat :=
  if d.digits = 0 then 0
  else if 310 ≤ d.leadingExponent then infinity
  else if d.leadingExponent < -330 then 0
  else min infinity (descend d 63 0)

end Binary64

end Formula
