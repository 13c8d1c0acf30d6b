/-!
# Decimal numbers

A non-negative decimal number is a whole number scaled by a power of ten. This module holds the
type, its value as a fraction of natural numbers, and its two notations.

## Main definitions

- `Decimal`: `digits * 10 ^ exponent`
- `Decimal.numerator`, `Decimal.denominator`: the value as a fraction
- `Decimal.positional`: digits with a point, never an exponent
- `Decimal.scientific`: one digit before the point and an exponent
-/

namespace Formula

/-- The decimal number `digits * 10 ^ exponent`. -/
structure Decimal where
  digits : Nat
  exponent : Int
  deriving DecidableEq, Repr

namespace Decimal

/-- The value over `denominator`: the digits times the power of ten of a positive exponent. -/
def numerator (d : Decimal) : Nat :=
  d.digits * Nat.pow 10 d.exponent.toNat

/-- The power of ten that a negative exponent divides by. -/
def denominator (d : Decimal) : Nat :=
  Nat.pow 10 (-d.exponent).toNat

/-- The decimal digits of a natural number, most significant first. -/
def numeral (n : Nat) : List Char :=
  Nat.toDigits 10 n

/-- A number of either sign in decimal digits. -/
def signedNumeral (i : Int) : List Char :=
  if i < 0 then '-' :: numeral i.natAbs else numeral i.natAbs

/-- The exponent of the leading digit: the digits of `d` are worth between `10 ^ e` and
`10 ^ (e + 1)`. -/
def leadingExponent (d : Decimal) : Int :=
  d.exponent + (numeral d.digits).length - 1

/-- Writes `d` without an exponent: zeros are appended for a positive exponent, and a point is
set, with zeros in front of the digits if need be, for a negative one. -/
def positional (d : Decimal) : List Char :=
  let ds := numeral d.digits
  if 0 ≤ d.exponent then
    ds ++ List.replicate d.exponent.toNat '0'
  else
    let places := (-d.exponent).toNat
    if places < ds.length then
      ds.take (ds.length - places) ++ '.' :: ds.drop (ds.length - places)
    else
      '0' :: '.' :: (List.replicate (places - ds.length) '0' ++ ds)

/-- Writes `d` with one digit before the point and the exponent of that digit behind an `e`; the
point is left out where no digit follows it. -/
def scientific (d : Decimal) : List Char :=
  let tail := 'e' :: signedNumeral d.leadingExponent
  match numeral d.digits with
  | [] => tail
  | [c] => c :: tail
  | c :: rest => c :: '.' :: (rest ++ tail)

end Decimal

end Formula
