import Formula.Decimal.Shortest

/-!
# Numbers as text

How doubles are written. A double is split into its sign and the pattern of its magnitude, and a
finite magnitude is written with the fewest digits that read back as the same double.

## Main definitions

- `Number.plain`: positional notation for every magnitude
- `Number.compact`: an exponent for very small and very large magnitudes
- `Number.ofMagnitude`: puts a double together from its sign and its magnitude
-/

namespace Formula

namespace Number

/-- The bit pattern of `v` without its sign. -/
def magnitude (v : Float) : Nat :=
  v.toBits.toNat % Nat.pow 2 63

/-- The sign bit of `v` is set. -/
def isNegative (v : Float) : Bool :=
  Nat.pow 2 63 ≤ v.toBits.toNat

/-- The double with the given sign bit and magnitude. -/
def ofMagnitude (negative : Bool) (n : Nat) : Float :=
  Float.ofBits ((if negative then Nat.pow 2 63 else 0) + n).toUInt64

/-- Writes `v` with the sign in front of its magnitude. Finite magnitudes other than zero are
written by `layout`; zero is written as one digit and keeps its sign. -/
def write (layout : Nat → List Char) (v : Float) : String :=
  let n := magnitude v
  if Binary64.infinity < n then
    "NaN"
  else
    let text :=
      if n = 0 then ['0']
      else if n = Binary64.infinity then ['i', 'n', 'f']
      else layout n
    String.ofList (if isNegative v then '-' :: text else text)

/-- Writes `v` in positional notation, whatever its magnitude. -/
def plain (v : Float) : String :=
  write (fun n => (Binary64.shortest n).positional) v

/-- The least magnitude that the compact form writes positionally, that of the double `1e-5`. -/
def leastPositional : Nat := magnitude 1e-5

/-- The least magnitude beyond those that the compact form writes positionally, that of the double
`1e16`. -/
def leastLarge : Nat := magnitude 1e16

/-- Writes `v` positionally from `1e-5` to below `1e16` and with an exponent outside that range.
Patterns order magnitudes as their values do, so the range is tested on patterns. -/
def compact (v : Float) : String :=
  write (fun n =>
    let d := Binary64.shortest n
    if leastPositional ≤ n ∧ n < leastLarge then d.positional else d.scientific) v

end Number

end Formula
