/-!
# Sets of characters

Properties of characters are tabulated as ranges of code points. The tables of this library follow
version 17 of the Unicode standard.

## Main definitions

- `isWithin`: whether a character is in one of the ranges of a table
-/

namespace Formula

/-- Whether the code point of a character lies in one of the ranges, ends included. -/
def isWithin (ranges : List (Nat × Nat)) (c : Char) : Bool :=
  ranges.any fun (low, high) => low ≤ c.toNat && c.toNat ≤ high

end Formula
