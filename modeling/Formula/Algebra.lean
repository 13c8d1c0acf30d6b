/-!
# Algebraic laws at given operands

Whether a function of two doubles satisfies a law is asked for one choice of operands at a time.

## Main definitions

- `agree`: equality as numbers, with NaN equal to itself
- `commutesAt`, `associatesAt`: the two laws

## Design notes

The function is computed in a monad, so that it may be one whose evaluation can fail.
-/

namespace Formula

/-- Equality as numbers, except that NaN agrees with NaN. -/
def agree (x y : Float) : Bool :=
  x == y || (x.isNaN && y.isNaN)

variable {m : Type → Type} [Monad m]

/-- Whether `f` gives the same with `a` and `b` in either order. -/
def commutesAt (f : Float → Float → m Float) (a b : Float) : m Bool := do
  return agree (← f a b) (← f b a)

/-- Whether `f` gives the same for `a`, `b` and `c` grouped to the left and to the right. -/
def associatesAt (f : Float → Float → m Float) (a b c : Float) : m Bool := do
  return agree (← f (← f a b) c) (← f a (← f b c))

end Formula
