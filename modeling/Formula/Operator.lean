/-!
# Binary operators

The four operators of an arithmetic expression and what they do to two doubles.

## Main definitions

- `Operator`: addition, subtraction, multiplication, division
- `Arithmetic`: what the operators compute, IEEE 754 double arithmetic unless it is left open
- `Operator.apply`: the result of an operator
- `Operator.mnemonic`: the name that renderings and listings use

## Design notes

Everything that computes values takes its arithmetic as an instance. Programs run with the one of
this module; statements about them leave it open, so that no law of arithmetic is used.
-/

namespace Formula

/-- A binary arithmetic operator. -/
inductive Operator where
  | add
  | subtract
  | multiply
  | divide
  deriving DecidableEq, Repr

/-- What the operators compute. -/
class Arithmetic where
  apply : Operator → Float → Float → Float

/-- The operators have IEEE 754 double semantics: division by zero gives an infinity or NaN, never
an error. -/
instance Arithmetic.ieee : Arithmetic where
  apply
    | .add, left, right => left + right
    | .subtract, left, right => left - right
    | .multiply, left, right => left * right
    | .divide, left, right => left / right

namespace Operator

/-- Every operator, in the order of the constructors. -/
def all : List Operator := [.add, .subtract, .multiply, .divide]

/-- Applies the operator. -/
def apply [Arithmetic] (op : Operator) (left right : Float) : Float :=
  Arithmetic.apply op left right

/-- The short name of the operator in renderings and listings. -/
def mnemonic : Operator → String
  | .add => "add"
  | .subtract => "sub"
  | .multiply => "mul"
  | .divide => "div"

/-- The long name of the operator, as the label of a tree node. -/
def label : Operator → String
  | .add => "add"
  | .subtract => "subtract"
  | .multiply => "multiply"
  | .divide => "divide"

/-- Finds the operator with the given mnemonic. -/
def ofMnemonic? (name : String) : Option Operator :=
  all.find? fun op => op.mnemonic == name

/-- Every operator is found again by its mnemonic. -/
theorem ofMnemonic?_mnemonic (op : Operator) : ofMnemonic? op.mnemonic = some op := by
  cases op <;> decide

theorem mnemonic_injective {op op' : Operator} (h : op.mnemonic = op'.mnemonic) : op = op' := by
  have hfound := ofMnemonic?_mnemonic op
  rw [h, ofMnemonic?_mnemonic] at hfound
  exact (Option.some.inj hfound).symm

end Operator

end Formula
