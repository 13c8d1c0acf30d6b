import Formula.Operator

/-!
# Expression trees

The tree of an arithmetic expression. A tree may hold nodes of kinds that the library does not
compile; whether it is an expression of given parameters is a separate question.

## Main definitions

- `Tree`: constants, parameters by index, binary operators and nodes of other kinds
- `Tree.depth`: the number of nodes on the longest path from the root to a leaf
- `Tree.label`: the name of the root's kind
- `Tree.binary?`: the operator and the operands of a binary node
- `Tree.beq`: equality of shape with constants compared as numbers
-/

namespace Formula

/-- The tree of an arithmetic expression. -/
inductive Tree where
  | constant (value : Float)
  /-- The parameter at a position of the list of parameters. -/
  | parameter (index : UInt32)
  | binary (op : Operator) (left right : Tree)
  /-- An operation that is not compiled, such as a negation or a call. -/
  | other (kind : String) (operands : List Tree)
  deriving Repr

namespace Tree

/-- The name of the root's kind. -/
def label : Tree → String
  | .constant _ => "constant"
  | .parameter _ => "parameter"
  | .binary op _ _ => op.label
  | .other kind _ => kind

/-- The operator and the operands of a binary node. -/
def binary? : Tree → Option (Operator × Tree × Tree)
  | .binary op left right => some (op, left, right)
  | _ => none

mutual

/-- The number of nodes on the longest path from the root to a leaf. -/
def depth : Tree → Nat
  | .constant _ => 1
  | .parameter _ => 1
  | .binary _ left right => 1 + max left.depth right.depth
  | .other _ operands => 1 + greatestDepth operands

/-- The greatest depth of any of the trees, 0 if there are none. -/
def greatestDepth : List Tree → Nat
  | [] => 0
  | tree :: trees => max tree.depth (greatestDepth trees)

end

mutual

/-- Equality of shape, operators, indices and kinds. Constants are compared as numbers: NaN differs
from itself and the two zeros are equal. -/
def beq : Tree → Tree → Bool
  | .constant a, .constant b => a == b
  | .parameter i, .parameter j => i == j
  | .binary op left right, .binary op' left' right' =>
    op == op' && left.beq left' && right.beq right'
  | .other kind operands, .other kind' operands' => kind == kind' && beqAll operands operands'
  | _, _ => false

/-- Equality of two lists of trees, tree by tree. -/
def beqAll : List Tree → List Tree → Bool
  | [], [] => true
  | tree :: trees, tree' :: trees' => tree.beq tree' && beqAll trees trees'
  | _, _ => false

end

instance : BEq Tree := ⟨beq⟩

end Tree

end Formula
