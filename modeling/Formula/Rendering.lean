import Formula.Number
import Formula.Walk

/-!
# Rendering trees

A tree is rendered with each operator in front of its parenthesised operands, as in
`add(a, mul(2, b))`.

## Main definitions

- `Walker.renderer`: the walker that renders
- `Tree.render`: the rendering of a tree over named parameters
-/

namespace Formula

/-- Renders constants in compact form, parameters by name and an operator by its mnemonic in front
of its operands. -/
def Walker.renderer : Walker Id String where
  constant value := Number.compact value
  parameter _ name := name
  binary op left right := s!"{op.mnemonic}({left}, {right})"

/-- The rendering of a tree over the parameters with the given names. -/
def Tree.render (names : List String) (tree : Tree) : Except Fault String :=
  (tree.walk Walker.renderer names).run

end Formula
