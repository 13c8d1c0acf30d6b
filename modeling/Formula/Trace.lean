import Formula.Logged
import Formula.Walk

/-!
# The calls of a walk

The handler calls that a walk makes, in order. They do not depend on the handlers, so the calls seen
by one walker that only writes them down are those of every walker.

## Main definitions

- `Call`: one call of a handler
- `Walker.recorder`: the walker that writes its calls down
- `Tree.trace`: the calls of a walk, together with how it ends
-/

namespace Formula

/-- A call of a handler, without the results of the operands. -/
inductive Call where
  | constant (value : Float)
  | parameter (index : UInt32) (name : String)
  | operator (op : Operator)
  deriving Repr

/-- The walker that writes its calls down. -/
def Walker.recorder : Walker (Logged Call) Unit where
  constant value := Logged.record (.constant value)
  parameter index name := Logged.record (.parameter index name)
  binary op _ _ := Logged.record (.operator op)

/-- The calls of a walk in order, those before a fault included, and whether it meets one. -/
def Tree.trace (names : List String) (tree : Tree) : Logged Call (Except Fault Unit) :=
  (tree.walk Walker.recorder names).run

end Formula
