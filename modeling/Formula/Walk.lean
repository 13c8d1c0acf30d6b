import Formula.Fault
import Formula.Tree

/-!
# Walking a tree

Everything that is computed from a tree is computed by one walk: leaves are handed to their handler,
an operator is handled after its left and then its right operand. So the handlers are called in
postorder, and a tree that cannot be handled is refused at its leftmost bad leaf.

## Main definitions

- `Walker`: a handler for each kind of node
- `Tree.walk`: the walk
- `Tree.check`: the walk that only looks for bad leaves
-/

namespace Formula

/-- A handler for each kind of node. The handlers run in `m`; those of operators get the results of
the operands. The four operators share one handler unless they are given their own. -/
structure Walker (m : Type → Type) (α : Type) where
  constant : Float → m α
  /-- Handles a parameter, given its index and its name. -/
  parameter : UInt32 → String → m α
  binary : Operator → α → α → m α
  add : α → α → m α := binary .add
  subtract : α → α → m α := binary .subtract
  multiply : α → α → m α := binary .multiply
  divide : α → α → m α := binary .divide

namespace Walker

variable {m : Type → Type} {α : Type}

/-- The handler of an operator. -/
def operator (w : Walker m α) : Operator → α → α → m α
  | .add => w.add
  | .subtract => w.subtract
  | .multiply => w.multiply
  | .divide => w.divide

/-- The walker that does nothing. -/
def idle : Walker Id Unit where
  constant _ := ()
  parameter _ _ := ()
  binary _ _ _ := ()

end Walker

namespace Tree

variable {m : Type → Type} {α : Type} [Monad m]

/-- Walks a tree over the parameters with the given names. The walk ends at the leftmost leaf that
is of an unsupported kind, whose operands are not looked at, or a parameter beyond the given
ones. -/
def walk (w : Walker m α) (names : List String) : Tree → ExceptT Fault m α
  | .constant value => w.constant value
  | .parameter index =>
    match names[index.toNat]? with
    | some name => w.parameter index name
    | none => throw (.invalidParameterIndex index names.length)
  | .binary op left right => do
    let l ← left.walk w names
    let r ← right.walk w names
    w.operator op l r
  | .other kind _ => throw (.unsupportedNodeKind kind)

@[simp] theorem walk_constant (w : Walker m α) (names : List String) (value : Float) :
    (constant value).walk w names = liftM (w.constant value) := rfl

theorem walk_parameter_of_lt (w : Walker m α) {names : List String} {index : UInt32}
    (h : index.toNat < names.length) :
    (parameter index).walk w names = liftM (w.parameter index names[index.toNat]) := by
  rw [walk, List.getElem?_eq_getElem h]

theorem walk_parameter_of_le (w : Walker m α) {names : List String} {index : UInt32}
    (h : names.length ≤ index.toNat) :
    (parameter index).walk w names = throw (.invalidParameterIndex index names.length) := by
  rw [walk, List.getElem?_eq_none h]

@[simp] theorem walk_binary (w : Walker m α) (names : List String) (op : Operator)
    (left right : Tree) :
    (binary op left right).walk w names =
      (left.walk w names >>= fun l => right.walk w names >>= fun r =>
        liftM (w.operator op l r)) := rfl

@[simp] theorem walk_other (w : Walker m α) (names : List String) (kind : String)
    (operands : List Tree) :
    (other kind operands).walk w names = throw (.unsupportedNodeKind kind) := rfl

/-- Looks for leaves that no function of the named parameters can have. -/
def check (names : List String) (tree : Tree) : Except Fault Unit :=
  (tree.walk Walker.idle names).run

end Tree

end Formula
