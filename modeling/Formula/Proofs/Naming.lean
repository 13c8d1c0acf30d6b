import Formula.Proofs.Evaluation
import Formula.Proofs.Replay
import Mathlib.Data.List.Basic

/-!
# Trees with named parameters

What a tree is meant to be is told by a tree in which parameters go by their names. Relative to a
list of names it stands for the tree with the positions of the names, which it does relative to
every list that begins with the same names. Both have the same value and the same rendering.

## Main definitions

- `NamedTree`: constants, named parameters and binary operators
- `NamedTree.IsOver`: the tree names no other parameters than the given ones
- `NamedTree.value`, `NamedTree.render`: its value and its rendering, for which no order of the
  parameters is needed
- `NamedTree.resolve`: the tree that it stands for

## Main statements

- `NamedTree.IsOver.resolve_eq_of_extends`: further names do not change what a tree stands for
- `NamedTree.IsOver.value_resolve`, `NamedTree.IsOver.render_resolve`: it has the value and the
  rendering of the tree that it stands for
-/

namespace Formula

/-- A rendering of an operator goes on after each operand that meets no fault. -/
theorem Tree.render_binary (names : List String) (op : Operator) (left right : Tree) :
    (binary op left right).render names =
      left.render names >>= fun l => right.render names >>= fun r =>
        .ok s!"{op.mnemonic}({l}, {r})" := by
  unfold render
  rw [run_walk_binary]
  cases (left.walk Walker.renderer names).run with
  | error fault => rfl
  | ok l =>
    cases (right.walk Walker.renderer names).run <;> cases op <;> rfl

/-- A tree whose parameters go by their names. -/
inductive NamedTree where
  | constant (value : Float)
  | parameter (name : String)
  | binary (op : Operator) (left right : NamedTree)
  deriving Repr

namespace NamedTree

/-- The tree names none but the given parameters. -/
inductive IsOver (names : List String) : NamedTree → Prop
  | constant (value : Float) : IsOver names (.constant value)
  | parameter {name : String} : name ∈ names → IsOver names (.parameter name)
  | binary (op : Operator) {left right : NamedTree} :
    IsOver names left → IsOver names right → IsOver names (.binary op left right)

/-- The value of the tree where each name has the given value. -/
def value [Arithmetic] (environment : String → Float) : NamedTree → Float
  | .constant value => value
  | .parameter name => environment name
  | .binary op left right => op.apply (left.value environment) (right.value environment)

/-- The rendering of the tree with each parameter shown by its name. -/
def render : NamedTree → String
  | .constant value => Number.compact value
  | .parameter name => name
  | .binary op left right => s!"{op.mnemonic}({left.render}, {right.render})"

/-- The tree with the position of each name for its index. -/
def resolve (names : List String) : NamedTree → Tree
  | .constant value => .constant value
  | .parameter name => .parameter (UInt32.ofNat (names.idxOf name))
  | .binary op left right => .binary op (left.resolve names) (right.resolve names)

variable {names more : List String} {tree : NamedTree}

theorem IsOver.of_extends (h : tree.IsOver names) (hextends : names <+: more) :
    tree.IsOver more := by
  induction h with
  | constant value => exact .constant value
  | parameter hname => exact .parameter (hextends.subset hname)
  | binary op _ _ ihl ihr => exact .binary op ihl ihr

theorem IsOver.resolve_eq_of_extends (h : tree.IsOver names) (hextends : names <+: more) :
    tree.resolve more = tree.resolve names := by
  obtain ⟨rest, rfl⟩ := hextends
  induction h with
  | constant value => rfl
  | parameter hname => rw [resolve, resolve, List.idxOf_append_of_mem hname]
  | binary op _ _ ihl ihr => rw [resolve, resolve, ihl, ihr]

/-! ### The tree that is stood for -/

theorem toNat_idxOf {name : String} (hname : name ∈ names) (hfew : names.length ≤ UInt32.size) :
    (UInt32.ofNat (names.idxOf name)).toNat = names.idxOf name := by
  have hlt := List.idxOf_lt_length_of_mem hname
  exact UInt32.toNat_ofNat_of_lt' (Nat.lt_of_lt_of_le hlt hfew)

theorem IsOver.isOver_resolve (h : tree.IsOver names) (hfew : names.length ≤ UInt32.size) :
    (tree.resolve names).IsOver names.length := by
  induction h with
  | constant value => exact .constant value
  | parameter hname =>
    refine .parameter ?_
    rw [toNat_idxOf hname hfew]
    exact List.idxOf_lt_length_of_mem hname
  | binary op _ _ ihl ihr => exact .binary op ihl ihr

/-- Where each parameter has the value of its name, the value of a tree is that of the tree with
names. -/
theorem IsOver.value_resolve [Arithmetic] (h : tree.IsOver names)
    (hfew : names.length ≤ UInt32.size) (environment : String → Float) :
    (tree.resolve names).value (argument (names.map environment)) = tree.value environment := by
  induction h with
  | constant value => rfl
  | parameter hname =>
    have hget : names[names.idxOf _]? = some _ := List.getElem?_idxOf hname
    rw [resolve, Tree.value, argument, toNat_idxOf hname hfew, List.getD_eq_getElem?_getD,
      List.getElem?_map, hget]
    rfl
  | binary op _ _ ihl ihr => rw [resolve, Tree.value, ihl, ihr, value]

theorem IsOver.render_resolve (h : tree.IsOver names) (hfew : names.length ≤ UInt32.size) :
    (tree.resolve names).render names = .ok tree.render := by
  induction h with
  | constant value => rfl
  | parameter hname =>
    have hget : names[names.idxOf _]? = some _ := List.getElem?_idxOf hname
    rw [resolve, Tree.render, Tree.walk, toNat_idxOf hname hfew, hget]
    rfl
  | binary op _ _ ihl ihr =>
    rw [resolve, Tree.render_binary, ihl, ok_bind, ihr, ok_bind, render]

end NamedTree

end Formula
