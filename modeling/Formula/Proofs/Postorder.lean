import Formula.Expression
import Formula.Proofs.Depth

/-!
# Trees in postorder

A tree of constants, parameters and binary operators is the program of its nodes in postorder. Such
a program adds one value to whatever is on the operand stack, and how much room it takes there
depends on the shape of the tree alone: the right operand of an operator is computed above the value
of the left one.

## Main definitions

- `Tree.IsOver`: the tree consists of constants, the first parameters and binary operators
- `Tree.postorder`: one instruction for each node, operands before their operator
- `Tree.size`: the number of nodes
- `Tree.need`: the room that the program of a tree takes on the operand stack

## Main statements

- `Tree.check_eq_ok_iff`: which trees are accepted with which parameters
- `Tree.IsOver.verify_postorder`: a tree's postorder is a program, and its greatest depth
- `Tree.IsOver.need_le_depth`: a program takes at most as much room as its tree is deep
-/

namespace Formula

open Program

namespace Tree

/-- The tree consists of constants, of the first `n` parameters and of binary operators. -/
inductive IsOver (n : Nat) : Tree → Prop
  | constant (value : Float) : IsOver n (.constant value)
  | parameter {index : UInt32} : index.toNat < n → IsOver n (.parameter index)
  | binary (op : Operator) {left right : Tree} :
    IsOver n left → IsOver n right → IsOver n (.binary op left right)

/-- The instructions for the nodes of a tree: those of the left operand, those of the right operand,
the operator. A node that is not compiled has none. -/
def postorder : Tree → List Instruction
  | .constant value => [.loadConstant value]
  | .parameter index => [.loadParameter index]
  | .binary op left right => left.postorder ++ right.postorder ++ [.operate op]
  | .other _ _ => []

mutual

/-- The number of nodes of a tree. A node that is reached on several paths counts once for each of
them. -/
def size : Tree → Nat
  | .constant _ => 1
  | .parameter _ => 1
  | .binary _ left right => left.size + right.size + 1
  | .other _ operands => totalSize operands + 1

/-- The number of nodes of all the trees. -/
def totalSize : List Tree → Nat
  | [] => 0
  | tree :: trees => tree.size + totalSize trees

end

/-- The greatest number of values that the operand stack holds while the instructions of the tree
are executed, those below not counted. The value of a left operand waits there for the right one. -/
def need : Tree → Nat
  | .constant _ => 1
  | .parameter _ => 1
  | .binary _ left right => max left.need (right.need + 1)
  | .other _ _ => 0

variable {n : Nat} {tree : Tree}

/-! ### Which trees are accepted -/

/-- An operator is accepted if its operands are. -/
theorem check_binary (names : List String) (op : Operator) (left right : Tree) :
    (binary op left right).check names = left.check names >>= fun _ => right.check names := by
  unfold check
  rw [walk_binary, ExceptT.run_bind]
  cases (left.walk Walker.idle names).run with
  | error fault => rfl
  | ok =>
    change ((right.walk Walker.idle names >>= fun _ => _) : ExceptT Fault Id Unit).run = _
    rw [ExceptT.run_bind]
    cases (right.walk Walker.idle names).run <;> rfl

theorem isOver_of_check {names : List String} :
    ∀ {tree : Tree}, tree.check names = .ok () → tree.IsOver names.length
  | .constant value, _ => .constant value
  | .parameter index, h => by
    by_cases hindex : index.toNat < names.length
    · exact .parameter hindex
    · rw [check, walk_parameter_of_le _ (Nat.le_of_not_lt hindex)] at h
      cases h
  | .binary op left right, h => by
    rw [check_binary] at h
    cases hleft : left.check names with
    | error fault =>
      rw [hleft] at h
      cases h
    | ok =>
      rw [hleft] at h
      exact .binary op (isOver_of_check hleft) (isOver_of_check h)
  | .other kind operands, h => by cases h

/-- The check accepts exactly the trees over the given parameters. -/
theorem check_eq_ok_iff {names : List String} :
    tree.check names = .ok () ↔ tree.IsOver names.length := by
  refine ⟨isOver_of_check, fun h => ?_⟩
  generalize hcount : names.length = count at h
  induction h with
  | constant value => rfl
  | parameter hindex =>
    subst hcount
    rw [check, walk_parameter_of_lt _ hindex]
    rfl
  | binary op _ _ ihl ihr => rw [check_binary, ihl, ok_bind, ihr]

theorem IsOver.mono {more : Nat} (h : tree.IsOver n) (hle : n ≤ more) : tree.IsOver more := by
  induction h with
  | constant value => exact .constant value
  | parameter hindex => exact .parameter (Nat.lt_of_lt_of_le hindex hle)
  | binary op _ _ ihl ihr => exact .binary op ihl ihr

/-! ### The instructions of a tree -/

theorem IsOver.postorder (h : tree.IsOver n) :
    ∀ instruction ∈ tree.postorder, instruction.IsOver n := by
  induction h with
  | constant value => simp [Tree.postorder, Instruction.IsOver]
  | parameter hindex => simp [Tree.postorder, Instruction.IsOver, hindex]
  | binary op _ _ ihl ihr =>
    intro instruction hmem
    rw [Tree.postorder, List.mem_append, List.mem_append, List.mem_singleton] at hmem
    rcases hmem with (hmem | hmem) | rfl
    · exact ihl instruction hmem
    · exact ihr instruction hmem
    · exact trivial

/-- The instructions of a tree leave one value more than there was before. -/
theorem IsOver.finalDepth_postorder (h : tree.IsOver n) (depth : Nat) :
    finalDepth depth tree.postorder = depth + 1 := by
  induction h generalizing depth with
  | constant value => rfl
  | parameter hindex => rfl
  | binary op _ _ ihl ihr =>
    rw [Tree.postorder, finalDepth_append, finalDepth_append, ihl, ihr]
    rfl

/-- The instructions of a tree pop no value that was there before. -/
theorem IsOver.sustained_postorder (h : tree.IsOver n) (depth : Nat) :
    Sustained depth tree.postorder := by
  induction h generalizing depth with
  | constant value => exact ⟨Nat.zero_le _, trivial⟩
  | parameter hindex => exact ⟨Nat.zero_le _, trivial⟩
  | binary op hl hr ihl ihr =>
    rw [Tree.postorder, sustained_append, sustained_append, finalDepth_append,
      hl.finalDepth_postorder, hr.finalDepth_postorder]
    refine ⟨⟨ihl _, ihr _⟩, ?_, trivial⟩
    change 2 ≤ depth + 1 + 1
    omega

theorem IsOver.need_pos (h : tree.IsOver n) : 0 < tree.need := by
  induction h with
  | constant value => exact Nat.one_pos
  | parameter hindex => exact Nat.one_pos
  | binary op _ _ ihl _ => exact Nat.lt_of_lt_of_le ihl (Nat.le_max_left _ _)

/-- The instructions of a tree need the same room above any depth. -/
theorem IsOver.peak_postorder (h : tree.IsOver n) (depth : Nat) :
    peak depth tree.postorder = depth + tree.need := by
  induction h generalizing depth with
  | constant value => rfl
  | parameter hindex => rfl
  | @binary op left right hl hr ihl ihr =>
    have hlast : peak (depth + 1 + 1) [.operate op] = depth + 1 := rfl
    rw [Tree.postorder, peak_append, peak_append, finalDepth_append, hl.finalDepth_postorder,
      hr.finalDepth_postorder, ihl, ihr, hlast, Tree.need]
    -- the right operand takes some room, so that the operator itself never takes the most
    have hneed := hr.need_pos
    omega

/-- The instructions of a tree are a program. Its greatest depth is the room that they need. -/
theorem IsOver.verify_postorder (h : tree.IsOver n) : verify tree.postorder n = .ok tree.need := by
  rw [verify_eq_ok_iff, h.finalDepth_postorder, h.peak_postorder, Nat.zero_add]
  exact ⟨h.postorder, h.sustained_postorder 0, rfl, (Nat.zero_add _).symm⟩

-- sums of four parameters, grouped to the left and to the right
example : verify (Tree.binary .add (.binary .add (.binary .add (.parameter 0) (.parameter 1))
    (.parameter 2)) (.parameter 3)).postorder 4 = .ok 2 := rfl

example : verify (Tree.binary .add (.parameter 0) (.binary .add (.parameter 1)
    (.binary .add (.parameter 2) (.parameter 3)))).postorder 4 = .ok 4 := rfl

theorem IsOver.length_postorder (h : tree.IsOver n) : tree.postorder.length = tree.size := by
  induction h with
  | constant value => rfl
  | parameter hindex => rfl
  | binary op _ _ ihl ihr =>
    rw [Tree.postorder, List.length_append, List.length_append, ihl, ihr, Tree.size]
    rfl

theorem IsOver.need_le_depth (h : tree.IsOver n) : tree.need ≤ tree.depth := by
  induction h with
  | constant value => exact Nat.le_refl _
  | parameter hindex => exact Nat.le_refl _
  | binary op _ _ ihl ihr =>
    rw [Tree.need, Tree.depth]
    omega

end Tree

theorem Expression.root_isOver (e : Expression) : e.root.IsOver e.arity :=
  Tree.check_eq_ok_iff.mp e.checked

end Formula
