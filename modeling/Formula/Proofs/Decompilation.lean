import Formula.Proofs.Postorder

/-!
# Rebuilding trees from programs

Instructions can be executed on a stack of trees instead of values: a load puts down a leaf, and an
operator joins the two trees on top. Nothing is lost on the way, for the trees that are on the stack
spell out the instructions so far. So a program is the postorder of the one tree that it leaves, and
of no other.

## Main definitions

- `Instruction.graft`: what an instruction makes of a stack of trees
- `Program.rebuild`: what a list of instructions makes of it
- `Program.spell`: the instructions of all trees of a stack

## Main statements

- `Tree.IsOver.rebuild_postorder`: the instructions of a tree rebuild it
- `Program.spell_rebuild`: no instruction is lost
- `Program.exists_postorder_eq`: every program is the postorder of a tree
-/

namespace Formula

open Program

/-! ### Stacks of trees -/

/-- What an instruction makes of a stack of trees, the top first. Without enough operands an
operator leaves the stack as it is. -/
def Instruction.graft (trees : List Tree) : Instruction → List Tree
  | .loadConstant value => .constant value :: trees
  | .loadParameter index => .parameter index :: trees
  | .operate op =>
    match trees with
    | right :: left :: rest => .binary op left right :: rest
    | trees => trees

namespace Program

/-- What the instructions make of a stack of trees. -/
def rebuild (trees : List Tree) (instructions : List Instruction) : List Tree :=
  instructions.foldl Instruction.graft trees

/-- The instructions that leave the trees on the stack, those of the lowest tree first. -/
def spell : List Tree → List Instruction
  | [] => []
  | tree :: trees => spell trees ++ tree.postorder

end Program

variable {n : Nat} {trees : List Tree}

namespace Instruction

variable {instruction : Instruction}

theorem length_graft (h : instruction.pops ≤ trees.length) :
    (instruction.graft trees).length = instruction.depthAfter trees.length := by
  cases instruction with
  | loadConstant value => rfl
  | loadParameter index => rfl
  | operate op =>
    match trees, h with
    | right :: left :: rest, _ => rfl

theorem spell_graft (h : instruction.pops ≤ trees.length) :
    spell (instruction.graft trees) = spell trees ++ [instruction] := by
  cases instruction with
  | loadConstant value => rfl
  | loadParameter index => rfl
  | operate op =>
    match trees, h with
    | right :: left :: rest, _ => simp [graft, spell, Tree.postorder]

theorem isOver_graft (hinstruction : instruction.IsOver n)
    (htrees : ∀ tree ∈ trees, tree.IsOver n) :
    ∀ tree ∈ instruction.graft trees, tree.IsOver n := by
  cases instruction with
  | loadConstant value => exact List.forall_mem_cons.mpr ⟨.constant value, htrees⟩
  | loadParameter index => exact List.forall_mem_cons.mpr ⟨.parameter hinstruction, htrees⟩
  | operate op =>
    match trees with
    | [] => exact htrees
    | [tree] => exact htrees
    | right :: left :: rest =>
      obtain ⟨hright, hrest⟩ := List.forall_mem_cons.mp htrees
      obtain ⟨hleft, hrest⟩ := List.forall_mem_cons.mp hrest
      exact List.forall_mem_cons.mpr ⟨.binary op hleft hright, hrest⟩

end Instruction

namespace Program

variable {instructions first second : List Instruction}

@[simp] theorem rebuild_nil : rebuild trees [] = trees := rfl

@[simp] theorem rebuild_cons (instruction : Instruction) (rest : List Instruction) :
    rebuild trees (instruction :: rest) = rebuild (instruction.graft trees) rest := rfl

@[simp] theorem rebuild_append :
    rebuild trees (first ++ second) = rebuild (rebuild trees first) second :=
  List.foldl_append

theorem length_rebuild (h : Sustained trees.length instructions) :
    (rebuild trees instructions).length = finalDepth trees.length instructions := by
  induction instructions generalizing trees with
  | nil => rfl
  | cons instruction rest ih =>
    have hlength := Instruction.length_graft h.1
    rw [rebuild_cons, finalDepth_cons, ← hlength]
    exact ih (hlength ▸ h.2)

/-- Instructions that find their operands are spelled by the trees that they leave. -/
theorem spell_rebuild (h : Sustained trees.length instructions) :
    spell (rebuild trees instructions) = spell trees ++ instructions := by
  induction instructions generalizing trees with
  | nil => simp
  | cons instruction rest ih =>
    have hlength := Instruction.length_graft h.1
    rw [rebuild_cons, ih (hlength ▸ h.2), Instruction.spell_graft h.1, List.append_assoc,
      List.singleton_append]

theorem isOver_rebuild (hinstructions : ∀ instruction ∈ instructions, instruction.IsOver n)
    (htrees : ∀ tree ∈ trees, tree.IsOver n) :
    ∀ tree ∈ rebuild trees instructions, tree.IsOver n := by
  induction instructions generalizing trees with
  | nil => exact htrees
  | cons instruction rest ih =>
    obtain ⟨hfirst, hrest⟩ := List.forall_mem_cons.mp hinstructions
    exact ih hrest (Instruction.isOver_graft hfirst htrees)

/-- Every program is the postorder of a tree. -/
theorem exists_postorder_eq (p : Program) :
    ∃ tree : Tree, tree.IsOver p.arity ∧ tree.postorder = p.instructions := by
  have hlength : (rebuild [] p.instructions).length = finalDepth 0 p.instructions :=
    length_rebuild p.sustained
  have hspell : spell (rebuild [] p.instructions) = p.instructions := spell_rebuild p.sustained
  have hover := isOver_rebuild p.isOver (List.forall_mem_nil _)
  -- one value is left on the operand stack, so one tree is left here, and it spells the program
  rw [p.finalDepth_eq_one] at hlength
  obtain ⟨tree, htree⟩ := List.length_eq_one_iff.mp hlength
  rw [htree] at hspell hover
  exact ⟨tree, hover tree List.mem_cons_self, hspell⟩

end Program

namespace Tree

/-- The instructions of a tree put it on top of whatever is there. -/
theorem IsOver.rebuild_postorder {tree : Tree} (h : tree.IsOver n) (trees : List Tree) :
    rebuild trees tree.postorder = tree :: trees := by
  induction h generalizing trees with
  | constant value => rfl
  | parameter hindex => rfl
  | binary op _ _ ihl ihr =>
    rw [Tree.postorder, rebuild_append, rebuild_append, ihl, ihr]
    rfl

end Tree

end Formula
