import Formula.Proofs.Agreement

/-!
# Substitution in programs

A program can be put in the place of a parameter of another one by replacing each load of the
parameter with all of its instructions, wherever the operators are that use the value. This is
substitution in the trees of which the programs are the postorder, so that the value comes about as
if the inner program had been executed beforehand.

## Main definitions

- `Tree.substitute`: the tree with another one in the place of a parameter
- `Program.splice`: the instructions with others in the place of the loads of a parameter
- `Tree.IsOver.program`: the program of a tree

## Main statements

- `Tree.postorder_substitute`: splicing programs is substituting trees
- `Tree.value_substitute`: the inner tree counts for what it is worth
- `Program.exists_eq_program`: every program is that of a tree
- `Program.ofInstructions_splice`: the spliced instructions are a program, how much room it takes,
  and its value
-/

namespace Formula

open Program

/-! ### Trees -/

namespace Tree

/-- The tree with `inner` in the place of the parameter at an index. -/
def substitute (tree : Tree) (index : Nat) (inner : Tree) : Tree :=
  match tree with
  | .parameter own => if own.toNat = index then inner else .parameter own
  | .binary op left right =>
    .binary op (left.substitute index inner) (right.substitute index inner)
  | tree => tree

end Tree

/-- The instruction, or `inner` if it loads the parameter at an index. -/
def Instruction.expand (index : Nat) (inner : List Instruction) : Instruction → List Instruction
  | .loadParameter own => if own.toNat = index then inner else [.loadParameter own]
  | instruction => [instruction]

/-- The instructions with all of `inner` for each load of the parameter at an index. -/
def Program.splice (index : Nat) (inner outer : List Instruction) : List Instruction :=
  outer.flatMap (Instruction.expand index inner)

namespace Tree

variable {n index : Nat} {tree inner : Tree}

/-- Splicing the instructions of a tree into those of another one is substituting it there. -/
theorem postorder_substitute (index : Nat) (inner : Tree) : ∀ tree : Tree,
    (tree.substitute index inner).postorder = splice index inner.postorder tree.postorder
  | .constant value => rfl
  | .parameter own => by
    by_cases hown : own.toNat = index
    · simp [substitute, postorder, splice, Instruction.expand, hown]
    · simp [substitute, postorder, splice, Instruction.expand, hown]
  | .binary op left right => by
    have hleft := postorder_substitute index inner left
    have hright := postorder_substitute index inner right
    rw [substitute, postorder, postorder, hleft, hright]
    simp [splice, Instruction.expand]
  | .other kind operands => rfl

theorem IsOver.substitute (h : tree.IsOver n) (hinner : inner.IsOver n) :
    (tree.substitute index inner).IsOver n := by
  induction h with
  | constant value => exact .constant value
  | parameter hown =>
    rw [Tree.substitute]
    split
    · exact hinner
    · exact .parameter hown
  | binary op _ _ ihl ihr => exact .binary op ihl ihr

/-- Where a parameter took room for one value, the inner tree takes what it needs. -/
theorem IsOver.need_substitute_lt (h : tree.IsOver n) (hinner : inner.IsOver n) :
    (tree.substitute index inner).need < tree.need + inner.need := by
  have hpositive := hinner.need_pos
  induction h with
  | constant value =>
    change 1 < 1 + inner.need
    omega
  | parameter hown =>
    rw [Tree.substitute]
    split
    · change inner.need < 1 + inner.need
      omega
    · change 1 < 1 + inner.need
      omega
  | binary op _ _ ihl ihr =>
    rw [Tree.substitute, need, need]
    omega

/-- The value of the tree is that for the value of the inner tree as the parameter's. -/
theorem value_substitute [Arithmetic] (parameters : UInt32 → Float) (index : Nat) (inner : Tree) :
    ∀ tree : Tree, (tree.substitute index inner).value parameters =
      tree.value fun own =>
        if own.toNat = index then inner.value parameters else parameters own
  | .constant value => rfl
  | .parameter own => by
    rw [substitute, value]
    split <;> rfl
  | .binary op left right => by
    have hleft := value_substitute parameters index inner left
    have hright := value_substitute parameters index inner right
    rw [substitute, value, hleft, hright, value]
  | .other kind operands => rfl

/-! ### Programs of trees -/

/-- The program of a tree. -/
def IsOver.program (h : tree.IsOver n) : Program where
  instructions := tree.postorder
  arity := n
  maxDepth := tree.need
  verified := h.verify_postorder

theorem IsOver.result_execute_program [Arithmetic] (h : tree.IsOver n) {args : List Float}
    (hlength : args.length = n) :
    (h.program.execute args).result = .ok (tree.value (argument args)) :=
  result_execute_of_length_eq hlength (h.effect_postorder [])

end Tree

theorem argument_set {args : List Float} {index : Nat} (h : index < args.length)
    (value : Float) :
    argument (args.set index value) =
      fun own => if own.toNat = index then value else argument args own := by
  funext own
  rw [argument, List.getD_eq_getElem?_getD, List.getElem?_set]
  by_cases hown : own.toNat = index
  · simp [hown, h]
  · rw [if_neg (Ne.symm hown), if_neg hown, argument, List.getD_eq_getElem?_getD]

namespace Program

theorem exists_eq_program (p : Program) :
    ∃ (n : Nat) (tree : Tree) (h : tree.IsOver n), p = h.program := by
  obtain ⟨tree, hover, hpostorder⟩ := p.exists_postorder_eq
  exact ⟨p.arity, tree, hover, eq_of_instructions_eq hpostorder.symm rfl⟩

/-- Replacing each load of a parameter by the instructions of a second program makes a program. The
values that wait below an inlined part take no more room than before, and the result is the one for
the second program's result in the place of the parameter's argument. -/
theorem ofInstructions_splice [Arithmetic] (p q : Program) (harity : p.arity = q.arity)
    (index : Nat) (hindex : index < p.arity) :
    ∃ r, ofInstructions (splice index q.instructions p.instructions) p.arity = .ok r ∧
      r.maxDepth ≤ p.maxDepth + q.maxDepth - 1 ∧
      ∀ args : List Float, args.length = p.arity →
        ∃ inner value, (q.execute args).result = .ok inner ∧
          (p.execute (args.set index inner)).result = .ok value ∧
          (r.execute args).result = .ok value := by
  obtain ⟨n, outerTree, houter, rfl⟩ := p.exists_eq_program
  obtain ⟨m, innerTree, hinner, rfl⟩ := q.exists_eq_program
  obtain rfl : n = m := harity
  have hwhole : (outerTree.substitute index innerTree).IsOver n := houter.substitute hinner
  have hneed : (outerTree.substitute index innerTree).need < outerTree.need + innerTree.need :=
    houter.need_substitute_lt hinner
  refine ⟨hwhole.program, ?_, ?_, fun args hlength => ?_⟩
  · exact ofInstructions_eq_ok_iff.mpr ⟨Tree.postorder_substitute index innerTree outerTree, rfl⟩
  · change (outerTree.substitute index innerTree).need ≤ outerTree.need + innerTree.need - 1
    omega
  · have hset : (args.set index (innerTree.value (argument args))).length = n := by
      rw [List.length_set, hlength]
      rfl
    refine ⟨_, _, hinner.result_execute_program hlength, houter.result_execute_program hset, ?_⟩
    rw [hwhole.result_execute_program hlength, Tree.value_substitute,
      argument_set (hlength ▸ hindex)]

/-- A product goes in the place of a parameter that is loaded twice, once in an operand of another
operand. -/
theorem difference_splice :
    let p : Program :=
      ⟨[.loadParameter 1, .loadParameter 0, .loadParameter 1, .operate .add, .operate .subtract],
        2, 3, rfl⟩
    let q : Program := ⟨[.loadParameter 0, .loadParameter 1, .operate .multiply], 2, 2, rfl⟩
    ∃ r, ofInstructions [.loadParameter 0, .loadParameter 1, .operate .multiply, .loadParameter 0,
        .loadParameter 0, .loadParameter 1, .operate .multiply, .operate .add,
        .operate .subtract] 2 = .ok r ∧
      r.maxDepth ≤ 4 ∧
      ∃ inner value, (q.execute [6.0, 3.0]).result = .ok inner ∧
        (p.execute [6.0, inner]).result = .ok value ∧
        (r.execute [6.0, 3.0]).result = .ok value := by
  intro p q
  obtain ⟨r, hr, hroom, hvalue⟩ := ofInstructions_splice p q rfl 1 (by decide)
  exact ⟨r, hr, hroom, hvalue [6.0, 3.0] rfl⟩

end Program

end Formula
