import Formula.Expression
import Formula.Proofs.Decompilation

/-!
# Values of trees and programs

The value of a tree is computed from the leaves up. Instructions do on a stack of values what they
do on a stack of trees: the values that they leave are those of the trees that they rebuild. So the
instructions of a tree put its value on top of any stack.

## Main definitions

- `argument`: the values of the parameters, given a list of arguments
- `Tree.value`: the value of a tree, given the values of the parameters
- `Instruction.effect`: what an instruction makes of a stack of values
- `Program.effect`: what a list of instructions makes of it

## Main statements

- `Expression.evaluate_of_length_eq`: an expression evaluates to the value of its tree
- `Program.map_value_rebuild`: values are computed as trees are rebuilt
- `Program.length_effect`: the depth of the stack develops as it was foretold
- `Tree.IsOver.effect_postorder`: the instructions of a tree push its value
-/

namespace Formula

open Program

/-- The value of a parameter, which is the argument at its index. -/
def argument (args : List Float) (index : UInt32) : Float :=
  args.getD index.toNat 0

theorem getElem?_eq_argument {args : List Float} {index : UInt32}
    (h : index.toNat < args.length) : args[index.toNat]? = some (argument args index) := by
  simp [argument, h]

variable [Arithmetic]

/-! ### Trees -/

/-- The value of a tree, given the values of the parameters. A node that is not compiled counts as
zero. -/
def Tree.value (parameters : UInt32 → Float) : Tree → Float
  | .constant value => value
  | .parameter index => parameters index
  | .binary op left right => op.apply (left.value parameters) (right.value parameters)
  | .other _ _ => 0

/-- The evaluator finds the value of a tree if there is an argument for each parameter. -/
theorem Tree.IsOver.walk_evaluator {tree : Tree} {args : List Float} {names : List String}
    (h : tree.IsOver names.length) (hlength : args.length = names.length) :
    (tree.walk (Expression.evaluator args) names).run = .ok (.ok (tree.value (argument args))) := by
  -- the induction is on the tree alone, so the number of names must be a variable
  generalize hcount : names.length = count at h
  induction h with
  | constant value => rfl
  | parameter hindex =>
    subst hcount
    rw [walk_parameter_of_lt _ hindex]
    have hargument := getElem?_eq_argument (hlength ▸ hindex)
    change Except.ok <$> Walker.parameter (Expression.evaluator args) _ _ = _
    simp only [Expression.evaluator, hargument]
    rfl
  | binary op _ _ ihl ihr =>
    rw [walk_binary, ExceptT.run_bind, ihl, ok_bind]
    change ((_ >>= fun r => _) : ExceptT Fault (Except Breach) Float).run = _
    rw [ExceptT.run_bind, ihr, ok_bind]
    cases op <;> rfl

namespace Expression

theorem evaluate_of_length_eq (e : Expression) {args : List Float} (h : args.length = e.arity) :
    e.evaluate args = .ok (e.root.value (argument args)) := by
  have harity := requireArity_eq_ok_iff.mpr h
  unfold evaluate
  rw [harity, e.root_isOver.walk_evaluator h]
  rfl

theorem evaluate_of_length_ne (e : Expression) {args : List Float} (h : args.length ≠ e.arity) :
    e.evaluate args = .error (.fault (.arityMismatch e.arity args.length)) := by
  unfold evaluate
  rw [requireArity_of_ne h]
  rfl

end Expression

/-! ### Programs -/

/-- What an instruction makes of a stack of values, the top first. Without enough operands an
operator leaves the stack as it is. -/
def Instruction.effect (parameters : UInt32 → Float) (stack : List Float) :
    Instruction → List Float
  | .loadConstant value => value :: stack
  | .loadParameter index => parameters index :: stack
  | .operate op =>
    match stack with
    | right :: left :: rest => op.apply left right :: rest
    | stack => stack

/-- What the instructions make of a stack of values. -/
def Program.effect (parameters : UInt32 → Float) (stack : List Float)
    (instructions : List Instruction) : List Float :=
  instructions.foldl (Instruction.effect parameters) stack

variable {parameters : UInt32 → Float} {stack : List Float}

theorem Instruction.map_value_graft (instruction : Instruction) (trees : List Tree) :
    (instruction.graft trees).map (Tree.value parameters) =
      instruction.effect parameters (trees.map (Tree.value parameters)) := by
  cases instruction with
  | loadConstant value => rfl
  | loadParameter index => rfl
  | operate op =>
    match trees with
    | [] => rfl
    | [tree] => rfl
    | right :: left :: rest => rfl

/-- The values that instructions leave are those of the trees that they rebuild. -/
theorem Program.map_value_rebuild (trees : List Tree) (instructions : List Instruction) :
    (rebuild trees instructions).map (Tree.value parameters) =
      effect parameters (trees.map (Tree.value parameters)) instructions := by
  induction instructions generalizing trees with
  | nil => rfl
  | cons instruction rest ih =>
    rw [rebuild_cons, ih, Instruction.map_value_graft]
    rfl

theorem map_value_constant (stack : List Float) :
    (stack.map Tree.constant).map (Tree.value parameters) = stack := by
  rw [List.map_map]
  exact List.map_id stack

theorem Instruction.length_effect {instruction : Instruction}
    (h : instruction.pops ≤ stack.length) :
    (instruction.effect parameters stack).length = instruction.depthAfter stack.length := by
  have hpops : instruction.pops ≤ (stack.map Tree.constant).length := by simpa using h
  have hlength := length_graft hpops
  rwa [← List.length_map (Tree.value parameters), map_value_graft, map_value_constant,
    List.length_map] at hlength

/-- The depth of the stack after instructions that find their operands does not depend on the
values. -/
theorem Program.length_effect {instructions : List Instruction}
    (h : Sustained stack.length instructions) :
    (effect parameters stack instructions).length = finalDepth stack.length instructions := by
  -- any stack of values is that of a stack of trees, whose length is known
  have hsustained : Sustained (stack.map Tree.constant).length instructions := by simpa using h
  have hlength := length_rebuild hsustained
  rwa [← List.length_map (Tree.value parameters), map_value_rebuild, map_value_constant,
    List.length_map] at hlength

/-- The instructions of a program leave one value on an empty stack. -/
theorem Program.exists_effect_eq_singleton (p : Program) (parameters : UInt32 → Float) :
    ∃ value, effect parameters [] p.instructions = [value] := by
  have hlength : (effect parameters [] p.instructions).length = finalDepth 0 p.instructions :=
    length_effect p.sustained
  rw [p.finalDepth_eq_one] at hlength
  exact List.length_eq_one_iff.mp hlength

/-- The instructions of a tree put its value on top of whatever is there. -/
theorem Tree.IsOver.effect_postorder {n : Nat} {tree : Tree} (h : tree.IsOver n)
    (stack : List Float) :
    effect parameters stack tree.postorder = tree.value parameters :: stack := by
  have hvalues : (rebuild (stack.map .constant) tree.postorder).map (Tree.value parameters) = _ :=
    map_value_rebuild _ _
  rwa [h.rebuild_postorder, List.map_cons, map_value_constant, eq_comm] at hvalues

end Formula
