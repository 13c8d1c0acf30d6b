import Formula.Emitter
import Formula.Proofs.Postorder

/-!
# Compiling expressions

The emitter learns of one instruction after the other and keeps account of the depth and of the
greatest depth so far. Whatever depths it starts with, its account of a list of instructions is the
one that verification makes, and a walk tells it the instructions of the tree in postorder.

## Main definitions

- `Emitter.extend`: the emitter after instructions that find their operands
- `Expression.program`: the nodes of an expression's tree in postorder

## Main statements

- `Emitter.foldlM_emit`: the emitter's account of instructions that find their operands
- `Tree.IsOver.walk_emitter`: a walk emits the postorder
- `Expression.run_compile`: an expression is compiled to its program
- `Expression.compile_postorder`: the instructions, the number of them and the greatest depth
-/

namespace Formula

open Program

/-! ### The emitter's account -/

namespace Emitter

theorem emit_of_le {emitter : Emitter} {instruction : Instruction}
    (h : instruction.pops ≤ emitter.depth) :
    emitter.emit instruction = .ok { emitter with
      instructions := emitter.instructions.push instruction
      depth := instruction.depthAfter emitter.depth
      maxDepth := max emitter.maxDepth (instruction.depthAfter emitter.depth) } := by
  rw [emit, if_neg (Nat.not_lt_of_le h)]

/-- The emitter with instructions added that find their operands. -/
def extend (emitter : Emitter) (instructions : List Instruction) : Emitter where
  arity := emitter.arity
  instructions := emitter.instructions ++ instructions
  depth := finalDepth emitter.depth instructions
  maxDepth := max emitter.maxDepth (peak emitter.depth instructions)

/-- The emitter's account of instructions is that of verification. -/
theorem foldlM_emit {emitter : Emitter} {instructions : List Instruction}
    (h : Sustained emitter.depth instructions) :
    instructions.foldlM emit emitter = .ok (emitter.extend instructions) := by
  induction instructions generalizing emitter with
  | nil => simp [extend, pure, Except.pure]
  | cons instruction rest ih =>
    rw [List.foldlM_cons, emit_of_le h.1, ok_bind, ih h.2, extend, extend, peak_cons,
      finalDepth_cons, Nat.max_assoc]
    simp

/-- The emitter finishes with a program if its account is that of the program. -/
theorem finish_eq_ok {emitter : Emitter} {p : Program} (hdepth : emitter.depth = 1)
    (hinstructions : emitter.instructions.toList = p.instructions)
    (harity : emitter.arity = p.arity) (hmax : emitter.maxDepth = p.maxDepth) :
    emitter.finish = .ok p := by
  -- what is emitted is verified once more, with the same outcome as the program
  have hverified := p.verified
  rw [← hinstructions, ← harity] at hverified
  rw [finish, if_pos hdepth]
  split
  · next maxDepth hsame =>
    have hmax' : maxDepth = p.maxDepth := Except.ok.inj (hsame.symm.trans hverified)
    rw [if_pos (hmax'.trans hmax.symm)]
    exact congrArg Except.ok (eq_of_instructions_eq hinstructions harity)
  · next fault hrefused =>
    rw [hrefused] at hverified
    cases hverified

end Emitter

/-- A walk over a node whose handler emits an instruction. -/
theorem run_liftM_emit {handler : StateT Emitter (Except Breach) Unit} {instruction : Instruction}
    (h : ∀ emitter : Emitter,
      handler emitter = emitter.emit instruction >>= fun emitter => .ok ((), emitter))
    (emitter : Emitter) :
    (liftM handler : ExceptT Fault (StateT Emitter (Except Breach)) Unit).run.run emitter =
      [instruction].foldlM Emitter.emit emitter >>= fun emitter => .ok (.ok (), emitter) := by
  have hrun :
      (liftM handler : ExceptT Fault (StateT Emitter (Except Breach)) Unit).run.run emitter =
        handler emitter >>= fun result => .ok (.ok result.1, result.2) := rfl
  rw [hrun, h, List.foldlM_cons]
  cases emitter.emit instruction <;> rfl

/-- A walk tells the emitter the instructions of the tree in postorder. -/
theorem Tree.IsOver.walk_emitter {tree : Tree} {names : List String}
    (h : tree.IsOver names.length) (emitter : Emitter) :
    (tree.walk Walker.emitter names).run.run emitter =
      tree.postorder.foldlM Emitter.emit emitter >>= fun emitter => .ok (.ok (), emitter) := by
  generalize hcount : names.length = count at h
  induction h generalizing emitter with
  | constant value => exact run_liftM_emit (fun _ => rfl) emitter
  | parameter hindex =>
    subst hcount
    rw [walk_parameter_of_lt _ hindex]
    exact run_liftM_emit (fun _ => rfl) emitter
  | binary op _ _ ihl ihr =>
    rw [walk_binary, Tree.postorder, List.foldlM_append, List.foldlM_append, ExceptT.run_bind,
      StateT.run_bind, ihl, bind_assoc, bind_assoc, bind_assoc]
    congr 1
    funext emitter
    -- the left operand is emitted; what follows starts with the emitter that it leaves
    change ((_ >>= fun r => _) : ExceptT Fault (StateT Emitter (Except Breach)) Unit).run.run
      emitter = _
    rw [ExceptT.run_bind, StateT.run_bind, ihr, bind_assoc]
    congr 1
    funext emitter
    exact run_liftM_emit (fun _ => by cases op <;> rfl) emitter

namespace Expression

/-- The nodes of the tree in postorder. -/
def program (e : Expression) : Program where
  instructions := e.root.postorder
  arity := e.arity
  maxDepth := e.root.need
  verified := e.root_isOver.verify_postorder

theorem emit_eq_ok (e : Expression) : e.emit = .ok e.program := by
  have hwalk := e.root_isOver.walk_emitter { arity := e.arity }
  rw [Emitter.foldlM_emit (e.root_isOver.sustained_postorder 0), ok_bind] at hwalk
  have hfinish : (Emitter.extend { arity := e.arity } e.root.postorder).finish = .ok e.program := by
    apply Emitter.finish_eq_ok
    · exact e.root_isOver.finalDepth_postorder 0
    · simp [Emitter.extend, program]
    · rfl
    · rw [Emitter.extend, e.root_isOver.peak_postorder, Nat.zero_add, Nat.zero_max]
      rfl
  unfold emit
  rw [hwalk]
  change (liftM (Emitter.finish _) : Except Failure Program) = _
  rw [hfinish]
  rfl

/-- An expression is always compiled, to the nodes of its tree in postorder. -/
theorem run_compile (e : Expression) :
    e.compile.run = ⟨.ok e.program, [.emitted e.root.size e.root.need e.arity]⟩ := by
  rw [compile, e.emit_eq_ok, ← e.root_isOver.length_postorder]
  rfl

theorem result_compile (e : Expression) : e.compile.result = .ok e.program :=
  congrArg Logged.value e.run_compile

/-- Every expression is compiled, and no check on the way fails. The instructions are the tree in
postorder, one for each node; the greatest depth is the room that the shape of the tree needs, which
is at most the depth of the tree. -/
theorem compile_postorder (e : Expression) :
    ∃ p, e.compile.result = .ok p ∧ p.arity = e.arity ∧ p.instructions = e.root.postorder ∧
      p.length = e.root.size ∧ p.maxDepth = e.root.need ∧ p.maxDepth ≤ e.root.depth :=
  ⟨e.program, e.result_compile, rfl, rfl, e.root_isOver.length_postorder, rfl,
    e.root_isOver.need_le_depth⟩

end Expression

end Formula
