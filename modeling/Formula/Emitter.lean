import Formula.Expression
import Formula.Program

/-!
# Emitting programs

An expression is compiled by a walk that emits one instruction per node. Operands are handled before
their operator, so the instructions are those of the tree in postorder. The emitter keeps account of
the operand stack, so that the greatest depth is known when the walk is over.

## Main definitions

- `Emitter`: the instructions emitted so far and the depths of the operand stack
- `Emitter.emit`, `Emitter.finish`: one more instruction; the program
- `Emitter.assemble`: the program of a whole list of instructions
- `Expression.emit`: the program of an expression
- `Expression.compile`: the same, with a report
-/

namespace Formula

/-- A program in the making. -/
structure Emitter where
  arity : Nat
  instructions : Array Instruction := #[]
  /-- The depth of the operand stack after the instructions. -/
  depth : Nat := 0
  /-- The greatest depth so far. -/
  maxDepth : Nat := 0

namespace Emitter

/-- Adds an instruction. The values that it pops must be there. -/
def emit (emitter : Emitter) (instruction : Instruction) : Except Breach Emitter :=
  if emitter.depth < instruction.pops then
    .error .emittedUnderflow
  else
    let depth := instruction.depthAfter emitter.depth
    .ok { emitter with
      instructions := emitter.instructions.push instruction
      depth
      maxDepth := max emitter.maxDepth depth }

/-- The finished program. The emitted instructions must leave one value, and they must verify with
the depth that was recorded while they were emitted. -/
def finish (emitter : Emitter) : Except Breach Program :=
  if emitter.depth = 1 then
    match verified : verify emitter.instructions.toList emitter.arity with
    | .ok maxDepth =>
      if maxDepth = emitter.maxDepth then
        .ok { verified, .. }
      else
        .error .unverifiedEmission
    | .error _ => .error .unverifiedEmission
  else
    .error .unbalancedEmission

/-- Emits the instructions one after the other and finishes. -/
def assemble (instructions : List Instruction) (arity : Nat) : Except Breach Program := do
  (← instructions.foldlM emit { arity }).finish

end Emitter

/-- Emits one instruction for each node. -/
def Walker.emitter : Walker (StateT Emitter (Except Breach)) Unit where
  constant value emitter := return ((), ← emitter.emit (.loadConstant value))
  parameter index _ emitter := return ((), ← emitter.emit (.loadParameter index))
  binary op _ _ emitter := return ((), ← emitter.emit (.operate op))

namespace Expression

/-- The program of an expression. -/
def emit (e : Expression) : Except Failure Program := do
  let (outcome, emitter) ← (e.root.walk Walker.emitter e.params).run.run { arity := e.arity }
  outcome
  emitter.finish

/-- Compiles an expression to its program and reports it. -/
def compile (e : Expression) : Attempt Program := do
  let p ← e.emit
  report (.emitted p.length p.maxDepth p.arity)
  return p

end Expression

end Formula
