import Formula.Fault
import Formula.Instruction

/-!
# Programs

A program is a list of instructions that never pops a value that is not there, reads only declared
parameters and leaves exactly one value. Whether it does can be told without running it, because the
depth of the operand stack does not depend on the arguments.

## Main definitions

- `verify`: the greatest depth of the operand stack, or why the instructions are no program
- `Program`: verified instructions
- `Program.ofInstructions`: makes a program of instructions
- `Program.depths`: the depth of the operand stack after each instruction

## Main statements

- `Program.ofInstructions_eq_ok_iff`: which program is made of which instructions
-/

namespace Formula

/-- The depth of the operand stack after an instruction, given the depth before it. -/
def Instruction.depthAfter (instruction : Instruction) (depth : Nat) : Nat :=
  depth - instruction.pops + 1

/-- Refuses an instruction that loads a parameter beyond the `arity` declared ones. -/
def Instruction.requireDeclared (arity : Nat) : Instruction → Except Fault Unit
  | .loadParameter index =>
    if index.toNat < arity then .ok () else .error (.invalidParameterIndex index arity)
  | _ => .ok ()

/-- Verifies the instructions from `position` on, where the operand stack has `depth` values and has
had at most `greatest` before. -/
def verifyFrom (arity position depth greatest : Nat) : List Instruction → Except Fault Nat
  | [] =>
    if depth = 1 then
      .ok greatest
    else
      .error (.malformedBytecode position "program must leave exactly one value on the stack")
  | instruction :: rest => do
    instruction.requireDeclared arity
    if depth < instruction.pops then
      throw (.underflow position)
    let depth := instruction.depthAfter depth
    verifyFrom arity (position + 1) depth (max greatest depth) rest

/-- The greatest depth that the operand stack has while the instructions are executed, or the reason
for which they are no program of `arity` parameters. -/
def verify (instructions : List Instruction) (arity : Nat) : Except Fault Nat :=
  if instructions.isEmpty then
    .error (.malformedBytecode 0 "program is empty")
  else
    verifyFrom arity 0 0 0 instructions

/-- Verified instructions. -/
structure Program where
  instructions : List Instruction
  /-- The number of parameters, used or not. -/
  arity : Nat
  /-- The greatest depth of the operand stack. -/
  maxDepth : Nat
  verified : verify instructions arity = .ok maxDepth

namespace Program

/-- Makes a program of instructions. -/
def ofInstructions (instructions : List Instruction) (arity : Nat) : Except Fault Program :=
  match verified : verify instructions arity with
  | .ok maxDepth => .ok { instructions, arity, maxDepth, verified }
  | .error fault => .error fault

/-- A program is made of its own instructions and of no others. -/
theorem ofInstructions_eq_ok_iff {instructions : List Instruction} {arity : Nat} {p : Program} :
    ofInstructions instructions arity = .ok p ↔
      p.instructions = instructions ∧ p.arity = arity := by
  constructor
  · intro h
    unfold ofInstructions at h
    split at h
    · cases h
      exact ⟨rfl, rfl⟩
    · cases h
  · rintro ⟨rfl, rfl⟩
    have verified := p.verified
    unfold ofInstructions
    split
    · rename_i maxDepth same
      cases p
      cases same.symm.trans verified
      rfl
    · rename_i fault refused
      cases refused.symm.trans verified

theorem ofInstructions_eq_error_iff {instructions : List Instruction} {arity : Nat}
    {fault : Fault} :
    ofInstructions instructions arity = .error fault ↔ verify instructions arity = .error fault := by
  unfold ofInstructions
  split <;> simp_all

theorem exists_ofInstructions {instructions : List Instruction} {arity maxDepth : Nat}
    (h : verify instructions arity = .ok maxDepth) :
    ∃ p, ofInstructions instructions arity = .ok p ∧ p.maxDepth = maxDepth :=
  ⟨⟨_, _, _, h⟩, ofInstructions_eq_ok_iff.mpr ⟨rfl, rfl⟩, rfl⟩

/-- The number of instructions. -/
def length (p : Program) : Nat :=
  p.instructions.length

/-- Equality with constants compared as numbers. -/
instance : BEq Program where
  beq p q := p.instructions == q.instructions && p.arity == q.arity && p.maxDepth == q.maxDepth

/-- The depths of the operand stack after each of the instructions, from a given depth on. -/
def depthsFrom (depth : Nat) : List Instruction → List Nat
  | [] => []
  | instruction :: rest =>
    let depth := instruction.depthAfter depth
    depth :: depthsFrom depth rest

/-- The depths of the operand stack after each instruction. -/
def depths (p : Program) : List Nat :=
  depthsFrom 0 p.instructions

end Program

end Formula
