import Formula.Number
import Formula.Operator

/-!
# Instructions

The instructions of programs for an operand stack. Each of them pushes one value: a constant, an
argument, or the result of an operator on the two values that it pops.

## Main definitions

- `Instruction`: loads and operators
- `Instruction.pops`: how many values an instruction pops before it pushes one
- `Instruction.text`: the instruction in listings
-/

namespace Formula

/-- An instruction for an operand stack. -/
inductive Instruction where
  /-- Pushes a constant. -/
  | loadConstant (value : Float)
  /-- Pushes the argument at an index. -/
  | loadParameter (index : UInt32)
  /-- Pops the right operand, then the left one, and pushes the result. -/
  | operate (op : Operator)
  deriving BEq, DecidableEq, Repr

namespace Instruction

/-- The number of values popped before the result is pushed. -/
def pops : Instruction → Nat
  | .operate _ => 2
  | _ => 0

/-- The operator of an instruction that has one. -/
def operator? : Instruction → Option Operator
  | .operate op => some op
  | _ => none

/-- The instruction in listings. -/
def text : Instruction → String
  | .loadConstant value => s!"ldc {Number.compact value}"
  | .loadParameter index => s!"ldarg {index}"
  | .operate op => op.mnemonic

end Instruction

end Formula
