import Formula.Program
import Formula.Text.Column

/-!
# Listings

A program is listed with one line per instruction: its address, the instruction, and the depth of
the operand stack after it.

## Main definitions

- `Program.lines`: the lines of the instructions
- `Program.listing`: the lines together with the program's sizes
-/

namespace Formula

namespace Program

/-- The line of an instruction at an address, which leaves an operand stack of the given depth. -/
def line (address : Nat) (instruction : Instruction) (depth : Nat) : String :=
  let place := Column.right 4 (toString address)
  s!"{place}  {Column.left 12 instruction.text} ; depth {depth}"

/-- A line for each instruction. -/
def lines (p : Program) : List String :=
  (p.instructions.zip p.depths).zipIdx.map fun ((instruction, depth), address) =>
    line address instruction depth

/-- The lines of the program below its sizes. -/
def listing (p : Program) : String :=
  "Code \x7b\n" ++
    s!"  arity: {p.arity}\n" ++
    s!"  max_stack_size: {p.maxDepth}\n" ++
    "  instructions:\n" ++
    String.join (p.lines.map fun line => s!"    {line}\n") ++
    "\x7d"

end Program

end Formula
