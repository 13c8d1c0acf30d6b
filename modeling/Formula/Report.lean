import Formula.Fault
import Formula.Text.Style

/-!
# Reports

A report tells a person about a problem in three lines: its code, what is wrong and what to do.

## Main definitions

- `Report`: the parts of a report
- `Report.ofFault`: the report of a fault
- `Report.plain`, `Report.color`: its text without and with terminal colours
-/

namespace Formula

/-- A problem as it is told to a person. -/
structure Report where
  /-- A name for the kind of problem. -/
  code : String
  message : String
  /-- What to do about it. -/
  advice : String
  deriving DecidableEq, Repr

namespace Report

/-- The report of a fault. -/
def ofFault (fault : Fault) : Report where
  code := "arith::" ++ fault.kind
  message := fault.message
  advice := fault.advice

/-- The message as a line, which has no blanks at its end. -/
def messageLine (r : Report) : String :=
  String.ofList (r.message.toList.reverse.dropWhile (· == ' ')).reverse

/-- The report, given how to mark its code and the sign before its message and how to mark the word
before its advice. -/
def render (mark note : String → String) (r : Report) : String :=
  mark r.code ++ "\n\n  " ++ mark "×" ++ " " ++ r.messageLine ++ "\n" ++
    note "  help: " ++ r.advice ++ "\n"

/-- The report without colours. -/
def plain (r : Report) : String :=
  r.render id id

/-- The report with colours. -/
def color (r : Report) : String :=
  r.render (styled .red) (styled .cyan)

end Report

end Formula
