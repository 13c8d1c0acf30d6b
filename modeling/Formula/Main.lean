import Formula.CommandLine

/-! The program: prints what a command line asks for. -/

open Formula

/-- The environment variable that sets the verbosity. -/
def verbosityVariable : String := "ARITH_LOG"

def main (words : List String) : IO UInt32 := do
  let name ← IO.getEnv verbosityVariable
  let verbosity := (name.bind Verbosity.ofName?).getD default
  let result := CommandLine.run .portable words
  let time ← IO.monoMsNow
  let printout := Printout.ofEntries verbosity (toString time) result.entries
  IO.print printout.output
  IO.eprint printout.errors
  return UInt32.ofNat result.value
