import Formula.Event
import Formula.Text.Style

/-!
# Log lines

Which events are logged and how a line of the log looks on a terminal.

## Main definitions

- `Verbosity`: the least important level that is logged, if any is
- `Verbosity.ofName?`: the verbosity with a given name
- `Event.logLine`: the line of an event
-/

namespace Formula

/-- How much is logged. -/
inductive Verbosity where
  | silent
  /-- Logs the level and all that are more important. -/
  | upTo (level : Level)
  deriving DecidableEq, Repr

namespace Verbosity

/-- Warnings are logged where nothing else is asked for. -/
instance : Inhabited Verbosity := ⟨.upTo .warn⟩

/-- The verbosity with the name `off` or that of a level, in letters of either case. -/
def ofName? (name : String) : Option Verbosity :=
  if name.toUpper = "OFF" then
    some .silent
  else
    (Level.all.find? fun level => level.name = name.toUpper).map .upTo

/-- Whether lines of the level are logged. -/
def logs : Verbosity → Level → Bool
  | .silent, _ => false
  | .upTo least, level => level.rank ≤ least.rank

end Verbosity

/-- The colour of the level's name. -/
def Level.style : Level → Style
  | .error => .red
  | .warn => .yellow
  | .info => .green
  | .debug => .blue
  | .trace => .magenta

/-- The line of an event that is logged at the given time. -/
def Event.logLine (time : String) (event : Event) : String :=
  let level := styled event.level.style event.level.name
  let shown := event.fields.map fun (name, value) =>
    " " ++ styled .italic name ++ styled .dim "=" ++ value.render
  styled .dim time ++ " " ++ level ++ " " ++ event.message ++ String.join shown ++ "\n"

end Formula
