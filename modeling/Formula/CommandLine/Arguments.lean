import Formula.Backend
import Formula.Number.Reading

/-!
# Command-line arguments

How the words of a command line are read. They are read from left to right, and the first word that
asks for help or cannot be accepted decides.

## Main definitions

- `Options`: what the command line asks for
- `Word`, `Word.ofText`: the forms of words
- `isNumeral`: which words that start with a minus sign are numbers
- `Options.read`: reads a command line
- `Misuse`: why a command line is refused

## Design notes

Words that start with a minus sign are options, unless they look like a negative number or follow
the word `--`, after which there are numbers only.
-/

namespace Formula

/-- Which backends run the function. -/
inductive BackendChoice where
  | only (backend : Backend)
  /-- All backends of the build. -/
  | all
  deriving DecidableEq, Repr

namespace BackendChoice

/-- The chosen backends. A backend is run on request even if the build does not contain it. -/
def backends (build : Build) : BackendChoice → List Backend
  | .only backend => [backend]
  | .all => build.backends

/-- The choice with the given name. -/
def ofName? (name : String) : Option BackendChoice :=
  if name = "all" then some .all else (Backend.ofName? name).map .only

end BackendChoice

/-- What is shown before the results. -/
inductive Overview where
  | rendering
  | bytecode
  | all
  | none
  deriving DecidableEq, Repr

namespace Overview

/-- Whether the rendering of the expression is shown. -/
def showsRendering (overview : Overview) : Bool :=
  overview = .rendering || overview = .all

/-- Whether the program is shown. -/
def showsBytecode (overview : Overview) : Bool :=
  overview = .bytecode || overview = .all

/-- The overview with the given name. -/
def ofName? (name : String) : Option Overview :=
  match name with
  | "prefix" => some .rendering
  | "bytecode" => some .bytecode
  | "all" => some .all
  | "none" => some .none
  | _ => Option.none

end Overview

/-- What the command line asks for. Settings that are not given are absent. -/
structure Options where
  sample : Option String := none
  backends : Option BackendChoice := none
  overview : Option Overview := none
  /-- Asks for the list of samples. -/
  list : Bool := false
  args : List Float := []
  deriving Repr

/-- A setting that takes a value. -/
inductive Setting where
  | sample
  | backend
  | overview
  deriving DecidableEq, Repr

namespace Setting

/-- The name of the setting on the command line. -/
def name : Setting → String
  | .sample => "sample"
  | .backend => "backend"
  | .overview => "show"

/-- The setting with the given name. -/
def ofName? (name : String) : Option Setting :=
  [sample, backend, overview].find? fun setting => setting.name == name

end Setting

/-- Why a command line is refused. -/
inductive Misuse where
  | unknownOption (word : String)
  | repeatedOption (name : String)
  | missingValue (name : String)
  | unexpectedValue (name : String)
  | invalidValue (text : String)
  deriving DecidableEq, Repr

namespace Misuse

/-- What is wrong with the command line. -/
def message : Misuse → String
  | .unknownOption word => s!"unexpected argument '{word}' found"
  | .repeatedOption name => s!"the argument '--{name}' cannot be used multiple times"
  | .missingValue name => s!"a value is required for '--{name}' but none was supplied"
  | .unexpectedValue name => s!"unexpected value for '--{name}' found; no more were expected"
  | .invalidValue text => s!"invalid value '{text}'"

end Misuse

/-- Why the reading of a command line ends early. -/
inductive Stop where
  | help
  | misuse (reason : Misuse)
  deriving DecidableEq, Repr

/-! ### The forms of words -/

/-- The rest of a numeral: digits, at most one point, and at most one letter `e` of either case, after
which there are digits only and at least one of them. A point may still follow if `point` holds, and
the letter if `exponent` does. -/
def isNumeralFrom (point exponent : Bool) : List Char → Bool
  | [] => true
  | c :: cs =>
    if c.isDigit then
      isNumeralFrom point exponent cs
    else if c = '.' then
      point && exponent && isNumeralFrom false exponent cs
    else if c = 'e' ∨ c = 'E' then
      exponent && !cs.isEmpty && isNumeralFrom point false cs
    else
      false

/-- A numeral without a sign, which starts with a digit. Exponents have no sign either. -/
def isNumeral : List Char → Bool
  | [] => false
  | c :: cs => c.isDigit && isNumeralFrom true true cs

/-- The form of a word. -/
inductive Word where
  /-- The word `--`. -/
  | terminator
  /-- A word such as `--name` or `--name=value`. -/
  | long (name : String) (value : Option String)
  /-- A word such as `-h`. -/
  | short (letters : List Char)
  /-- Any other word, negative numbers included. -/
  | value
  deriving DecidableEq, Repr

namespace Word

/-- Splits the name of a long option from its value at the first equals sign. -/
def splitValue (text : List Char) : Word :=
  let name := text.takeWhile (· != '=')
  match text.dropWhile (· != '=') with
  | [] => .long (String.ofList name) none
  | _ :: rest => .long (String.ofList name) (some (String.ofList rest))

/-- The form of a word. -/
def ofText (text : String) : Word :=
  match text.toList with
  | ['-', '-'] => .terminator
  | '-' :: '-' :: rest => splitValue rest
  | '-' :: c :: cs => if isNumeral (c :: cs) then .value else .short (c :: cs)
  | _ => .value

end Word

/-! ### Reading -/

namespace Options

/-- Gives a value to a setting that has none yet. -/
def assign (options : Options) (setting : Setting) (text : String) : Except Stop Options :=
  match setting with
  | .sample =>
    if options.sample.isSome then
      .error (.misuse (.repeatedOption setting.name))
    else
      .ok { options with sample := some text }
  | .backend =>
    match options.backends, BackendChoice.ofName? text with
    | some _, _ => .error (.misuse (.repeatedOption setting.name))
    | none, none => .error (.misuse (.invalidValue text))
    | none, choice => .ok { options with backends := choice }
  | .overview =>
    match options.overview, Overview.ofName? text with
    | some _, _ => .error (.misuse (.repeatedOption setting.name))
    | none, none => .error (.misuse (.invalidValue text))
    | none, overview => .ok { options with overview }

/-- Asks for the list of samples unless that has been done. -/
def requestList (options : Options) : Except Stop Options :=
  if options.list then
    .error (.misuse (.repeatedOption "list"))
  else
    .ok { options with list := true }

/-- Adds an argument of the function. -/
def addArg (options : Options) (text : String) : Except Stop Options :=
  match Number.ofText? text with
  | some value => .ok { options with args := options.args ++ [value] }
  | none => .error (.misuse (.invalidValue text))

/-- Reads the words of a command line into the options read so far. The word after a setting without
a value is its value, unless it is an option itself. -/
def readFrom (options : Options) : List String → Except Stop Options
  | [] => .ok options
  | text :: rest =>
    match Word.ofText text with
    | .terminator => rest.foldlM addArg options
    | .value => do
      readFrom (← options.addArg text) rest
    | .short letters =>
      if letters.head? = some 'h' then
        .error .help
      else
        .error (.misuse (.unknownOption text))
    | .long "help" none => .error .help
    | .long "list" none => do
      readFrom (← options.requestList) rest
    | .long name value =>
      match Setting.ofName? name, value, rest with
      | some setting, some value, rest => do
        readFrom (← options.assign setting value) rest
      | some setting, none, value :: rest => do
        if Word.ofText value = .value then
          readFrom (← options.assign setting value) rest
        else
          throw (.misuse (.missingValue name))
      | some _, none, [] => .error (.misuse (.missingValue name))
      | none, _, _ =>
        if name = "help" ∨ name = "list" then
          .error (.misuse (.unexpectedValue name))
        else
          .error (.misuse (.unknownOption text))

/-- Reads a command line. -/
def read (words : List String) : Except Stop Options :=
  readFrom {} words

end Options

end Formula
