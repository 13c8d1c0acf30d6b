import Formula.Number

/-!
# Reading numbers

The grammar of a number on the command line. A number has an optional sign and is either one of
the words `inf`, `infinity` and `nan` in any letter case, or decimal digits with an optional point
and an optional exponent. At least one digit stands before or after the point; nothing else, and
no blank, may follow. The value is the double nearest to what is written.

## Main definitions

- `Number.decimal?`: reads digits, point and exponent
- `Number.ofText?`: reads a whole text as a double
-/

namespace Formula

namespace Number

/-- The value of a list of decimal digits. -/
def digitsValue (ds : List Char) : Nat :=
  Nat.ofDigitChars 10 ds 0

/-- Reads the digits of an exponent: at least one, and nothing after them. -/
def exponentDigits? (ds : List Char) : Option Nat :=
  if ds ≠ [] ∧ ds.all Char.isDigit then some (digitsValue ds) else none

/-- Reads what follows the digits of a number: nothing, or a letter `e` of either case with a
whole number behind it. -/
def exponent? : List Char → Option Int
  | [] => some 0
  | c :: rest =>
    if c = 'e' ∨ c = 'E' then
      match rest with
      | '-' :: ds => (exponentDigits? ds).map fun n => -n
      | '+' :: ds => (exponentDigits? ds).map fun n => n
      | ds => (exponentDigits? ds).map fun n => n
    else
      none

/-- Splits a text after its leading digits into the digits behind a point and the rest. -/
def splitFraction : List Char → List Char × List Char
  | '.' :: rest => rest.span Char.isDigit
  | rest => ([], rest)

/-- Reads an unsigned decimal number. -/
def decimal? (text : List Char) : Option Decimal :=
  let (whole, rest) := text.span Char.isDigit
  let (fraction, rest) := splitFraction rest
  if whole = [] ∧ fraction = [] then
    none
  else
    (exponent? rest).map fun e => ⟨digitsValue (whole ++ fraction), e - fraction.length⟩

/-- Splits an optional sign off a text; the first part tells whether it is a minus. -/
def splitSign : List Char → Bool × List Char
  | '-' :: rest => (true, rest)
  | '+' :: rest => (false, rest)
  | rest => (false, rest)

/-- The pattern of the magnitude that an unsigned text stands for. NaN has a pattern above that of
infinity. -/
def magnitude? (text : List Char) : Option Nat :=
  let word := text.map Char.toLower
  if word = ['i', 'n', 'f'] ∨ word = ['i', 'n', 'f', 'i', 'n', 'i', 't', 'y'] then
    some Binary64.infinity
  else if word = ['n', 'a', 'n'] then
    some (Binary64.infinity + Nat.pow 2 51)
  else
    (decimal? text).map Binary64.nearest

/-- Reads a number, or returns `none` if the text does not follow the grammar. -/
def ofText? (text : String) : Option Float :=
  let (negative, rest) := splitSign text.toList
  (magnitude? rest).map (ofMagnitude negative)

end Number

end Formula
