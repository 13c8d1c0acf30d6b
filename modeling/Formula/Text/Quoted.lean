import Formula.Text.Extending
import Formula.Text.Ignorable
import Formula.Text.Unprintable

/-!
# Quoted text

Text between double quotes, with escapes for what could not be read off a terminal.

## Main definitions

- `Quoted.isHidden`: which characters cannot be shown as they are
- `Quoted.escape`: the form of one character
- `quoted`: text between quotes
- `quotedList`: a list of such texts between brackets
-/

namespace Formula

namespace Quoted

/-- A character by its code point in hexadecimal digits. -/
def byCodePoint (c : Char) : List Char :=
  ['\\', 'u', '\x7b'] ++ Nat.toDigits 16 c.toNat ++ ['\x7d']

/-- The halfwidth sound marks. They extend the character before them, but stand in a cell of their
own. -/
def isHalfwidthMark (c : Char) : Bool :=
  c = '\uFF9E' || c = '\uFF9F'

/-- The character could not be told from its neighbours: it has no visible form, or it joins the
character before it. -/
def isHidden (c : Char) : Bool :=
  isUnprintable c || isIgnorable c || (isExtending c && !isHalfwidthMark c)

/-- The form of a character between quotes: a short escape where there is one, the code point of
hidden characters, and all else as it is. -/
def escape (c : Char) : List Char :=
  match c with
  | '\x00' => ['\\', '0']
  | '\t' => ['\\', 't']
  | '\n' => ['\\', 'n']
  | '\r' => ['\\', 'r']
  | '"' => ['\\', '"']
  | '\\' => ['\\', '\\']
  | c => if isHidden c then byCodePoint c else [c]

end Quoted

/-- Text between double quotes. -/
def quoted (text : String) : String :=
  String.ofList (['"'] ++ text.toList.flatMap Quoted.escape ++ ['"'])

/-- A list of quoted texts between brackets. -/
def quotedList (texts : List String) : String :=
  "[" ++ ", ".intercalate (texts.map quoted) ++ "]"

end Formula
