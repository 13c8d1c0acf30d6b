/-!
# Text styles

Text on a terminal can be coloured, dimmed or slanted by escape sequences around it.

## Main definitions

- `Style`: the styles
- `styled`: text in a style
-/

namespace Formula

/-- A style of text on a terminal. -/
inductive Style where
  | red
  | green
  | yellow
  | blue
  | magenta
  | cyan
  | dim
  | italic
  deriving DecidableEq, Repr

/-- The parameter of the terminal's escape sequence for the style. -/
def Style.code : Style → String
  | .red => "31"
  | .green => "32"
  | .yellow => "33"
  | .blue => "34"
  | .magenta => "35"
  | .cyan => "36"
  | .dim => "2"
  | .italic => "3"

/-- Text in a style, with the terminal's own style after it. -/
def styled (style : Style) (text : String) : String :=
  s!"\x1b[{style.code}m{text}\x1b[0m"

end Formula
