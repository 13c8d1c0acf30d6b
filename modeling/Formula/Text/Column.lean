/-!
# Columns of text

Text is put into columns by filling it up with blanks. Text that is too long is not cut.

## Main definitions

- `Column.left`: text at the left edge of its column
- `Column.right`: text at the right edge of its column
-/

namespace Formula

namespace Column

/-- Text at the left edge of a column of `width` characters. -/
def left (width : Nat) (text : String) : String :=
  String.ofList (text.toList.rightpad width ' ')

/-- Text at the right edge of a column of `width` characters. -/
def right (width : Nat) (text : String) : String :=
  String.ofList (text.toList.leftpad width ' ')

end Column

end Formula
