import Mathlib.Data.List.DropRight

namespace PostsMedia

/-- A UTF-16 code unit. -/
abbrev CodeUnit := UInt16

/-- A JavaScript string is a list of code units. It may hold unpaired surrogates. -/
abbrev Text := List CodeUnit

namespace Text

def ofChar (c : Char) : Text :=
  let point := c.toNat
  if point < 0x10000 then [.ofNat point]
  else [.ofNat (0xD800 + (point - 0x10000) / 0x400), .ofNat (0xDC00 + (point - 0x10000) % 0x400)]

/-- The code units of a literal or of a stored text. -/
def ofString (s : String) : Text := s.toList.flatMap ofChar

/-- The lower-case letter of an ASCII capital. -/
def lowerUnit (unit : CodeUnit) : CodeUnit :=
  if 0x41 ≤ unit && unit ≤ 0x5A then unit + 0x20 else unit

/-- The white space and the line terminators of `trim` and of the class `\s`. -/
def isWhiteSpace (unit : CodeUnit) : Bool :=
  [0x09, 0x0A, 0x0B, 0x0C, 0x0D, 0x20, 0xA0, 0x1680, 0x2028, 0x2029, 0x202F, 0x205F, 0x3000,
    0xFEFF].contains unit || (0x2000 ≤ unit && unit ≤ 0x200A)

def trim (text : Text) : Text := (text.dropWhile isWhiteSpace).rdropWhile isWhiteSpace

end Text

end PostsMedia
