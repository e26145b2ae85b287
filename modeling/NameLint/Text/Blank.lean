/-!
# Blank text

Text is blank when all of it is white space, by the property of the Unicode character database.
-/

namespace NameLint.Text

set_option autoImplicit false

/-- The first and the last code point of each range of white space. -/
def blankRanges : List (Nat × Nat) :=
  [(0x0009, 0x000D), (0x0020, 0x0020), (0x0085, 0x0085), (0x00A0, 0x00A0), (0x1680, 0x1680),
   (0x2000, 0x200A), (0x2028, 0x2029), (0x202F, 0x202F), (0x205F, 0x205F), (0x3000, 0x3000)]

def isBlankChar (c : Char) : Bool :=
  blankRanges.any fun range => range.1 ≤ c.toNat && c.toNat ≤ range.2

def isBlank (text : String) : Bool :=
  text.toList.all isBlankChar

end NameLint.Text
