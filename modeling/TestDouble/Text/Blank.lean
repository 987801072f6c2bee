import TestDouble.Text.Ranges

/-!
# Blank characters

The characters that separate lexical items and that are trimmed from the ends of a text: the
separators, the white-space controls U+0009 to U+000D and the information separators U+001C to
U+001F. Zero-width characters are not blank.
-/

namespace TestDouble.Text

/-- The blank code points. -/
def blankRanges : Ranges :=
  [(0x09, 0x0D), (0x1C, 0x20), (0x85, 0x85), (0xA0, 0xA0), (0x1680, 0x1680), (0x2000, 0x200A),
   (0x2028, 0x2029), (0x202F, 0x202F), (0x205F, 0x205F), (0x3000, 0x3000)]

def isBlank (c : Char) : Bool :=
  blankRanges.covers c.toNat

/-- Drops the blank characters at both ends. -/
def trimBlank (cs : List Char) : List Char :=
  ((cs.dropWhile isBlank).reverse.dropWhile isBlank).reverse

end TestDouble.Text
