import Nominal.Text.CodeRange

/-!
# Blanks

The characters with the property White_Space of the Unicode standard, and the trimming
of a text by them.

## Main definitions

* `blankRanges`: The ranges of blank characters.
* `isBlank`: Whether a character is blank.
* `trimmed`: A text without the blanks at its ends.
-/

namespace Nominal

namespace Text

/-- The ranges of blank characters. -/
def blankRanges : List CodeRange :=
  [(0x9, 0xd), (0x20, 0x20), (0x85, 0x85), (0xa0, 0xa0), (0x1680, 0x1680), (0x2000, 0x200a),
   (0x2028, 0x2029), (0x202f, 0x202f), (0x205f, 0x205f), (0x3000, 0x3000)]

/-- Whether a character is blank. -/
def isBlank (c : Char) : Bool := CodeRange.anyHas blankRanges c

/-- A text without the blanks at its ends. -/
def trimmed (text : List Char) : List Char :=
  ((text.dropWhile isBlank).reverse.dropWhile isBlank).reverse

end Text

end Nominal
