/-!
# Ranges of Code Points

The properties of characters that the Unicode standard defines are held as lists of the
ranges of code points that have them. A question about a character of the ASCII block is
answered by a rule where that is shorter, so that the common case reads no list.

## Main definitions

* `CodeRange`: The code points between two bounds.
* `CodeRange.anyHas`: Whether a character lies in one of several ranges.
-/

namespace Nominal

namespace Text

/-- The code points from the first number up to the second. -/
abbrev CodeRange := Nat × Nat

namespace CodeRange

/-- Whether a character lies in one of the ranges. -/
def anyHas (ranges : List CodeRange) (c : Char) : Bool :=
  ranges.any fun r => decide (r.1 ≤ c.toNat) && decide (c.toNat ≤ r.2)

end CodeRange

end Text

end Nominal
