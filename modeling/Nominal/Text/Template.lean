/-!
# Templates

A template is a text with places for an argument, each written as a zero in braces.
Filling it in puts the argument into every place; what the argument itself contains is
not looked at again.

## Main definitions

* `Template.fill`: A template with an argument in its places.
-/

namespace Nominal

namespace Text

namespace Template

/-- The characters of a template with an argument in its places. -/
def fillChars (argument : List Char) : List Char → List Char
  | '\x7b' :: '0' :: '\x7d' :: cs => argument ++ fillChars argument cs
  | c :: cs => c :: fillChars argument cs
  | [] => []

/-- A template with an argument in its places. -/
def fill (template argument : String) : String :=
  String.ofList (fillChars argument.toList template.toList)

end Template

end Text

end Nominal
