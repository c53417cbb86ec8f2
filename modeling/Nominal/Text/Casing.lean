import Nominal.Text.Alphabetic
import Nominal.Text.Lowercase
import Nominal.Text.Numeric
import Nominal.Text.CaseMap

/-!
# Names of Types and Names of Variables

A type is named in Pascal case: every word of the name starts with a capital and the
words are joined. Here a name is taken apart at its separators, so that the words of
`order_line` are found, while the capitals inside `orderLine` already mark its second
word and are kept. A word without any small letter shouts, and only its first character
stays a capital.

## Main definitions

* `words`: The words of a name.
* `pascalCase`: A name in Pascal case.
* `isIdentifier`: Whether a text has the form of an identifier.
-/

namespace Nominal

namespace Text

/-- Whether a character parts the words of a name. -/
def isSeparator (c : Char) : Bool := c == '_' || c == '-' || c == '.' || c == ' '

/-- The words of a name, some of them empty where separators meet. -/
def words : List Char → List (List Char)
  | [] => [[]]
  | c :: cs =>
    if isSeparator c then [] :: words cs
    else
      match words cs with
      | w :: ws => (c :: w) :: ws
      | [] => [[c]]

/-- A word with a capital first; a word without any small letter keeps no other capital. -/
def pascalWord : List Char → List Char
  | [] => []
  | c :: cs =>
    toUppercase c ++ (if (c :: cs).any isLowercase then cs else cs.flatMap toLowercase)

/-- A name in Pascal case. -/
def pascalCase (name : String) : String :=
  String.ofList ((words name.toList).flatMap pascalWord)

/-- Whether a text is a letter or `_` followed by letters, numbers and `_`. -/
def isIdentifier (text : String) : Bool :=
  match text.toList with
  | [] => false
  | c :: cs =>
    (isAlphabetic c || c == '_') && cs.all fun d => isAlphabetic d || isNumeric d || d == '_'

end Text

end Nominal
