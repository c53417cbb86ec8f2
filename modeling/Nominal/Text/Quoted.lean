import Nominal.Text.Unprintable

/-!
# Quoted Text

A dump shows the text of a token between double quotes on one line. A quote and a
backslash are marked with a backslash, the control characters that have a letter of
their own are shown by it, and whatever else does not print alone is shown by its
number.

## Main definitions

* `quotedChar`: How one character is shown.
* `quoted`: A text between quotes.
-/

namespace Nominal

namespace Text

/-- How one character is shown between double quotes. -/
def quotedChar (c : Char) : List Char :=
  match c with
  | '"' => ['\\', '"']
  | '\\' => ['\\', '\\']
  | '\n' => ['\\', 'n']
  | '\r' => ['\\', 'r']
  | '\t' => ['\\', 't']
  | '\x00' => ['\\', '0']
  | c =>
    if printsAlone c then [c]
    else "\\u\x7b".toList ++ Nat.toDigits 16 c.toNat ++ ['\x7d']

/-- A text between double quotes. -/
def quoted (text : String) : String :=
  String.ofList ('"' :: (text.toList.flatMap quotedChar ++ ['"']))

end Text

end Nominal
