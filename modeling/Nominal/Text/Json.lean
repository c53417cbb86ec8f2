/-!
# JSON Texts

Values are written as JSON, one member or element to a line, each level indented by two
more blanks. Empty lists and objects stay on their line. Members of an object keep their
order. In a text only what has to be escaped is escaped.

## Main definitions

* `Json`: A value to be written.
* `Json.quoted`: A text in quotation marks.
* `Json.pretty`: A value as a text of several lines.
-/

namespace Nominal

namespace Text

/-- A value to be written as JSON. -/
inductive Json where
  | text (text : String)
  | number (value : Nat)
  | list (items : List Json)
  | object (members : List (String × Json))

namespace Json

/-- A digit to the base sixteen. -/
def hexDigit (n : Nat) : Char :=
  if n < 10 then Char.ofNat ('0'.toNat + n) else Char.ofNat ('a'.toNat + (n - 10))

/-- A character as it stands in quotation marks. -/
def escaped (c : Char) : List Char :=
  if c = '"' then ['\\', '"']
  else if c = '\\' then ['\\', '\\']
  else if c = '\x08' then ['\\', 'b']
  else if c = '\x0c' then ['\\', 'f']
  else if c = '\n' then ['\\', 'n']
  else if c = '\r' then ['\\', 'r']
  else if c = '\t' then ['\\', 't']
  else if c.toNat < 32 then
    ['\\', 'u', '0', '0', hexDigit (c.toNat / 16), hexDigit (c.toNat % 16)]
  else [c]

/-- A text in quotation marks. -/
def quoted (text : String) : String :=
  String.ofList ('"' :: text.toList.flatMap escaped ++ ['"'])

/-- The start of a line on a level. -/
def lineStart (level : Nat) : String := "\n" ++ String.ofList (List.replicate (2 * level) ' ')

/-- What stands on lines of its own between brackets; nothing if there are no lines. -/
def bracketed (left right : String) (level : Nat) (lines : List String) : String :=
  if lines.isEmpty then left ++ right
  else
    left ++ ",".intercalate (lines.map fun line => lineStart (level + 1) ++ line)
      ++ lineStart level ++ right

mutual

/-- A value that starts on a line of a level. -/
def prettyAt (level : Nat) : Json → String
  | text t => quoted t
  | number n => toString n
  | list items => bracketed "[" "]" level (prettyItems (level + 1) items)
  | object members => bracketed "\x7b" "\x7d" level (prettyMembers (level + 1) members)

/-- Values that stand on lines of a level. -/
def prettyItems (level : Nat) : List Json → List String
  | [] => []
  | item :: items => prettyAt level item :: prettyItems level items

/-- The members of an object on lines of a level. -/
def prettyMembers (level : Nat) : List (String × Json) → List String
  | [] => []
  | (key, value) :: members =>
    (quoted key ++ ": " ++ prettyAt level value) :: prettyMembers level members

end

/-- A value as a text of several lines. -/
def pretty (j : Json) : String := prettyAt 0 j

end Json

end Text

end Nominal
