import Nominal.Text.Blank

/-!
# Positions in a Text

Editors speak of lines and columns, both counted from one, and trees speak of byte
offsets. A column counts characters. A line ends before its line feed, so the position
just after the last character of a line still belongs to it, and a carriage return is a
character of the line like any other.

## Main definitions

* `Position`: A line and a column.
* `Position.of`: The position of a byte offset.
* `Position.offset?`: The byte offset of a position, if the text has that position.
* `Position.parse`: Reading a position written as `LINE:COL`.
* `Position.render`: A position written as `LINE:COL`.
-/

namespace Nominal

namespace Text

/-- A line and a column, both counted from one. -/
structure Position where
  line : Nat
  column : Nat
deriving DecidableEq, Repr, Inhabited

namespace Position

/-- The characters that end at or before a byte offset. -/
def charsBefore (offset : Nat) : List Char → List Char
  | [] => []
  | c :: cs => if c.utf8Size ≤ offset then c :: charsBefore (offset - c.utf8Size) cs else []

/-- The position after some characters from the start of a text. -/
def after (before : List Char) : Position :=
  ⟨before.count '\n' + 1, (before.reverse.takeWhile (· != '\n')).length + 1⟩

/-- The position of a byte offset. An offset inside a character counts as its start, and
    one past the end of the text as the end. -/
def of (source : String) (offset : Nat) : Position :=
  after (charsBefore offset source.toList)

/-- What is left of a text after `n` line feeds, with the bytes up to there. -/
def skipLines (n : Nat) : List Char → Option (Nat × List Char)
  | [] => if n = 0 then some (0, []) else none
  | c :: cs =>
    match n with
    | 0 => some (0, c :: cs)
    | m + 1 =>
      (skipLines (if c = '\n' then m else m + 1) cs).map fun r => (c.utf8Size + r.1, r.2)

/-- The bytes of the first `n` characters, all of which have to be on the first line. -/
def bytesOnLine (n : Nat) : List Char → Option Nat
  | [] => if n = 0 then some 0 else none
  | c :: cs =>
    match n with
    | 0 => some 0
    | m + 1 => if c = '\n' then none else (bytesOnLine m cs).map (c.utf8Size + ·)

/-- The byte offset of a position, or `none` when the text has no such line or the line
    no such column. -/
def offset? (p : Position) (source : String) : Option Nat :=
  if p.column = 0 then none
  else
    match skipLines (p.line - 1) source.toList with
    | none => none
    | some (start, rest) => (bytesOnLine (p.column - 1) rest).map (start + ·)

/-- A position written as `LINE:COL`. -/
def render (p : Position) : String := s!"{p.line}:{p.column}"

/-- Why a text is no position. -/
inductive ParseError where
  /-- There is no colon. -/
  | noColon (text : String)
  /-- The part before the colon is not a positive number. -/
  | line (part : String)
  /-- The part after the colon is not a positive number. -/
  | column (part : String)
deriving DecidableEq, Repr

/-- What is reported for a text that is no position. -/
def ParseError.message : ParseError → String
  | .noColon text => s!"expected LINE:COL, got '{text}'"
  | .line part => s!"line must be a positive number, got '{part}'"
  | .column part => s!"column must be a positive number, got '{part}'"

/-- The value of decimal digits that follow the digits of `value`. -/
def digitsValue (value : Nat) : List Char → Option Nat
  | [] => some value
  | c :: cs => if c.isDigit then digitsValue (value * 10 + (c.toNat - '0'.toNat)) cs else none

/-- A positive number of at most 64 bits, with blanks around it and a plus sign before it
    if the writer likes. -/
def positive? (part : List Char) : Option Nat :=
  let digits :=
    match trimmed part with
    | '+' :: rest => rest
    | rest => rest
  if digits.isEmpty then none
  else
    match digitsValue 0 digits with
    | none => none
    | some n => if 0 < n ∧ n < UInt64.size then some n else none

/-- Reads a position written as `LINE:COL`. Where both parts are wrong, the line is
    blamed. -/
def parse (text : String) : Except ParseError Position :=
  let chars := text.toList
  let linePart := chars.takeWhile (· != ':')
  match chars.dropWhile (· != ':') with
  | [] => .error (.noColon text)
  | _ :: columnPart =>
    match positive? linePart with
    | none => .error (.line (String.ofList linePart))
    | some line =>
      match positive? columnPart with
      | none => .error (.column (String.ofList columnPart))
      | some column => .ok ⟨line, column⟩

end Position

end Text

end Nominal
