import Nominal.Syntax.Kind
import Nominal.Text.Span

/-!
# Lexemes

A lexeme is a piece of source text with the kind it was read as. It does not know where
it stands: its place follows from the widths of the lexemes before it, so a list of
lexemes is the same value wherever it is found, and joining two lists needs no
renumbering.

## Main definitions

* `Lexeme`: A piece of text and its kind.
* `Lexeme.textOf`: The text that a list of lexemes covers.
* `Lexeme.placed`: A list of lexemes, each with the span it covers.

## Theorems

* `Lexeme.textOf_append`: The text of two lists is the two texts in turn.
-/

namespace Nominal

namespace Syntax

open Text (Span)

/-- A piece of source text and the kind it was read as. -/
structure Lexeme where
  kind : Kind
  text : String
deriving DecidableEq, Repr, Inhabited

namespace Lexeme

/-- The number of bytes that a lexeme covers. -/
def width (l : Lexeme) : Nat := l.text.utf8ByteSize

/-- Blanks, line ends and comments. -/
def isTrivia (l : Lexeme) : Bool := l.kind.isTrivia

/-- The text that a list of lexemes covers. -/
def textOf : List Lexeme → String
  | [] => ""
  | l :: ls => l.text ++ textOf ls

/-- The number of bytes that a list of lexemes covers. -/
def widthOf : List Lexeme → Nat
  | [] => 0
  | l :: ls => l.width + widthOf ls

/-- The lexemes of a list, each with the span it covers when the first starts at `start`. -/
def placed (start : Nat) : List Lexeme → List (Lexeme × Span)
  | [] => []
  | l :: ls => (l, Span.ofWidth start l.width) :: placed (start + l.width) ls

/-- The text of two lists is the two texts in turn. -/
theorem textOf_append (xs ys : List Lexeme) : textOf (xs ++ ys) = textOf xs ++ textOf ys := by
  induction xs with
  | nil => simp [textOf]
  | cons l ls ih => simp [textOf, ih, String.append_assoc]

/-- A list is as wide as the text it covers. -/
theorem widthOf_eq (ls : List Lexeme) : widthOf ls = (textOf ls).utf8ByteSize := by
  induction ls with
  | nil => rfl
  | cons l ls ih => simp [textOf, widthOf, ih, width, String.utf8ByteSize_append]

/-- The width of two lists is their widths together. -/
theorem widthOf_append (xs ys : List Lexeme) :
    widthOf (xs ++ ys) = widthOf xs + widthOf ys := by
  rw [widthOf_eq, textOf_append, String.utf8ByteSize_append, ← widthOf_eq, ← widthOf_eq]

end Lexeme

end Syntax

end Nominal
