import Nominal.Syntax.Pattern

/-!
# Reading Lexemes

A text is cut into pieces from its start on. Each piece is the longest text that a
pattern matches there, or, where none matches, the rejected text up to the place at
which no pattern can go on. A rejected piece has at least one character, so every piece
makes the rest shorter and the cutting ends.

Rejected pieces in a row become one piece of garbage. A run of odd characters is then
one mistake and not one per character, and no two garbage lexemes stand side by side.

## Main definitions

* `reach`: How far the patterns carry from a state.
* `Piece`: A matched lexeme or a rejected text.
* `pieces`: A text cut into pieces.
* `coalesce`: The lexemes of a list of pieces.
* `lex`: The lexemes of a source text.

## Theorems

* `Piece.cut_append`: A cut loses no character.
* `Piece.length_cut`: What a cut leaves is shorter.
-/

namespace Nominal

namespace Syntax

/-- How far the patterns carry from some state. -/
structure Reach where
  /-- The characters that are read until there is no step left. -/
  length : Nat
  /-- The characters up to the last final state on the way, and that state. -/
  accepted : Option (Nat × Pattern)

/-- Reads from the state `p` until there is no step left. -/
def reach (p : Pattern) : List Char → Reach
  | [] => ⟨0, if p.isFinal then some (0, p) else none⟩
  | c :: cs =>
    match p.step c with
    | none => ⟨0, if p.isFinal then some (0, p) else none⟩
    | some q =>
      let r := reach q cs
      match r.accepted with
      | some (n, last) => ⟨r.length + 1, some (n + 1, last)⟩
      | none => ⟨r.length + 1, if p.isFinal then some (0, p) else none⟩

/-- A matched lexeme, or a text that no pattern matches. -/
inductive Piece where
  | matched (lexeme : Lexeme)
  | rejected (text : List Char)
deriving DecidableEq, Repr

namespace Piece

/-- The characters of a piece. -/
def chars : Piece → List Char
  | matched lexeme => lexeme.text.toList
  | rejected text => text

/-- The piece at the front of a text that starts with `c`, and what is left. -/
def cut (c : Char) (cs : List Char) : Piece × List Char :=
  let text := c :: cs
  let r := reach .start text
  match r.accepted with
  | some (n, last) =>
    let word := String.ofList (text.take (max 1 n))
    match last.kind? word with
    | some kind => (matched ⟨kind, word⟩, text.drop (max 1 n))
    | none => (rejected [c], cs)
  | none => (rejected (text.take (max 1 r.length)), text.drop (max 1 r.length))

/-- A cut loses no character. -/
theorem cut_append (c : Char) (cs : List Char) :
    (cut c cs).1.chars ++ (cut c cs).2 = c :: cs := by
  simp only [cut]
  split
  · split
    · simp [chars]
    · simp [chars]
  · simp [chars]

/-- What a cut leaves is shorter than the text. -/
theorem length_cut (c : Char) (cs : List Char) : (cut c cs).2.length ≤ cs.length := by
  simp only [cut]
  split
  · split
    · simp only [List.length_drop, List.length_cons]; omega
    · exact Nat.le_refl _
  · simp only [List.length_drop, List.length_cons]; omega

end Piece

/-- At most `n` pieces from the front of a text. -/
def piecesUpTo : Nat → List Char → List Piece
  | 0, _ => []
  | _ + 1, [] => []
  | n + 1, c :: cs => (Piece.cut c cs).1 :: piecesUpTo n (Piece.cut c cs).2

/-- A text cut into pieces. There are no more of them than characters. -/
def pieces (text : List Char) : List Piece := piecesUpTo text.length text

/-- The lexemes of a list of pieces, where rejected pieces in a row are one lexeme. -/
def coalesce : List Piece → List Lexeme
  | [] => []
  | .matched lexeme :: ps => lexeme :: coalesce ps
  | .rejected text :: ps =>
    match coalesce ps with
    | ⟨.garbage, more⟩ :: ls => ⟨.garbage, String.ofList text ++ more⟩ :: ls
    | ls => ⟨.garbage, String.ofList text⟩ :: ls

/-- The lexemes of a source text. -/
def lex (source : String) : List Lexeme := coalesce (pieces source.toList)

end Syntax

end Nominal
