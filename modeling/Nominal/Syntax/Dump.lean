import Nominal.Syntax.Tree
import Nominal.Text.Quoted

/-!
# Dumps of a Tree

A dump shows a tree with one node or token on a line, two blanks deeper than its parent.
It may leave trivia out, add the span of everything, and colour the lines for a
terminal. The colours stand for sorts of content: the kind of a node, the text of a
token, and what is of less interest.

## Main definitions

* `Palette`: The marks that switch colours.
* `DumpStyle`: What a dump shows.
* `Tree.dumpLines`: The lines of a dump.
* `Tree.dump`: A dump as one text.
-/

namespace Nominal

namespace Syntax

open Text (Span quoted)

/-- The marks that switch to a colour, and the one that switches back. -/
structure Palette where
  node : String
  token : String
  dim : String
  reset : String

namespace Palette

/-- Without colours. -/
def plain : Palette := ⟨"", "", "", ""⟩

/-- Colours of every terminal: nodes blue, tokens green. -/
def terminal : Palette := ⟨"\x1b[34m", "\x1b[32m", "\x1b[2m", "\x1b[0m"⟩

end Palette

/-- What a dump shows. -/
structure DumpStyle where
  trivia : Bool := false
  spans : Bool := false
  palette : Palette := .plain

namespace DumpStyle

/-- The span behind a kind, where spans are shown. -/
def spanText (style : DumpStyle) (start width : Nat) : String :=
  if style.spans then
    s!" {style.palette.dim}[{start}..{start + width}]{style.palette.reset}"
  else ""

/-- The blanks in front of a line. -/
def indent (depth : Nat) : String := String.ofList (List.replicate (2 * depth) ' ')

/-- The line of a node. -/
def nodeLine (style : DumpStyle) (depth start width : Nat) (kind : Kind) : String :=
  let p := style.palette
  indent depth ++ p.node ++ kind.name ++ p.reset ++ style.spanText start width

/-- The line of a token, or none when it is trivia and trivia is left out. -/
def tokenLines (style : DumpStyle) (depth start : Nat) (l : Lexeme) : List String :=
  let p := style.palette
  if l.isTrivia && !style.trivia then []
  else
    [indent depth ++ l.kind.name ++ style.spanText start l.width ++ " "
      ++ (if l.isTrivia then p.dim else p.token) ++ quoted l.text ++ p.reset]

end DumpStyle

namespace Tree

mutual

/-- The lines of a tree at a depth and an offset. -/
def dumpLinesAt (style : DumpStyle) (depth start : Nat) : Tree → List String
  | token lexeme => style.tokenLines depth start lexeme
  | node kind children =>
    style.nodeLine depth start (widthOf children) kind
      :: dumpLinesOf style (depth + 1) start children

/-- The lines of several trees that stand side by side. -/
def dumpLinesOf (style : DumpStyle) (depth start : Nat) : List Tree → List String
  | [] => []
  | t :: ts => dumpLinesAt style depth start t ++ dumpLinesOf style depth (start + t.width) ts

end

/-- The lines of the dump of a tree. -/
def dumpLines (style : DumpStyle) (t : Tree) : List String := dumpLinesAt style 0 0 t

/-- The dump of a tree as one text, each line with its line end. -/
def dump (style : DumpStyle) (t : Tree) : String :=
  String.join ((t.dumpLines style).map (· ++ "\n"))

end Tree

end Syntax

end Nominal
