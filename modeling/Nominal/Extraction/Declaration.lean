import Nominal.Program.Basic
import Nominal.Syntax.Tree
import Nominal.Text.Position

/-!
# Declaring a Class

A class with public members is put together as a tree. It looks like the code around it:
every line starts with the blanks of the line where the code next to it starts, and lines
end the way they do in the rest of the text.

## Main definitions

* `Layout`: How lines of a text start and end.
* `Layout.at?`: The layout around an offset.
* `MemberStyle`: How members are declared.
* `TypeRef.tree`: A written type as a tree.
* `ClassForm.tree`: A class as a tree.
-/

namespace Nominal

open Syntax (Tree Kind Lexeme)
open Program (TypeRef)
open Text (Position.charsBefore)

/-- How lines of a text start and end. -/
structure Layout where
  /-- The blanks before what is put on a line of its own. -/
  baseIndent : String
  lineBreak : String
deriving DecidableEq, Repr

namespace Layout

/-- The layout of a text without any other line. -/
def plain : Layout := ⟨"", "\n"⟩

/-- Whether a text has a line that ends in a carriage return and a line feed. -/
def hasReturns : List Char → Bool
  | '\r' :: '\n' :: _ => true
  | _ :: cs => hasReturns cs
  | [] => false

/-- The line that some characters end with, if it is blank. -/
def indentAfter (before : List Char) : List Char :=
  let line := (before.reverse.takeWhile (· != '\n')).reverse
  if line.all fun c => c == ' ' || c == '\t' then line else []

/-- The layout around an offset, if no character lies across the offset. An offset past
    the end of the text counts as the end. -/
def at? (text : String) (offset : Nat) : Option Layout :=
  let before := Position.charsBefore offset text.toList
  if (String.ofList before).utf8ByteSize = min offset text.utf8ByteSize then
    some
      { baseIndent := String.ofList (indentAfter before)
        lineBreak := if hasReturns text.toList then "\r\n" else "\n" }
  else none

end Layout

/-- How members are declared. -/
inductive MemberStyle where
  /-- Properties that can be read and set. -/
  | property
  | field
deriving DecidableEq, Repr, Inhabited

/-- A leaf. -/
def leaf (kind : Kind) (text : String) : Tree := .token ⟨kind, text⟩

/-- A single blank. -/
def space : Tree := leaf .whitespace " "

/-- A leaf for some blanks, if there are any. -/
def blanks (text : String) : List Tree :=
  if text.isEmpty then [] else [leaf .whitespace text]

/-- Trees with others between them. -/
def separated (separator : List Tree) : List Tree → List Tree
  | [] => []
  | [t] => [t]
  | t :: ts => t :: separator ++ separated separator ts

namespace Program

namespace TypeRef

/-- The leaves of a dotted name. -/
def dotted (segments : List String) : List Tree :=
  separated [leaf .dot "."] (segments.map (leaf .id))

mutual

/-- A written type as a tree. -/
def tree : TypeRef → Tree
  | missing => .node .error []
  | predefined keyword => .node .predefType (keyword.map (leaf .predefinedType)).toList
  | named segments none => .node .namedType (dotted segments)
  | named segments (some args) =>
    .node .namedType (dotted segments ++ [.node .typeArgList
      (leaf .lt "<" :: separated [leaf .comma ",", space] (trees args) ++ [leaf .gt ">"])])
  | array element =>
    .node .arrayType [element.tree, leaf .bracketOpen "[", leaf .bracketClose "]"]
  | nullable inner => .node .nullableType [inner.tree, leaf .question "?"]

/-- Written types as trees. -/
def trees : List TypeRef → List Tree
  | [] => []
  | t :: ts => t.tree :: trees ts

end

end TypeRef

end Program

/-- A member of a new class. -/
structure MemberForm where
  name : String
  type : TypeRef

namespace MemberForm

/-- An accessor without a body. -/
def accessor (name : String) : Tree := .node .accessor [leaf .id name, leaf .semicolon ";"]

/-- A member as a tree. -/
def tree (style : MemberStyle) (m : MemberForm) : Tree :=
  match style with
  | .property =>
    .node .propertyDecl
      [leaf .kwPublic "public", space, m.type.tree, space, leaf .id m.name, space,
       .node .accessorList
        [leaf .braceOpen "\x7b", space, accessor "get", space, accessor "set", space,
         leaf .braceClose "\x7d"]]
  | .field =>
    .node .fieldDecl
      [leaf .kwPublic "public", space, m.type.tree, space,
       .node .varDeclarator [leaf .id m.name], leaf .semicolon ";"]

end MemberForm

/-- A new class. -/
structure ClassForm where
  name : String
  members : List MemberForm
  style : MemberStyle
  /-- The blanks by which members stand deeper than the class. -/
  indent : String

namespace ClassForm

/-- The start of a new line. -/
def lineStart (layout : Layout) (indent : String) : List Tree :=
  leaf .newline layout.lineBreak :: blanks indent

/-- A class as a tree. -/
def tree (c : ClassForm) (layout : Layout) : Tree :=
  .node .typeDecl
    ([leaf .kwClass "class", space, leaf .id c.name]
      ++ lineStart layout layout.baseIndent ++ [leaf .braceOpen "\x7b"]
      ++ (c.members.flatMap fun m =>
        lineStart layout (layout.baseIndent ++ c.indent) ++ [m.tree c.style])
      ++ lineStart layout layout.baseIndent ++ [leaf .braceClose "\x7d"])

end ClassForm

end Nominal
