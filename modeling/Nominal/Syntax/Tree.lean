import Nominal.Syntax.Lexeme

/-!
# Source Trees

A source tree has lexemes as leaves, trivia and rejected text among them, so reading the
leaves from left to right gives the source back. Inner nodes carry a kind and nothing
else. A tree does not know where it stands; what depends on a place works on a
`Location`, which is a node together with the nodes above it.

Two nodes may cover the same span and have the same kind, so a span does not tell which
node is meant. The path from the root does: the indices of the children to descend into.

## Main definitions

* `Tree`: A source tree.
* `Tree.leaves`: The lexemes of a tree, from left to right.
* `Node`: An inner node in its place under its parent.
* `Location`: A node and the nodes above it.
* `Tree.locations`: Every inner node of a tree, a parent before its children.
* `Tree.replaceAt`: A tree with other trees in the place of one of its nodes.

## Theorems

* `Tree.leavesOf_append`: The leaves of two lists of trees are their leaves in turn.
* `Tree.width_eq`: A tree is as wide as its leaves.
-/

namespace Nominal

namespace Syntax

open Text (Span)

/-- A source tree. -/
inductive Tree where
  | token (lexeme : Lexeme)
  | node (kind : Kind) (children : List Tree)
deriving Inhabited

namespace Tree

/-- The kind of the leaf or node at the top. -/
def kind : Tree → Kind
  | token lexeme => lexeme.kind
  | node kind _ => kind

mutual

/-- The lexemes of a tree, from left to right. -/
def leaves : Tree → List Lexeme
  | token lexeme => [lexeme]
  | node _ children => leavesOf children

/-- The lexemes of several trees, from left to right. -/
def leavesOf : List Tree → List Lexeme
  | [] => []
  | t :: ts => t.leaves ++ leavesOf ts

end

mutual

/-- The number of bytes that a tree covers. -/
def width : Tree → Nat
  | token lexeme => lexeme.width
  | node _ children => widthOf children

/-- The number of bytes that several trees cover. -/
def widthOf : List Tree → Nat
  | [] => 0
  | t :: ts => t.width + widthOf ts

end

/-- The source text of a tree. -/
def text (t : Tree) : String := Lexeme.textOf t.leaves

/-- The leaves of two lists of trees are their leaves in turn. -/
theorem leavesOf_append (xs ys : List Tree) :
    leavesOf (xs ++ ys) = leavesOf xs ++ leavesOf ys := by
  induction xs with
  | nil => rfl
  | cons t ts ih => simp only [List.cons_append, leavesOf, ih, List.append_assoc]

/-- Leaves side by side are their lexemes. -/
theorem leavesOf_map_token (ls : List Lexeme) : leavesOf (ls.map token) = ls := by
  induction ls with
  | nil => rfl
  | cons l ls ih => simp only [List.map_cons, leavesOf, leaves, ih, List.singleton_append]

/-- The width of two lists of trees is their widths together. -/
theorem widthOf_append (xs ys : List Tree) : widthOf (xs ++ ys) = widthOf xs + widthOf ys := by
  induction xs with
  | nil => exact (Nat.zero_add _).symm
  | cons t ts ih => simp only [List.cons_append, widthOf, ih, Nat.add_assoc]

mutual

/-- A tree is as wide as its leaves. -/
theorem width_eq (t : Tree) : t.width = Lexeme.widthOf t.leaves := by
  cases t with
  | token lexeme => rfl
  | node kind children => exact widthOf_eq children

/-- Several trees are as wide as their leaves. -/
theorem widthOf_eq (ts : List Tree) : widthOf ts = Lexeme.widthOf (leavesOf ts) := by
  cases ts with
  | nil => rfl
  | cons t ts => rw [widthOf, width_eq t, widthOf_eq ts, leavesOf, Lexeme.widthOf_append]

end

/-- The tokens among several trees that stand side by side, each with its span. -/
def tokensAt (start : Nat) : List Tree → List (Lexeme × Span)
  | [] => []
  | token lexeme :: ts =>
    (lexeme, Span.ofWidth start lexeme.width) :: tokensAt (start + lexeme.width) ts
  | node _ children :: ts => tokensAt (start + widthOf children) ts

/-- The tokens among several trees that stand side by side. -/
def tokensOf (ts : List Tree) : List Lexeme := (tokensAt 0 ts).map Prod.fst

end Tree

/-- An inner node in its place: where it starts, and which child of its parent it is. -/
structure Node where
  kind : Kind
  children : List Tree
  start : Nat
  index : Nat

namespace Node

/-- The span that a node covers. -/
def span (n : Node) : Span := Span.ofWidth n.start (Tree.widthOf n.children)

/-- A node without its place. -/
def tree (n : Node) : Tree := .node n.kind n.children

/-- The first token of a kind among the children, with its span. -/
def token? (n : Node) (kind : Kind) : Option (Lexeme × Span) :=
  (Tree.tokensAt n.start n.children).find? fun t => t.1.kind == kind

end Node

/-- A node and the nodes above it, the nearest first. -/
structure Location where
  node : Node
  above : List Node

namespace Location

/-- The node and all nodes above it, from the inside out. -/
def lineage (l : Location) : List Node := l.node :: l.above

/-- The span that the node covers. -/
def span (l : Location) : Span := l.node.span

/-- The children to descend into from the root to reach the node. -/
def path (l : Location) : List Nat := (l.lineage.map Node.index).reverse.drop 1

/-- Whether a node is `outer` or stands below it. -/
def isWithin (l outer : Location) : Bool := outer.path.isPrefixOf l.path

/-- Whether a node or one above it has a kind. -/
def isUnder (l : Location) (kind : Kind) : Bool := l.lineage.any fun n => n.kind == kind

/-- The location of the outermost node of a kind, seen from the inside out. -/
def outermost? (l : Location) (kind : Kind) : Option Location :=
  go none l.node l.above
where
  /-- Walks upwards and keeps the last node of the kind. -/
  go (found : Option Location) (node : Node) : List Node → Option Location
    | [] => if node.kind == kind then some ⟨node, []⟩ else found
    | next :: above =>
      go (if node.kind == kind then some ⟨node, next :: above⟩ else found) next above

end Location

namespace Tree

mutual

/-- The inner nodes of a tree below the nodes `above`, a parent before its children. -/
def locationsAt (above : List Node) (start index : Nat) : Tree → List Location
  | token _ => []
  | node kind children =>
    let here : Node := ⟨kind, children, start, index⟩
    ⟨here, above⟩ :: locationsOf (here :: above) start 0 children

/-- The inner nodes of several trees that stand side by side below the nodes `above`. -/
def locationsOf (above : List Node) (start index : Nat) : List Tree → List Location
  | [] => []
  | t :: ts =>
    locationsAt above start index t ++ locationsOf above (start + t.width) (index + 1) ts

end

/-- Every inner node of a tree, a parent before its children. -/
def locations (t : Tree) : List Location := locationsAt [] 0 0 t

/-- A tree with the trees `new` in the place of the node at a path. -/
def replaceAt (new : List Tree) : List Nat → Tree → Tree
  | [], t => t
  | _ :: _, token lexeme => token lexeme
  | [i], node kind children => node kind (children.take i ++ new ++ children.drop (i + 1))
  | i :: j :: path, node kind children =>
    node kind (children.modify i (replaceAt new (j :: path)))

end Tree

end Syntax

end Nominal
