import Nominal.Extraction.Refusal
import Nominal.Extraction.Scope
import Nominal.Extraction.Declaration

/-!
# Naming the Created Type

Where an object of an anonymous type is created, the name of the new type is put behind
the keyword and the members become those of an object initializer. A member that brings
its name with its value gets the name written out. Nothing else in the tree changes, so
the text only ever grows.

An object created inside a lambda keeps its anonymous type, and then every other object
keeps it too.

## Main definitions

* `nameCreation`: What a creation becomes.
* `NamedObjects`: A tree with objects of a named type, and where they are created.
* `nameObjectsAt`: A tree with some of its creations named.
* `Model.nameObjects`: All objects of a type get the name of a new type.
-/

namespace Nominal

open Syntax (Tree Kind Location)
open Nominal.Types (TypeId)
open Text (Span)
open Program (Part AnonMember)

/-- The name to write out before a member: the one that the value brings, unless a name
    is written there. -/
def impliedName? (children : List Tree) : Option String :=
  match Part.ofTree 0 (.node .anonMember children) with
  | .anonMember m => if m.explicit.isNone then m.name? else none
  | _ => none

/-- What is put before a member to write its name out. -/
def nameAssignment (name : String) : List Tree :=
  [leaf .id name, space, leaf .equals "=", space]

/-- A part of a creation as a part of an object initializer. -/
def asInitializer : Tree → Tree
  | .node .anonMember children =>
    .node .memberInit (((impliedName? children).map nameAssignment).getD [] ++ children)
  | t => t

/-- A part of a creation before its braces, with a name behind the keyword. -/
def nameBehind (name : String) : Tree → List Tree
  | .token l =>
    if l.kind = .kwNew then [.token l, space, .node .namedType [leaf .id name]] else [.token l]
  | t => [t]

/-- Whether a tree is an opening brace. -/
def isOpening (t : Tree) : Bool := t.kind == .braceOpen

/-- What a creation becomes when the created type has a name. -/
def nameCreation (name : String) (children : List Tree) : Tree :=
  let before := children.takeWhile fun t => !isOpening t
  let braces := children.dropWhile fun t => !isOpening t
  .node .objectCreation
    (((before.map asInitializer).flatMap (nameBehind name))
      ++ [.node .objectInit (braces.map asInitializer)])

/-- A tree in which objects got a named type, and the spans that their creations had
    before. -/
structure NamedObjects where
  tree : Tree
  sites : List Span

mutual

/-- Names those of the creations in a tree that `isMeant` tells by their spans, and notes the
    spans on the way, that of a creation before those of the creations in its members. The tree
    starts at an offset. In a lambda no creation can be named. -/
def nameObjectsAt (isMeant : Span → Bool) (name : String) (inLambda : Bool) (start : Nat) :
    Tree → Except Refusal NamedObjects
  | .token l => .ok ⟨.token l, []⟩
  | .node kind children =>
    let span := Span.ofWidth start (Tree.widthOf children)
    let isMeantHere := kind == .anonObjectCreation && isMeant span
    if isMeantHere && inLambda then .error .insideLambda
    else do
      let (inner, sites) ← nameObjectsOf isMeant name (inLambda || kind == .lambda) start children
      if isMeantHere then return ⟨nameCreation name inner, span :: sites⟩
      else return ⟨.node kind inner, sites⟩

/-- Names creations in trees that stand side by side. -/
def nameObjectsOf (isMeant : Span → Bool) (name : String) (inLambda : Bool) (start : Nat) :
    List Tree → Except Refusal (List Tree × List Span)
  | [] => .ok ([], [])
  | t :: ts => do
    let first ← nameObjectsAt isMeant name inLambda start t
    let (trees, sites) ← nameObjectsOf isMeant name inLambda (start + t.width) ts
    return (first.tree :: trees, first.sites ++ sites)

end

namespace Model

/-- Whether a node creates an object of a type. -/
def creates (m : Model) (t : TypeId) (l : Location) : Bool :=
  l.node.kind == .anonObjectCreation && m.typeOf? l == some t

/-- All objects of a type that are created in a node get the name of a new type. -/
def nameObjects (m : Model) (l : Location) (t : TypeId) (name : String) :
    Except Refusal NamedObjects :=
  let isMeant (span : Span) : Bool := m.typeAt? ⟨.anonObjectCreation, span⟩ == some t
  let inLambda := l.above.any fun n => n.kind == .lambda
  nameObjectsAt isMeant name inLambda l.node.start l.node.tree

end Model

end Nominal
