import Nominal.Typing.Infer

/-!
# Models

A model is what is known of a tree after typing: the registered types, the declared types,
and the type of every node that has one. It is made once and does not change. A node is
asked for by its kind and span, so the model does not hold the tree.

## Main definitions

* `Model`: What is known of a tree.
* `Model.ofTree`: The model of a tree, and the mistakes found on the way.
* `Model.typeOf?`: The type of a node.
-/

namespace Nominal

open Syntax (Tree Kind Location)
open Nominal.Types (TypeId Registry DeclaredTypes)
open Typing (NodeKey TypingState typeFile)
open Program (SourceFile)

/-- What is known of a tree. -/
structure Model where
  registry : Registry
  declared : DeclaredTypes
  /-- The types of nodes; the first one under a key counts. -/
  records : List (NodeKey × TypeId)

namespace Model

/-- What is known of a tree, and the mistakes found on the way. -/
def ofTree (t : Tree) : Model × List Diagnostic :=
  let file := SourceFile.ofTree t
  let (declared, r) := DeclaredTypes.collect file Registry.initial
  let s := typeFile declared file r
  (⟨s.registry, declared, s.records⟩, s.diagnostics)

/-- The type under a key. -/
def typeAt? (m : Model) (key : NodeKey) : Option TypeId :=
  (m.records.find? fun r => r.1 == key).map Prod.snd

/-- The type of a node. -/
def typeOf? (m : Model) (l : Location) : Option TypeId := m.typeAt? ⟨l.node.kind, l.span⟩

/-- Whether a type is anonymous. -/
def isStructural (m : Model) (t : TypeId) : Bool := m.registry.isAnonymous t

/-- A type as a text. -/
def describe (m : Model) (t : TypeId) : String := m.registry.describe t

end Model

end Nominal
