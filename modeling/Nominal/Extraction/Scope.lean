import Nominal.Extraction.Refusal
import Nominal.Types.Spelling

/-!
# Where a New Type Is Declared

A new type is declared next to the outermost type around the place that needs it, so it
joins the namespace of that type. There it must not take a name that is in use. Besides
the types that are declared in the namespace these are the names that would mean
something else once the new type is there: those of types nested in the outermost type,
which would hide the new one, and the simple names that the file uses for types and
namespaces, which the new one would hide.

## Main definitions

* `Scope`: Where a new type is declared.
* `Model.scopeOf`: Where a type for a place in a tree is declared.
* `Model.spell?`: How a type is written in a scope.
-/

namespace Nominal

open Syntax (Location Kind Tree Lexeme)
open Nominal.Types (TypeId Namespace NameContext)
open Program (TypeRef)

/-- Where a new type is declared. -/
structure Scope where
  /-- The outermost type around; the new one stands behind it. -/
  container : Location
  containerName : String
  home : Namespace
  /-- The names of the types declared in the namespace. -/
  existing : List String
  /-- Further names that a new type would hide or that would hide it. -/
  reserved : List String

namespace Scope

/-- The names that a new type must not have, each once. -/
def taken (s : Scope) : List String := (s.existing ++ s.reserved).eraseDups

/-- The context that names are looked up in where the new type stands. -/
def context (s : Scope) : NameContext := NameContext.ofLocation s.container

end Scope

/-- The name that a node declares, if it declares a type and has a name. -/
def declaredName? (l : Location) : Option String :=
  if l.node.kind = .typeDecl then (l.node.token? .id).map fun t => t.1.text else none

/-- The identifier or keyword that a node for names consists of. -/
def nameToken? (l : Location) : Option Lexeme :=
  (Tree.tokensOf l.node.children).find? fun t => t.kind == .id || t.kind == .predefinedType

/-- The node at the top of the tree that a location is in. -/
def topOf (l : Location) : Location := ⟨l.lineage.getLast (by simp [Location.lineage]), []⟩

/-- The nodes below a node, a parent before its children. -/
def locationsBelow (l : Location) : List Location :=
  Tree.locationsOf l.lineage l.node.start 0 l.node.children

namespace Model

/-- The name that a node uses for a type or a namespace. The first part of a written type
    is such a name wherever it stands; a simple name in an expression is one if there is
    a type or namespace of that name. -/
def usedName? (m : Model) (l : Location) : Option String :=
  match l.node.kind with
  | .namedType => (l.node.token? .id).map fun t => t.1.text
  | .nameRef =>
    match nameToken? l with
    | some token =>
      if token.kind = .id && m.declared.namesTypeOrNamespace token.text then some token.text
      else none
    | none => none
  | _ => none

/-- The names of the types nested in a declaration. -/
def nestedNames (container : Location) : List String :=
  (locationsBelow container).filterMap declaredName?

/-- The names, each once, that a new type next to a declaration would hide or that would
    hide it. -/
def reservedNames (m : Model) (container : Location) : List String :=
  let top := topOf container
  (nestedNames container
    ++ (top :: locationsBelow top).filterMap m.usedName?).eraseDups

/-- Whether a type is declared in several places. -/
def isScattered (m : Model) (home : Namespace) (name : String) : Bool :=
  (m.declared.get? home name).any fun decl =>
    decl.isPartial && decide (1 < decl.declarations.length)

/-- Where a type for a place in a tree is declared. -/
def scopeOf (m : Model) (l : Location) : Except Refusal Scope :=
  match l.outermost? .typeDecl with
  | none => .error .noContainer
  | some container =>
    match declaredName? container with
    | none => .error .noContainer
    | some name =>
      let home := (NameContext.ofLocation container).home
      if m.isScattered home name then .error (.scatteredContainer name)
      else
        .ok
          { container := container
            containerName := name
            home := home
            existing := m.declared.namesIn home
            reserved := m.reservedNames container }

/-- How a type is written in a scope where a type of a name is about to be declared. -/
def spell? (m : Model) (t : TypeId) (s : Scope) (newName : String) : Option TypeRef :=
  Types.spell? m.registry m.declared s.context newName t

end Model

end Nominal
