import Nominal.Types.Declared
import Nominal.Diagnostic.Basic

/-!
# The State of Typing

Typing goes through a program in the order of its text and remembers what it has found:
the types it has registered, the type of every expression and variable, and the mistakes
in anonymous objects. On the way it knows where it is: the context that names are looked
up in, the type whose members are in sight, and the variables of the scopes around.

A type is filed under the kind and the span of the node that it belongs to. If two nodes
have both in common, what is filed last counts.

## Main definitions

* `NodeKey`: What the type of a node is filed under.
* `TypingState`: What typing knows.
* `TypingM`: A computation that goes on with what typing knows.
* `Referent`: What an expression refers to.
-/

namespace Nominal

namespace Typing

open Nominal.Types (TypeId Registry NameContext DeclaredTypes Derived Namespace Shape)
open Program (TypeRef)
open Syntax (Kind)
open Text (Span)

/-- What the type of a node is filed under. -/
structure NodeKey where
  kind : Kind
  span : Span
deriving DecidableEq, Repr

/-- The variables of a scope, the latest first. -/
abbrev Scope := List (String × TypeId)

/-- What typing knows. -/
structure TypingState where
  registry : Registry
  /-- The types that have been found, the latest first. -/
  records : List (NodeKey × TypeId)
  diagnostics : List Diagnostic
  context : NameContext
  /-- The type whose members are in sight. -/
  thisType : Option TypeId
  /-- The scopes around, the innermost first. -/
  scopes : List Scope

/-- A computation that goes on with what typing knows. -/
abbrev TypingM (α : Type) := StateM TypingState α

/-- What an expression refers to. -/
inductive Referent where
  | value (type : TypeId)
  | type (type : TypeId)
  | namespacePath (path : Namespace)
  | nothing

/-- The type of the value that an expression refers to, `unknown` if it refers to none. -/
def Referent.valueType : Referent → TypeId
  | value t => t
  | _ => .unknown

namespace TypingState

/-- The type that was filed last under a key. -/
def typeOf? (s : TypingState) (key : NodeKey) : Option TypeId :=
  (s.records.find? fun r => r.1 == key).map Prod.snd

/-- The type of a variable of the innermost scope that has one of a name. -/
def localType? (s : TypingState) (name : String) : Option TypeId :=
  s.scopes.findSome? fun scope => scope.lookup name

/-- The type of a variable, or of a member of the type in sight. -/
def value? (s : TypingState) (declared : DeclaredTypes) (name : String) : Option TypeId :=
  match s.localType? name with
  | some t => some t
  | none => s.thisType.bind fun t => declared.member? s.registry t name

end TypingState

/-- Files a type under a key. -/
def record (kind : Kind) (span : Span) (type : TypeId) : TypingM Unit :=
  modify fun s => { s with records := (⟨kind, span⟩, type) :: s.records }

/-- Registers a shape. -/
def internShape (shape : Shape) : TypingM TypeId :=
  modifyGet fun s =>
    let (t, registry) := s.registry.intern shape
    (t, { s with registry := registry })

/-- Registers a derived type. -/
def internDerived (derived : Derived) : TypingM TypeId :=
  modifyGet fun s =>
    let (t, registry) := derived.intern s.registry
    (t, { s with registry := registry })

/-- Registers a derived type, if there is one. -/
def internDerived? : Option Derived → TypingM (Option TypeId)
  | none => return none
  | some derived => some <$> internDerived derived

/-- The type that a written type means here. -/
def resolveType (declared : DeclaredTypes) (type : TypeRef) : TypingM TypeId :=
  modifyGet fun s =>
    let (t, registry) := declared.resolve s.context s.registry type
    (t, { s with registry := registry })

/-- The type that a dotted name without arguments means here. -/
def resolveName (declared : DeclaredTypes) (segments : List String) : TypingM TypeId :=
  modifyGet fun s =>
    let (t, registry) := declared.resolvePath s.context s.registry segments []
    (t, { s with registry := registry })

/-- Adds a variable to the innermost scope, if there is a scope. -/
def bindVariable (name : Option String) (type : TypeId) : TypingM Unit :=
  modify fun s =>
    match name, s.scopes with
    | some name, scope :: scopes => { s with scopes := ((name, type) :: scope) :: scopes }
    | _, _ => s

/-- Opens a scope. -/
def openScope : TypingM Unit := modify fun s => { s with scopes := [] :: s.scopes }

/-- Closes the innermost scope. -/
def closeScope : TypingM Unit := modify fun s => { s with scopes := s.scopes.tail }

/-- Reports a mistake in a member of an anonymous object. -/
def reportMember (kind : Diagnostic.Kind) (span : Span) (detail : Option String) : TypingM Unit :=
  modify fun s =>
    { s with diagnostics := s.diagnostics ++ [(Diagnostic.of kind span).withDetail detail] }

end Typing

end Nominal
