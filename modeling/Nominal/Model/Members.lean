import Nominal.Model.Basic

/-!
# Members of a Type

An anonymous type has its fields as properties. A declared type has its fields and
properties, and behind them its methods. Every type that has members also has the three
methods of all objects, unless a member of the same name takes their place.

## Main definitions

* `MemberKind`: What sort of member a member is.
* `TypeMember`: A member of a type.
* `Model.members`: The members of a type.
-/

namespace Nominal

open Nominal.Types (TypeId Primitive Field)

/-- What sort of member a member is. -/
inductive MemberKind where
  | property | field | method | indexer | event
deriving DecidableEq, Repr

namespace MemberKind

/-- Whether members of this kind hold data. -/
def isData : MemberKind → Bool
  | property | field => true
  | method | indexer | event => false

/-- How a kind of members is written. -/
def name : MemberKind → String
  | property => "property"
  | field => "field"
  | method => "method"
  | indexer => "indexer"
  | event => "event"

end MemberKind

/-- A member of a type. -/
structure TypeMember where
  name : String
  kind : MemberKind
  /-- The type of a value, or the type that a method returns. -/
  type : TypeId
deriving DecidableEq, Repr

namespace TypeMember

/-- A field as a member of a kind. -/
def ofField (kind : MemberKind) (f : Field) : TypeMember := ⟨f.name, kind, f.type⟩

/-- The methods that all objects have. -/
def ofObject : List TypeMember :=
  [⟨"Equals", .method, .primitive .bool⟩, ⟨"GetHashCode", .method, .primitive .int⟩,
   ⟨"ToString", .method, .primitive .string⟩]

/-- Members, and the methods of all objects that they leave in place. -/
def withObject (members : List TypeMember) : List TypeMember :=
  members ++ ofObject.filter fun m => !members.any fun n => n.name == m.name

end TypeMember

namespace Model

/-- The members of a type, in the order in which they are declared. -/
def members (m : Model) (t : TypeId) : List TypeMember :=
  match m.registry.shape? t with
  | some (.anonymous fields) =>
    TypeMember.withObject (fields.map (TypeMember.ofField .property))
  | some (.named home name _) =>
    match m.declared.get? home name with
    | some decl =>
      TypeMember.withObject (decl.members.map (TypeMember.ofField .property)
        ++ decl.methods.map (TypeMember.ofField .method))
    | none => TypeMember.withObject []
  | _ => []

end Model

end Nominal
