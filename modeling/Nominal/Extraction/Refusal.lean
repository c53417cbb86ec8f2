import Nominal.Model.Members

/-!
# Why an Extraction Is Refused

An extraction is carried out as a whole or not at all, and a refusal tells why not. All
refusals but a cancellation mean that the extraction is out of place where it was asked
for.

## Main definitions

* `Refusal`: Why an extraction is not carried out.
* `Refusal.message`: A refusal in words.
-/

namespace Nominal

/-- Why an extraction is not carried out. -/
inductive Refusal where
  /-- There is no anonymous type of the kind asked for. -/
  | noSite
  /-- No declared type with a name stands around the anonymous type. -/
  | noContainer
  /-- The type around has other declarations elsewhere. -/
  | scatteredContainer (name : String)
  /-- A declared type cannot have a member of this kind. -/
  | memberKind (name : String) (kind : MemberKind)
  /-- The type of a member cannot be written where the declaration will stand. -/
  | memberType (name : String)
  /-- The type is created inside a lambda. -/
  | insideLambda
  /-- A member has an anonymous type itself. -/
  | nestedAnonymous (name : String)
  | invalidName (name : String)
  | noFreeName (base : String)
  | cancelled
deriving DecidableEq, Repr

namespace Refusal

/-- A refusal in words. -/
def message : Refusal → String
  | noSite => "no anonymous type to extract here"
  | noContainer =>
    "anonymous type is not declared inside a type that can host a declaration"
  | scatteredContainer name =>
    s!"containing type `{name}` is declared in more than one place"
  | memberKind name kind => s!"{kind.name} `{name}` cannot be carried by a declared type"
  | memberType name => s!"type of member `{name}` cannot be written in a declaration"
  | insideLambda => "not supported: anonymous type created inside a lambda"
  | nestedAnonymous name => s!"not supported: member `{name}` has an anonymous type itself"
  | invalidName name => s!"`{name}` is not a valid type name"
  | noFreeName base => s!"no free type name derived from `{base}`"
  | cancelled => "extraction cancelled"

/-- Whether a refusal means that the extraction is out of place, and not that it was
    called off. -/
def isOutOfPlace : Refusal → Bool
  | cancelled => false
  | _ => true

end Refusal

end Nominal
