import Nominal.Extraction.Refusal
import Nominal.Extraction.Site
import Nominal.Syntax.Lexer
import Nominal.Text.Casing

/-!
# Naming the New Type

A new type is named after the first variable that holds an object of it, unless the one
who asks names it or wants all types to have the same base name. Where the name is taken,
the smallest number that makes it free is put behind it.

## Main definitions

* `NameSource`: Where the name of a new type comes from.
* `NameSource.base`: The name that a new type should have.
* `isTypeName`: Whether a text can be the name of a type.
* `allocate`: A free name for a new type.
-/

namespace Nominal

open Syntax (Lexeme)
open Text (pascalCase isIdentifier)

/-- Where the name of a new type comes from. -/
structure NameSource where
  /-- The name that is asked for. -/
  requested : Option String
  /-- Whether types are named after variables. -/
  fromVariable : Bool
  /-- The name to fall back on. -/
  fallback : String
deriving DecidableEq, Repr

namespace NameSource

/-- The name that a new type should have. -/
def base (n : NameSource) (sites : List Site) : String :=
  match n.requested with
  | some name => name
  | none =>
    let derived :=
      if n.fromVariable then (sites.findSome? Site.variableName?).map pascalCase else none
    match derived with
    | some name => if name.isEmpty then n.fallback else name
    | none => n.fallback

end NameSource

/-- Whether a text can be the name of a type: an identifier that is no keyword. -/
def isTypeName (name : String) : Bool :=
  isIdentifier name && (Syntax.lex name).map Lexeme.kind == [.id]

/-- How many numbers are tried at most. -/
def maxSuffix : Nat := UInt32.size - 1

/-- The name among `base1`, `base2` and so on that is free first. One more number than
    there are names in use is enough. -/
def numbered? (base : String) (taken : List String) : Option String :=
  ((List.range (min (taken.length + 1) maxSuffix)).find? fun k =>
    !taken.contains (base ++ toString (k + 1))).map fun k => base ++ toString (k + 1)

/-- A free name for a new type. -/
def allocate (base : String) (taken : List String) : Except Refusal String :=
  if !isTypeName base then .error (.invalidName base)
  else if !taken.contains base then .ok base
  else
    match numbered? base taken with
    | some name => .ok name
    | none => .error (.noFreeName base)

end Nominal
