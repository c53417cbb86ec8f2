import Nominal.Types.Declared

/-!
# Spelling a Type

To declare a member its type has to be written down so that it means the same type where
the declaration will stand. A type is spelled by its simple name where that name finds it
and by its full path otherwise. A type about to be declared is in the way of both: its
name, written alone, would mean the new type, and so would the first part of a path. What
cannot be written around it has no spelling, and neither have anonymous types and the
special types.

## Main definitions

* `spell?`: How a registered type is written, if it can be.
* `TypeRef.text`: A written type as a text.
-/

namespace Nominal

namespace Program

namespace TypeRef

mutual

/-- A written type as a text. -/
def text : TypeRef → String
  | missing => ""
  | predefined keyword => keyword.getD ""
  | named segments none => ".".intercalate segments
  | named segments (some args) =>
    let parts := texts args
    ".".intercalate segments
      ++ (if parts.isEmpty then "" else "<" ++ ", ".intercalate parts ++ ">")
  | array element => element.text ++ "[]"
  | nullable inner => inner.text ++ "?"

/-- Written types as texts. -/
def texts : List TypeRef → List String
  | [] => []
  | t :: ts => t.text :: texts ts

end

/-- A dotted name with type arguments, if there are any. -/
def path (segments : List String) (args : List TypeRef) : TypeRef :=
  .named segments (if args.isEmpty then none else some args)

end TypeRef

end Program

namespace Types

open Program (TypeRef)

/-- The path to write for a type of a name in a namespace, where a type called `shadow` is
    about to be declared. -/
def spellPath? (d : DeclaredTypes) (c : NameContext) (shadow : String) (home : Namespace)
    (name : String) (arity : Nat) : Option (List String) :=
  let shadowed := arity == 0 && name == shadow
  let found := !shadowed && d.homeOf? c name arity == some home
  if home.isEmpty then
    if shadowed then none else some [name]
  else if found then some [name]
  else if home.head? == some shadow then none
  else some (home ++ [name])

/-- How a registered type is written, if it can be and is nested less than `depth` deep. -/
def spellWithin? (r : Registry) (d : DeclaredTypes) (c : NameContext) (shadow : String) :
    Nat → TypeId → Option TypeRef
  | 0, _ => none
  | depth + 1, t =>
    let spell := spellWithin? r d c shadow depth
    match r.shape? t with
    | some (.primitive p) => some (.predefined (some p.keyword))
    | some (.array element) => (spell element).map .array
    | some (.nullable inner) => (spell inner).map .nullable
    | some (.named home name args) =>
      match args.mapM spell, spellPath? d c shadow home name args.length with
      | some args, some path => some (.path path args)
      | _, _ => none
    | _ => none

/-- How a registered type is written where a type called `shadow` is about to be declared,
    if it can be. -/
def spell? (r : Registry) (d : DeclaredTypes) (c : NameContext) (shadow : String)
    (t : TypeId) : Option TypeRef :=
  spellWithin? r d c shadow (r.shapes.length + 1) t

end Types

end Nominal
