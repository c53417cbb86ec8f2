import Nominal.Types.Primitive
import Nominal.Types.Namespace

/-!
# Registered Types

Types are compared often and are built of other types, so each type is registered once
and known by its number from then on. The shape of a type refers to the types it is built
of by their numbers. Two registered types are then the same exactly when their numbers
are, and an anonymous type is the same as another one when it has the same names and
types of members in the same order.

The special types and the primitive ones are registered from the start and have fixed
numbers. A shape that is registered later gets the next number.

## Main definitions

* `TypeId`: The number of a registered type.
* `Shape`: What a type is built of.
* `Registry`: The registered types.
* `Registry.intern`: Registering a shape, unless it is registered.
* `Registry.describe`: A type as a text.
-/

namespace Nominal

namespace Types

/-- The number of a registered type. -/
structure TypeId where
  number : Nat
deriving DecidableEq, Repr, Inhabited

namespace TypeId

/-- The type of what could not be typed. -/
def unknown : TypeId := ⟨0⟩

/-- The type of what has no value. -/
def void : TypeId := ⟨1⟩

/-- The type of `null`. -/
def null : TypeId := ⟨2⟩

/-- The type of a lambda. -/
def lambda : TypeId := ⟨3⟩

/-- The number of a primitive type; they follow the special types. -/
def primitive (p : Primitive) : TypeId := ⟨4 + Primitive.all.idxOf p⟩

/-- Whether a type is that of what could not be typed. -/
def isUnknown (t : TypeId) : Bool := t == unknown

end TypeId

/-- A member of an anonymous type. -/
structure Field where
  name : String
  type : TypeId
deriving DecidableEq, Repr

/-- What a type is built of. -/
inductive Shape where
  | unknown
  | void
  | null
  | lambda
  | primitive (primitive : Primitive)
  /-- A declared type, or one of the library. -/
  | named (namespacePath : Namespace) (name : String) (args : List TypeId)
  | array (element : TypeId)
  | nullable (inner : TypeId)
  | anonymous (fields : List Field)
deriving DecidableEq, Repr

namespace Shape

/-- Whether a shape is that of an anonymous type. -/
def isAnonymous : Shape → Bool
  | anonymous _ => true
  | _ => false

/-- The primitive type that a shape is of. -/
def primitive? : Shape → Option Primitive
  | primitive p => some p
  | _ => none

end Shape

/-- The registered types; the number of a type is its place in the list. -/
structure Registry where
  shapes : List Shape

namespace Registry

/-- The special types and the primitive types. -/
def initial : Registry :=
  ⟨[.unknown, .void, .null, .lambda] ++ Primitive.all.map Shape.primitive⟩

/-- The shape of a registered type. -/
def shape? (r : Registry) (t : TypeId) : Option Shape := r.shapes[t.number]?

/-- The number of a registered shape. -/
def lookup? (r : Registry) (s : Shape) : Option TypeId :=
  (r.shapes.findIdx? (· == s)).map TypeId.mk

/-- The number of a shape, which is registered if it has not been. -/
def intern (r : Registry) (s : Shape) : TypeId × Registry :=
  match r.lookup? s with
  | some t => (t, r)
  | none => (⟨r.shapes.length⟩, ⟨r.shapes ++ [s]⟩)

/-- The type of values of a type or null. A type that has null already stays as it is. -/
def internNullable (r : Registry) (inner : TypeId) : TypeId × Registry :=
  match r.shape? inner with
  | some (.nullable _) => (inner, r)
  | _ => r.intern (.nullable inner)

/-- The primitive type that a type is. -/
def primitive? (r : Registry) (t : TypeId) : Option Primitive :=
  (r.shape? t).bind Shape.primitive?

/-- Whether a type is anonymous. -/
def isAnonymous (r : Registry) (t : TypeId) : Bool := (r.shape? t).any Shape.isAnonymous

/-- The members of an anonymous type. -/
def fields? (r : Registry) (t : TypeId) : Option (List Field) :=
  match r.shape? t with
  | some (.anonymous fields) => some fields
  | _ => none

/-- A type as a text, if it is nested less than `depth` deep. -/
def describeWithin (r : Registry) : Nat → TypeId → String
  | 0, _ => "?"
  | depth + 1, t =>
    match r.shape? t with
    | none | some .unknown => "?"
    | some .void => "void"
    | some .null => "null"
    | some .lambda => "lambda"
    | some (.primitive p) => p.keyword
    | some (.named ns name args) =>
      let path := Namespace.text (ns ++ [name])
      if args.isEmpty then path
      else path ++ "<" ++ ", ".intercalate (args.map (r.describeWithin depth)) ++ ">"
    | some (.array element) => r.describeWithin depth element ++ "[]"
    | some (.nullable inner) => r.describeWithin depth inner ++ "?"
    | some (.anonymous fields) =>
      let texts := fields.map fun f => f.name ++ ": " ++ r.describeWithin depth f.type
      "new \x7b " ++ ", ".intercalate texts ++ " \x7d"

/-- A type as a text. Types are built of types registered before them, so none is nested
    deeper than there are types. -/
def describe (r : Registry) (t : TypeId) : String := r.describeWithin (r.shapes.length + 1) t

end Registry

end Types

end Nominal
