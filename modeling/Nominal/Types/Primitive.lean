/-!
# Primitive Types

The primitive types are those that have a keyword. For arithmetic the numeric ones are
ordered by rank, and the operand of the greater rank decides the type of the result, with
everything below `int` widened to it.

## Main definitions

* `Primitive`: The primitive types.
* `Primitive.keyword`: How a primitive type is written.
* `Primitive.promote`: The type of an arithmetic operation.

## Theorems

* `Primitive.ofKeyword?_keyword`: A primitive type is found by its keyword.
-/

namespace Nominal

namespace Types

/-- The types that have a keyword. -/
inductive Primitive where
  | bool | byte | char | decimal | double | float | int | long | object | short | string
  | uint | ulong
deriving DecidableEq, Repr

namespace Primitive

/-- Every primitive type, in the order in which they are known. -/
def all : List Primitive :=
  [.bool, .byte, .char, .decimal, .double, .float, .int, .long, .object, .short, .string,
   .uint, .ulong]

/-- How a primitive type is written. -/
def keyword : Primitive → String
  | .bool => "bool"
  | .byte => "byte"
  | .char => "char"
  | .decimal => "decimal"
  | .double => "double"
  | .float => "float"
  | .int => "int"
  | .long => "long"
  | .object => "object"
  | .short => "short"
  | .string => "string"
  | .uint => "uint"
  | .ulong => "ulong"

/-- The primitive type of a keyword. -/
def ofKeyword? (word : String) : Option Primitive := all.find? fun p => p.keyword == word

/-- A primitive type is found by its keyword. -/
theorem ofKeyword?_keyword (p : Primitive) : ofKeyword? p.keyword = some p := by
  cases p <;> decide

/-- Whether arithmetic is done with a type. -/
def isNumeric : Primitive → Bool
  | .bool | .char | .object | .string => false
  | _ => true

/-- The rank of a type in arithmetic. -/
def rank : Primitive → Nat
  | .int => 1
  | .uint => 2
  | .long => 3
  | .ulong => 4
  | .float => 5
  | .double => 6
  | .decimal => 7
  | _ => 0

/-- The type of an arithmetic operation: that of the operand of greater rank, the left one
    if they are equal, and at least `int`. -/
def promote (a b : Primitive) : Primitive :=
  match if b.rank ≤ a.rank then a else b with
  | .byte | .short | .char => .int
  | wider => wider

end Primitive

end Types

end Nominal
