import Nominal.Grammar.Script

/-!
# Productions of Types

A type is a built-in name or a dotted name with type arguments, followed by any number of
marks: a pair of brackets makes an array of it, a question mark makes it nullable. Each
mark encloses all that was read before it. A nullable type takes no second question mark.

## Main definitions

* `typeScript`: A type, or a report that one was expected.
-/

namespace Nominal

namespace Grammar

open Script

/-- A type where one has to stand. -/
def readType : Script (Option Syntax.Kind) := call .type

/-- A type and the comma behind it. Answers whether there may be more. -/
def typeItem : Script Bool := do
  match ← readType with
  | none => return false
  | some _ => eat .comma

/-- Types in angle brackets: `<K, V>`. -/
def typeArguments : Script Unit :=
  node .typeArgList do
    take
    repeatWhile typeItem
    expect .gt "`>`"

/-- Whether a further segment of a dotted name follows. -/
def isAtSegment : Script Bool := do
  if ← isAt .dot then nextIs .id else return false

/-- A further segment of a dotted name. -/
def segment : Script Unit := do
  take
  expect .id "identifier after `.`"

/-- A dotted name with type arguments: `A.B<T>`. -/
def namedType : Script Unit :=
  node .namedType do
    take
    whileTrue isAtSegment segment
    if ← isAt .lt then
      typeArguments

/-- One mark behind a type of the outermost kind `kind`; answers whether there was one,
    and the outermost kind with it. -/
def typeMark (kind : Syntax.Kind) : Script (Bool × Syntax.Kind) := do
  match ← look with
  | some .bracketOpen =>
    if ← nextIs .bracketClose then
      enclose .arrayType do
        take
        expect .bracketClose "`]`"
      return (true, .arrayType)
    else
      return (false, kind)
  | some .question =>
    if kind = .nullableType then
      return (false, kind)
    else
      enclose .nullableType take
      return (true, .nullableType)
  | _ => return (false, kind)

/-- The marks behind a type, and then the kind of the outermost node. -/
def typeMarks (kind : Syntax.Kind) : Script (Option Syntax.Kind) :=
  .loop typeMark kind fun outermost => .done (some outermost)

/-- A type. Answers the kind of its outermost node, or reports that no type starts here. -/
def typeScript : Script (Option Syntax.Kind) := do
  perform .skipTrivia
  frame do
    match ← look with
    | some .predefinedType =>
      node .predefType take
      typeMarks .predefType
    | some .id =>
      namedType
      typeMarks .namedType
    | _ =>
      report .expectedType
      return none

end Grammar

end Nominal
