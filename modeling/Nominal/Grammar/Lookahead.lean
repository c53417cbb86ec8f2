import Nominal.Syntax.KindSet

/-!
# Looking Ahead

Three questions need more than the next token: whether a statement declares variables,
whether a parenthesis starts a cast, and whether it starts a lambda. They are answered on
the kinds of the tokens to come, without taking any of them. A type is recognised by
stepping over it, which leaves the kinds behind it.

## Main definitions

* `typeEnd?`: The kinds behind a type.
* `declaresLocal`: Whether the tokens to come declare variables.
* `isCast`: Whether the tokens to come are a cast and its operand.
* `isLambda`: Whether the tokens to come are the parameters of a lambda.
-/

namespace Nominal

namespace Grammar

open Syntax (Kind KindSet)

/-- The kinds behind the further segments of a dotted name. -/
def segmentsEnd : List Kind → List Kind
  | .dot :: .id :: ks => segmentsEnd ks
  | ks => ks

/-- The kinds behind the marks of arrays and nullable types that follow a type. -/
def marksEnd : List Kind → List Kind
  | .bracketOpen :: .bracketClose :: ks => marksEnd ks
  | .question :: ks => marksEnd ks
  | ks => ks

mutual

/-- The kinds behind a type, if the kinds start with one whose arguments are nested less
    than `fuel` deep. -/
def typeEndWithin (fuel : Nat) : List Kind → Option (List Kind)
  | .predefinedType :: ks => some (marksEnd ks)
  | .id :: ks =>
    match fuel, segmentsEnd ks with
    | 0, .lt :: _ => none
    | n + 1, .lt :: ks => (argumentsEndWithin n ks).map marksEnd
    | _, ks => some (marksEnd ks)
  | _ => none

/-- The kinds behind type arguments and the bracket that closes them. -/
def argumentsEndWithin (fuel : Nat) (ks : List Kind) : Option (List Kind) :=
  match fuel with
  | 0 => none
  | n + 1 =>
    match typeEndWithin n ks with
    | some (.comma :: ks) => argumentsEndWithin n ks
    | some (.gt :: ks) => some ks
    | _ => none

end

/-- The kinds behind a type, if the kinds start with one. -/
def typeEnd? (ks : List Kind) : Option (List Kind) := typeEndWithin (2 * ks.length + 2) ks

/-- Whether the kinds are `var` and a name, or a type, a name and what may follow the name
    of a variable. -/
def declaresLocal : List Kind → Bool
  | .kwVar :: ks => ks.head? == some .id
  | ks =>
    match typeEnd? ks with
    | some (.id :: k :: _) => k == .equals || k == .semicolon || k == .comma
    | _ => false

/-- Whether the kinds are a type in parentheses and something that it can be a cast of.
    A name in parentheses may be an operand itself, so an operator behind it makes no
    operand of a cast. -/
def isCast : List Kind → Bool
  | .parenOpen :: ks =>
    match typeEnd? ks with
    | some (.parenClose :: operand :: _) =>
      if ks.head? == some .predefinedType then KindSet.exprFirst.contains operand
      else
        KindSet.literals.contains operand || operand == .id || operand == .kwThis
          || operand == .kwNew || operand == .bang
    | _ => false
  | _ => false

/-- The kinds behind further names with a comma before each. -/
def namesEnd : List Kind → List Kind
  | .comma :: .id :: ks => namesEnd ks
  | ks => ks

/-- Whether the kinds are a name and an arrow, or names in parentheses and an arrow. -/
def isLambda : List Kind → Bool
  | .id :: k :: _ => k == .fatArrow
  | .parenOpen :: ks =>
    let behind :=
      match ks with
      | .id :: ks => namesEnd ks
      | ks => ks
    match behind with
    | .parenClose :: .fatArrow :: _ => true
    | _ => false
  | _ => false

end Grammar

end Nominal
