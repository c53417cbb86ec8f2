import Nominal.Grammar.Lookahead
import Nominal.Grammar.Types

/-!
# Productions of Expressions

Binary operators are read by climbing: an operand is followed by operators that bind at
least as tight as asked for, and each takes a right operand in which only tighter ones
may follow. The operator `??` is the exception and groups to the right. Below the binary
operators come those before an operand, casts, and the forms that follow an operand;
above them the conditional and assignments.

Where an operand is missing, the report is made and nothing is taken, so the production
around it goes on at the same token.

## Main definitions

* `bindingPower?`: How tight a binary operator binds.
* `exprScript`: An expression.
* `binaryScript`: Operands joined by binary operators.
* `unaryScript`: An operand with what stands before and behind it.
* `block`: Statements in braces, which a lambda may have as its body.
-/

namespace Nominal

namespace Grammar

open Script
open Syntax (Kind KindSet)

/-- How tight a binary operator binds; a greater number binds tighter. -/
def bindingPower? : Kind → Option Nat
  | .questionQuestion => some 1
  | .pipePipe => some 2
  | .ampAmp => some 3
  | .eqEq | .bangEq => some 4
  | .lt | .gt | .ltEq | .gtEq => some 5
  | .plus | .minus => some 6
  | .star | .slash | .percent => some 7
  | _ => none

/-- The power that operators in the right operand need at least. -/
def rightPower (op : Kind) (power : Nat) : Nat :=
  if op = .questionQuestion then power else power + 1

/-- An expression where one has to stand, or a report of what it would have been. -/
def exprRequired (what : String) : Script Unit := do
  if ← isAtOneOf KindSet.exprFirst then
    call .expr
  else
    reportExpected .expectedExpression what

/-- Statements in braces. -/
def block : Script Unit :=
  node .block do
    perform (.require .braceOpen)
    takeOpening
    whileTrue (isBefore .braceClose) (call .stmt)
    expectClosing .braceClose .unclosedBrace

/-- An item of a list and the comma behind it. What cannot start an item is skipped, unless
    it may close something. Answers whether there may be more. -/
def commaItem (close : Kind) (item : Script Unit) : Script Bool := do
  if ← isBefore close then
    if ← isAtOneOf KindSet.exprFirst then
      item
      eat .comma
    else if ← isAtOneOf KindSet.listRecovery then
      return false
    else
      reportAndTake .expectedExpression
      return true
  else
    return false

/-- An opening delimiter, items with a comma between them and perhaps behind the last,
    and the closing delimiter. -/
def commaList (close : Kind) (unclosed : Diagnostic.Kind) (item : Script Unit) :
    Script Unit := do
  takeOpening
  repeatWhile (commaItem close item)
  expectClosing close unclosed

/-- Arguments in parentheses. -/
def argumentList : Script Unit :=
  node .argList (commaList .parenClose .unclosedParen (call .expr))

/-- A member of an anonymous object: `Name = value`, or a value that brings its name. -/
def anonymousMember : Script Unit :=
  node .anonMember do
    if ← isAtPair .id .equals then
      take
      expect .equals "`=`"
      exprRequired "member value"
    else
      call .expr

/-- An element of an object initializer: `Name = value`, or a plain value. -/
def initializerElement : Script Unit := do
  if ← isAtPair .id .equals then
    node .memberInit do
      take
      expect .equals "`=`"
      exprRequired "member value"
  else
    call .expr

/-- The braces behind the type of a new object. -/
def objectInitializer : Script Unit :=
  node .objectInit (commaList .braceClose .unclosedBrace initializerElement)

/-- The braces with the elements of a new array. -/
def arrayInitializer : Script Unit :=
  node .arrayInit (commaList .braceClose .unclosedBrace (call .expr))

/-- The elements of a new array where they have to stand. -/
def arrayInitializerRequired : Script Unit := do
  if ← isAt .braceOpen then
    arrayInitializer
  else
    reportExpected .unexpectedToken "expected array initializer"

/-- An expression in brackets. -/
def bracketed (what : String) : Script Unit := do
  takeOpening
  exprRequired what
  expectClosing .bracketClose .unclosedBracket

/-- Arguments, if there are any. Answers whether there were. -/
def argumentsIfAny : Script Bool := do
  if ← isAt .parenOpen then
    argumentList
    return true
  else
    return false

/-- The initializer of an object of a written type, which has to be there if neither the
    type is missing nor arguments stand before it. -/
def initializerOf (type : Option Kind) (hasArguments : Bool) : Script Unit := do
  if ← isAt .braceOpen then
    objectInitializer
  else if type.isSome && !hasArguments then
    reportExpected .unexpectedToken "expected `(` or `\x7b`"

/-- What follows `new` and a type: the size of an array, its elements, or the arguments
    and initializer of an object. -/
def newOfType : Script Unit := do
  let type ← readType
  if ← isAt .bracketOpen then
    enclose .arrayCreation do
      bracketed "array size"
      if ← isAt .braceOpen then
        arrayInitializer
  else if type = some .arrayType then
    enclose .arrayCreation arrayInitializerRequired
  else
    enclose .objectCreation do
      initializerOf type (← argumentsIfAny)

/-- The creation of an object, an array or an anonymous object. -/
def newExpr : Script Unit :=
  frame do
    perform (.require .kwNew)
    take
    match ← look with
    | some .braceOpen =>
      enclose .anonObjectCreation (commaList .braceClose .unclosedBrace anonymousMember)
    | some .bracketOpen =>
      enclose .arrayCreation do
        take
        expect .bracketClose "`]`"
        arrayInitializerRequired
    | some .id | some .predefinedType => newOfType
    | _ => enclose .objectCreation (report .expectedType)

/-- An expression in parentheses. -/
def parenthesized : Script Unit :=
  node .parenExpr do
    takeOpening
    exprRequired "expression"
    expectClosing .parenClose .unclosedParen

/-- An operand without anything before or behind it. Answers whether there was one. -/
def primary : Script Bool := do
  match ← look with
  | some .id | some .predefinedType =>
    node .nameRef take
    return true
  | some .kwThis =>
    node .thisExpr take
    return true
  | some .parenOpen =>
    parenthesized
    return true
  | some .kwNew =>
    newExpr
    return true
  | some kind =>
    if KindSet.literals.contains kind then
      node .literal take
      return true
    else
      report .expectedExpression
      return false
  | none =>
    report .expectedExpression
    return false

/-- One form behind an operand: a member, arguments, an index, `++` or `--`. Answers
    whether there was one. -/
def postfixForm : Script Bool := do
  match ← look with
  | some .dot =>
    enclose .memberAccess do
      take
      let _ ← expectName "member name"
    return true
  | some .parenOpen =>
    enclose .call argumentList
    return true
  | some .bracketOpen =>
    enclose .indexExpr (bracketed "index")
    return true
  | some .plusPlus | some .minusMinus =>
    enclose .postfixExpr take
    return true
  | _ => return false

/-- An operand with the forms behind it. -/
def operand : Script Unit :=
  frame do
    if ← primary then
      repeatWhile postfixForm

/-- Whether a cast follows. -/
def isAtCast : Script Bool := do
  if ← isAt .parenOpen then return isCast (← upcoming) else return false

/-- An operand with what stands before and behind it. -/
def unaryScript : Script Unit := do
  if ← isAtOneOf KindSet.prefixOps then
    deeper do
      node .prefixExpr do
        take
        if ← isAtOneOf KindSet.exprFirst then
          call .unary
        else
          reportExpected .expectedExpression "operand"
  else if ← isAtCast then
    node .castExpr do
      take
      let _ ← readType
      expect .parenClose "`)`"
      call .unary
  else
    operand

/-- One binary operator that binds at least as tight as `power`, and its right operand.
    Answers whether there was one. -/
def binaryOperation (power : Nat) : Script Bool := do
  match ← look with
  | none => return false
  | some op =>
    match bindingPower? op with
    | none => return false
    | some p =>
      if p < power then
        return false
      else
        enclose .binaryExpr do
          take
          if ← isAtOneOf KindSet.exprFirst then
            call (.binary (rightPower op p))
          else
            reportExpected .expectedExpression "right operand"
        return true

/-- Operands joined by binary operators that bind at least as tight as `power`. -/
def binaryScript (power : Nat) : Script Unit :=
  frame do
    call .unary
    repeatWhile (binaryOperation power)

/-- A condition with its two branches, or what could have been the condition. -/
def conditional : Script Unit :=
  frame do
    call (.binary 1)
    if ← isAt .question then
      enclose .conditionalExpr do
        take
        exprRequired "then-branch"
        expect .colon "`:`"
        exprRequired "else-branch"

/-- Whether a lambda follows. -/
def isAtLambda : Script Bool := do
  match ← look with
  | some .id | some .parenOpen => return isLambda (← upcoming)
  | _ => return false

/-- A parameter of a lambda. -/
def lambdaParam : Script Unit := node .lambdaParam take

/-- A parameter of a lambda and the comma behind it. Answers whether there may be more. -/
def lambdaParamItem : Script Bool := do
  if ← isAt .id then
    lambdaParam
    eat .comma
  else
    return false

/-- The parameters of a lambda: a name, or names in parentheses. -/
def lambdaParams : Script Unit :=
  node .lambdaParamList do
    if ← isAt .id then
      lambdaParam
    else
      take
      repeatWhile lambdaParamItem
      expect .parenClose "`)`"

/-- A lambda: its parameters, an arrow, and an expression or statements in braces. -/
def lambda : Script Unit :=
  node .lambda do
    lambdaParams
    expect .fatArrow "`=>`"
    if ← isAt .braceOpen then
      block
    else
      exprRequired "lambda body"

/-- An expression. -/
def exprScript : Script Unit :=
  deeper do
    if ← isAtLambda then
      lambda
    else
      frame do
        conditional
        if ← isAtOneOf KindSet.assignOps then
          enclose .assignExpr do
            take
            exprRequired "value"

end Grammar

end Nominal
