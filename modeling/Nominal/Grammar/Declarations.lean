import Nominal.Grammar.Statements

/-!
# Productions of Declarations

A file is a list of items: using directives, namespaces, types, and statements, which
stand at the top of a script. A namespace holds items again, either in braces or up to
the end of the file. A type holds members, and which sort of member it is shows only
after modifiers, a type and a name have been read. Therefore members are enclosed after
the fact.

## Main definitions

* `itemsScript`: Items of a file or a namespace.
* `memberScript`: A member of a type.
* `typeDeclaration`: A type with its members.
-/

namespace Nominal

namespace Grammar

open Script
open Syntax (Kind KindSet)

/-- A dotted name, or a report of what it would have been the name of. -/
def dottedPath (what : String) : Script Unit := do
  if ← isAt .id then
    node .path do
      take
      whileTrue isAtSegment segment
  else
    reportExpected .expectedIdentifier what

/-- `using System.Text;` -/
def usingDirective : Script Unit :=
  node .usingDirective do
    perform (.require .kwUsing)
    take
    dottedPath "namespace name"
    let _ ← expectSemicolon

/-- A namespace whose items stand in braces, or which takes the rest of the file. -/
def namespaceDeclaration : Script Unit :=
  node .namespaceDecl do
    perform (.require .kwNamespace)
    take
    dottedPath "namespace name"
    if ← eat .semicolon then
      call (.items false)
    else if ← isAt .braceOpen then
      takeOpening
      call (.items true)
      expectClosing .braceClose .unclosedBrace
    else
      reportExpected .unexpectedToken "expected `\x7b` or `;`"

/-- Whether the next token is a modifier. -/
def isAtModifier : Script Bool := do
  return (← look).any Kind.isModifier

/-- Modifiers; answers whether there were any. -/
def modifiers : Script Bool := do
  if ← isAtModifier then
    take
    whileTrue isAtModifier take
    return true
  else
    return false

/-- `: Base, Interface` -/
def baseList : Script Unit :=
  node .baseList do
    take
    repeatWhile typeItem

/-- Whether `class` or `struct` follows, which is then taken. -/
def eatTypeKeyword : Script Bool := do
  if ← eat .kwClass then return true else eat .kwStruct

/-- The list of base types, if there is one. -/
def baseListIfAny : Script Unit := do
  if ← isAt .colon then
    baseList

/-- The members of a type, in braces. -/
def typeBody : Script Unit := do
  if ← isAt .braceOpen then
    takeOpening
    whileTrue (isBefore .braceClose) (call .member)
    expectClosing .braceClose .unclosedBrace
  else
    reportExpected .unexpectedToken "expected `\x7b`"

/-- A type from its keyword on; encloses the modifiers in front of it. -/
def typeFromKeyword : Script Unit :=
  enclose .typeDecl do
    if ← eatTypeKeyword then
      let _ ← expectName "type name"
      baseListIfAny
      typeBody
    else
      reportExpected .unexpectedToken "expected `class` or `struct`"

/-- A type with its members. -/
def typeDeclaration : Script Unit :=
  frame do
    let _ ← modifiers
    typeFromKeyword

/-- A parameter with its default value, if it has one. -/
def param : Script Unit :=
  node .param do
    let _ ← readType
    let _ ← expectName "parameter name"
    if ← eat .equals then
      exprRequired "default value"

/-- A parameter and the comma behind it. What cannot start a type is skipped, unless it may
    close something. Answers whether there may be more. -/
def paramItem : Script Bool := do
  if ← isBefore .parenClose then
    match ← look with
    | some .id | some .predefinedType =>
      param
      eat .comma
    | _ =>
      if ← isAtOneOf KindSet.listRecovery then
        return false
      else
        reportAndTake .expectedType
        return true
  else
    return false

/-- Parameters in parentheses. -/
def paramList : Script Unit :=
  node .paramList do
    if ← isAt .parenOpen then
      takeOpening
      repeatWhile paramItem
      expectClosing .parenClose .unclosedParen
    else
      reportExpected .unexpectedToken "expected `(`"

/-- Statements in braces, `=>` and an expression, or nothing but a semicolon. -/
def body (what : String) : Script Unit := do
  match ← look with
  | some .braceOpen => block
  | some .fatArrow =>
    take
    exprRequired what
    let _ ← expectSemicolon
  | _ =>
    let _ ← expectSemicolon

/-- Whether the next token is the name of an accessor. -/
def isAtAccessor : Script Bool := do
  let text ← word
  if ← isAt .id then
    return text == "get" || text == "set" || text == "init"
  else
    return false

/-- An accessor with its modifiers. -/
def accessor : Script Unit :=
  frame do
    let _ ← modifiers
    if ← isAtAccessor then
      enclose .accessor do
        take
        body "accessor body"
    else
      reportAndTake .expectedAccessor

/-- Accessors in braces: `{ get; private set; }`. -/
def accessorList : Script Unit :=
  node .accessorList do
    takeOpening
    whileTrue (isBefore .braceClose) accessor
    expectClosing .braceClose .unclosedBrace

/-- What the tokens behind the type and the name of a member make of it. -/
inductive MemberShape where
  | method
  | property
  | computedProperty
  | field (named : Bool)
deriving DecidableEq, Repr

/-- Encloses the name of a field with its initial value, as that of any variable. -/
def fieldDeclarator : Script Unit :=
  enclose .varDeclarator do
    if ← eat .equals then
      exprRequired "field initializer"

/-- The name of a member behind its type, and what it shows of the member. -/
def memberName : Script MemberShape :=
  frame do
    let named ← expectName "member name"
    let next ← look
    if named && next == some .parenOpen then
      return .method
    else if named && next == some .braceOpen then
      return .property
    else if named && next == some .fatArrow then
      return .computedProperty
    else
      whenever named fieldDeclarator
      return .field named

/-- What follows the name of a member; encloses all from its modifiers on. -/
def memberRest : MemberShape → Script Unit
  | .method =>
    enclose .methodDecl do
      paramList
      body "method body"
  | .property =>
    enclose .propertyDecl do
      accessorList
      if ← eat .equals then
        exprRequired "property initializer"
        let _ ← expectSemicolon
  | .computedProperty =>
    enclose .propertyDecl do
      take
      exprRequired "property body"
      let _ ← expectSemicolon
  | .field named =>
    enclose .fieldDecl do
      whenever named (whileTrue (eat .comma) varDeclarator)
      let _ ← expectSemicolon

/-- A member that starts with a type: a method, a property or fields. -/
def typedMember : Script Unit := do
  let _ ← readType
  memberRest (← memberName)

/-- A member of a type. -/
def memberScript : Script Unit :=
  frame do
    let modified ← modifiers
    match ← look with
    | some .kwClass | some .kwStruct => typeFromKeyword
    | some .id =>
      if ← nextIs .parenOpen then
        enclose .constructorDecl do
          take
          paramList
          body "method body"
      else
        typedMember
    | some .kwVoid =>
      enclose .methodDecl do
        take
        let _ ← expectName "method name"
        paramList
        body "method body"
    | some .predefinedType => typedMember
    | _ =>
      if modified then
        report .expectedMember
      else
        recover .expectedMember KindSet.memberRecovery

/-- One item. Answers `false` at the end, which in braces is the closing brace. -/
def item (braced : Bool) : Script Bool := do
  if ← atEnd then
    return false
  else
    match ← look with
    | some .kwUsing =>
      usingDirective
      return true
    | some .kwNamespace =>
      namespaceDeclaration
      return true
    | some .kwClass | some .kwStruct =>
      typeDeclaration
      return true
    | some kind =>
      if braced && kind = .braceClose then
        return false
      else if kind.isModifier then
        typeDeclaration
        return true
      else
        call .stmt
        return true
    | none =>
      call .stmt
      return true

/-- Items up to the end of the file, or up to the closing brace. -/
def itemsScript (braced : Bool) : Script Unit := repeatWhile (item braced)

end Grammar

end Nominal
