import Nominal.Grammar.Expressions

/-!
# Productions of Statements

What a statement is follows from its first token, except that a declaration of variables
may start like an expression. There the tokens to come decide. A token that starts no
statement is reported and taken, so a sequence of statements always gets further.

## Main definitions

* `stmtScript`: A statement.
* `varDeclarator`: A variable with its initial value.
-/

namespace Nominal

namespace Grammar

open Script
open Syntax (Kind KindSet)

/-- A variable with its initial value, if it has one. Trivia before the name stays outside. -/
def varDeclarator : Script Unit := do
  perform .skipTrivia
  node .varDeclarator do
    let _ ← expectName "variable name"
    if ← eat .equals then
      exprRequired "initializer"

/-- What stands for the type of variables: `var` or a type. -/
def varOrType : Script Unit := do
  unless ← eat .kwVar do
    let _ ← readType

/-- A declaration of variables, at least one of them. -/
def localDeclaration : Script Unit :=
  node .localDecl do
    varOrType
    varDeclarator
    whileTrue (eat .comma) varDeclarator
    let _ ← expectSemicolon

/-- An expression, if one starts here. -/
def exprIfAny : Script Unit := do
  if ← isAtOneOf KindSet.exprFirst then
    call .expr

/-- `return` and the value, if there is one. -/
def returnStatement : Script Unit :=
  node .returnStmt do
    take
    exprIfAny
    let _ ← expectSemicolon

/-- A condition in parentheses. -/
def parenthesizedCondition : Script Unit := do
  if ← isAt .parenOpen then
    takeOpening
    exprRequired "condition"
    expectClosing .parenClose .unclosedParen
  else
    reportExpected .unexpectedToken "expected `(`"

/-- The statement that another one governs. -/
def embeddedStatement : Script Unit := do
  if ← isBefore .braceClose then
    call .stmt
  else
    report .expectedStatement

/-- `if`, a condition, and one or two statements. -/
def ifStatement : Script Unit :=
  node .ifStmt do
    take
    parenthesizedCondition
    embeddedStatement
    if ← eat .kwElse then
      embeddedStatement

/-- `foreach`, a variable and what it goes through, and a statement. -/
def foreachStatement : Script Unit :=
  node .foreachStmt do
    take
    if ← isAt .parenOpen then
      takeOpening
      varOrType
      let _ ← expectName "loop variable"
      expect .kwIn "`in`"
      exprRequired "collection"
      expectClosing .parenClose .unclosedParen
      embeddedStatement
    else
      reportExpected .unexpectedToken "expected `(`"

/-- An expression as a statement. Behind a mistake the rest of the statement is skipped. -/
def expressionStatement : Script Unit :=
  node .exprStmt do
    call .expr
    unless ← expectSemicolon do
      unless ← isAtOneOf KindSet.stmtRecovery do
        recover .unexpectedToken KindSet.stmtRecovery
        let _ ← eat .semicolon

/-- Whether a declaration of variables follows. -/
def isAtLocalDeclaration : Script Bool := do
  let _ ← look
  return declaresLocal (← upcoming)

/-- A statement that does not start with a token of its own. -/
def plainStatement (first : Option Kind) : Script Unit := do
  if ← isAtLocalDeclaration then
    localDeclaration
  else if first.any KindSet.exprFirst.contains then
    expressionStatement
  else
    reportAndTake .expectedStatement

/-- A statement. -/
def stmtScript : Script Unit :=
  deeper do
    match ← look with
    | some .braceOpen => block
    | some .kwReturn => returnStatement
    | some .kwIf => ifStatement
    | some .kwForeach => foreachStatement
    | some .semicolon => node .exprStmt take
    | first => plainStatement first

end Grammar

end Nominal
