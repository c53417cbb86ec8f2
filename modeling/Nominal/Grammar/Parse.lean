import Nominal.Grammar.Declarations
import Nominal.Grammar.Interpreter
import Nominal.Syntax.Lexer

/-!
# Parsing a Source

A production that is referred to by name is looked up and run, and so are the productions
that it refers to. On the way from one of them to the next either a token is taken or the
grammar has gone down a level of its hierarchy, from items to statements, to expressions,
to operands, to types. So the chain of references is bounded by the number of lexemes,
and running out of that bound is a fault.

A run that meets no limit gives a tree of the whole source, whatever is wrong with it.

## Main definitions

* `runProduction`: What a production does.
* `ParseFailure`: Why there is no tree of a source.
* `parseWith`: Parsing a source under given limits.
* `parse`: Parsing a source under the limits that hold when none are given.
-/

namespace Nominal

namespace Grammar

open Syntax (Lexeme Tree)

/-- The script of a production. -/
def Production.script : (p : Production) → Script p.Answer
  | .items braced => itemsScript braced
  | .member => memberScript
  | .stmt => stmtScript
  | .expr => exprScript
  | .binary power => binaryScript power
  | .unary => unaryScript
  | .type => typeScript

/-- Runs a production whose chains of references are shorter than `n`. -/
def runProduction (setting : Setting) : Nat → Productions
  | 0, _, _ => .broken .endlessCalls
  | n + 1, p, s => p.script.exec setting (runProduction setting n) s

/-- More than the levels of the hierarchy of productions. -/
def levels : Nat := 16

/-- A tree of a source with what was reported about it. -/
structure Parsed where
  tree : Tree
  diagnostics : List Diagnostic
  /-- How many tokens were counted against the limit. -/
  taken : Nat

/-- Why there is no tree of a source. -/
inductive ParseFailure where
  /-- A limit was met. -/
  | exceeded (limit : LimitError)
  /-- The next token was looked at too often. -/
  | stuck
  | broken (fault : Fault)

/-- The script of a whole file. -/
def fileScript : Script Unit := do
  Script.call (.items false)
  Script.perform .keepTrivia

/-- How a run that was given limits ends, if it ends in the state `s`. -/
def State.result (limits : Limits) (s : State) : Except ParseFailure Parsed :=
  match s.lost with
  | some limit => .error (.exceeded limit)
  | none =>
    let taken :=
      match limits.tokens, s.fuel with
      | some before, some left => before - left
      | _, _ => 0
    .ok ⟨.node .root s.output, s.diagnostics, taken⟩

/-- Parses lexemes under given limits. -/
def parseLexemes (limits : Limits) (lexemes : List Lexeme) : Except ParseFailure Parsed :=
  let setting : Setting := ⟨limits.depth, Lexeme.widthOf lexemes⟩
  let productions := runProduction setting (levels * (lexemes.length + 1))
  match fileScript.exec setting productions (State.initial limits lexemes) with
  | .ok _ s => s.result limits
  | .stuck => .error .stuck
  | .broken fault => .error (.broken fault)

/-- Parses a source under given limits. -/
def parseWith (limits : Limits) (source : String) : Except ParseFailure Parsed :=
  parseLexemes limits (Syntax.lex source)

/-- The limits that hold when none are given. -/
def defaultLimits : Limits := ⟨some 1000000, some 512⟩

/-- Parses a source under the limits that hold when none are given. -/
def parse (source : String) : Except ParseFailure Parsed := parseWith defaultLimits source

end Grammar

end Nominal
