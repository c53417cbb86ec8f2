import Nominal.Grammar.Script
import Nominal.Syntax.Tree
import Nominal.Diagnostic.Basic

/-!
# The State of the Parser

The parser goes through the lexemes from left to right. Trivia that it steps over is set
aside, because the node that it belongs to may not have been started yet; it is collected
as soon as something is collected behind it or a group starts.

Two limits can make a run lost: on the number of tokens taken and on the depth of the
nesting. A lost run goes on to its end but counts as failed. Apart from that a run may
only look at the next token a fixed number of times before it has to take something; a
run that does not is stuck and ends at once.

An operation that is used where it must not be used is a fault. There is one case of
`Fault` for each way to do so.

## Main definitions

* `Limits`: How much a run may take.
* `State`: Where a run is.
* `Outcome`: How a script ends.
* `Op.run`: What an operation does to the state, and what it answers.
-/

namespace Nominal

namespace Grammar

open Syntax (Kind Lexeme Tree)
open Text (Span)

/-- How much a run may take: tokens, and levels of nesting. -/
structure Limits where
  tokens : Option Nat
  depth : Option Nat
deriving DecidableEq, Repr

/-- The limit that a lost run has met. -/
inductive LimitError where
  | tokens | depth
deriving DecidableEq, Repr

/-- What is reported for a lost run. -/
def LimitError.message : LimitError → String
  | tokens => "execution limit exceeded"
  | depth => "recursion limit exceeded"

/-- A use of an operation where it must not be used. -/
inductive Fault where
  /-- A token is taken where there is none. -/
  | takeAtEnd
  /-- The next token is not of the kind that was stated. -/
  | unexpected (kind : Kind)
  /-- A span would end before it starts. -/
  | invertedSpan
  /-- A loop goes on without getting any further. -/
  | endlessLoop
  /-- Productions refer to each other without getting any further. -/
  | endlessCalls
deriving DecidableEq, Repr

/-- How often the next token may be looked at before something is taken. -/
def maxLooks : Nat := 256

/-- What stays the same during a run. -/
structure Setting where
  /-- The deepest level of nesting. -/
  depthLimit : Option Nat
  /-- The number of bytes of the source. -/
  length : Nat

/-- Where a run is. -/
structure State where
  /-- The lexemes to come. -/
  rest : List Lexeme
  /-- The offset that they start at. -/
  offset : Nat
  /-- Trivia that has been stepped over and not been collected. -/
  pending : List Lexeme
  /-- The trees of the current group. -/
  output : List Tree
  /-- What has been reported. -/
  diagnostics : List Diagnostic
  /-- The level of nesting. -/
  depth : Nat
  /-- Where the last report was made. -/
  reportedAt : Option Nat
  /-- The open delimiters, the innermost first. -/
  delimiters : List Span
  /-- How often the next token may still be looked at. -/
  looks : Nat
  /-- How many tokens may still be taken. -/
  fuel : Option Nat
  /-- The limit that was met first. -/
  lost : Option LimitError
  /-- The end of the last token taken. -/
  lastEnd : Option Nat

/-- How a script ends. -/
inductive Outcome (α : Type) where
  | ok (answer : α) (state : State)
  /-- The next token was looked at too often. -/
  | stuck
  | broken (fault : Fault)

namespace State

/-- The state at the start of a run. -/
def initial (limits : Limits) (lexemes : List Lexeme) : State where
  rest := lexemes
  offset := 0
  pending := []
  output := []
  diagnostics := []
  depth := 0
  reportedAt := none
  delimiters := []
  looks := maxLooks
  fuel := limits.tokens
  lost := none
  lastEnd := none

/-- Sets the trivia aside that stands before the next token. -/
def skipTrivia (s : State) : State :=
  let trivia := s.rest.takeWhile Lexeme.isTrivia
  { s with
    rest := s.rest.dropWhile Lexeme.isTrivia
    offset := s.offset + Lexeme.widthOf trivia
    pending := s.pending ++ trivia }

/-- Collects the trivia that was set aside. -/
def flush (s : State) : State :=
  { s with output := s.output ++ s.pending.map Tree.token, pending := [] }

/-- The kind of the lexeme to come, which is the next token once trivia is set aside. -/
def next? (s : State) : Option Kind := s.rest.head?.map Lexeme.kind

/-- The kinds of the tokens to come. -/
def upcoming (s : State) : List Kind :=
  (s.rest.filter fun l => !l.isTrivia).map Lexeme.kind

/-- The kind of the token after `n` more tokens. -/
def nth? : Nat → List Lexeme → Option Kind
  | _, [] => none
  | n, l :: ls =>
    if l.isTrivia then nth? n ls
    else
      match n with
      | 0 => some l.kind
      | m + 1 => nth? m ls

/-- The span of the next token; at the end of the source, the empty span there. -/
def nextSpan (setting : Setting) (s : State) : Span :=
  match s.rest with
  | [] => Span.empty setting.length
  | l :: _ => Span.ofWidth s.offset l.width

/-- Uses up one of the tokens that may still be taken; there may be none. -/
def spend (s : State) : State :=
  match s.fuel with
  | none => s
  | some 0 => { s with lost := s.lost <|> some .tokens }
  | some (n + 1) => { s with fuel := some n }

/-- Takes the lexeme `l`, with `ls` behind it. -/
def takeLexeme (s : State) (l : Lexeme) (ls : List Lexeme) : State :=
  let s := s.spend.flush
  { s with
    rest := ls
    offset := s.offset + l.width
    output := s.output ++ [.token l]
    looks := maxLooks
    lastEnd := if l.isTrivia then s.lastEnd else some (s.offset + l.width) }

/-- Adds a diagnostic that belongs to an offset, unless the last one belonged there too. -/
def reportAt (s : State) (offset : Nat) (d : Diagnostic) : State :=
  if s.reportedAt = some offset then s
  else { s with reportedAt := some offset, diagnostics := s.diagnostics ++ [d] }

/-- The span in which a diagnostic at `span` hides others: all that follows the innermost
    open delimiter, if there is one. -/
def suppression (setting : Setting) (s : State) (span : Span) : Span :=
  match s.delimiters with
  | [] => span
  | d :: _ => ⟨d.start, setting.length⟩

end State

/-- The diagnostic for a semicolon that is missing at an offset. -/
def missingSemicolon (offset : Nat) : Diagnostic :=
  { Diagnostic.of .missingSemicolon (Span.empty offset) with
    fix := some ⟨Span.empty offset, some ";", "insert `;`"⟩ }

/-- The diagnostic for a delimiter that is open from `opening` to the end of `span`. -/
def unclosedDelimiter (kind : Diagnostic.Kind) (span opening : Span) : Diagnostic :=
  { Diagnostic.of kind span with related := [⟨opening, "opened here"⟩] }

/-- What an operation does. -/
def Op.run (setting : Setting) : (op : Op) → State → Outcome op.Answer
  | .look, s =>
    let s := s.skipTrivia
    match s.looks with
    | 0 => .stuck
    | n + 1 => .ok s.next? { s with looks := n }
  | .ahead n, s =>
    let s := s.skipTrivia
    .ok (State.nth? n s.rest) s
  | .upcoming, s =>
    let s := s.skipTrivia
    .ok s.upcoming s
  | .word, s =>
    let s := s.skipTrivia
    .ok ((s.rest.head?.map Lexeme.text).getD "") s
  | .atEnd, s =>
    let s := s.skipTrivia
    .ok (s.rest.isEmpty || s.lost.isSome) s
  | .exhausted, s =>
    let s := s.skipTrivia
    .ok s.rest.isEmpty s
  | .skipTrivia, s => .ok () s.skipTrivia
  | .keepTrivia, s => .ok () s.skipTrivia.flush
  | .take, s =>
    match s.rest with
    | [] => .broken .takeAtEnd
    | l :: ls => .ok () (s.takeLexeme l ls)
  | .require kind, s =>
    let s := s.skipTrivia
    match s.looks with
    | 0 => .stuck
    | n + 1 =>
      if s.next? = some kind then .ok () { s with looks := n }
      else .broken (.unexpected kind)
  | .report kind detail, s =>
    let s := s.skipTrivia
    let span := s.nextSpan setting
    let suppression := s.suppression setting span
    if suppression.stop < suppression.start then .broken .invertedSpan
    else
      let d := (Diagnostic.of kind span).withDetail detail
      .ok () (s.reportAt span.start { d with suppression := suppression })
  | .reportSemicolon, s =>
    match s.lastEnd with
    | some offset => .ok () (s.reportAt offset (missingSemicolon offset))
    | none =>
      let s := s.skipTrivia
      let offset := (s.nextSpan setting).start
      .ok () (s.reportAt offset (missingSemicolon offset))
  | .openDelimiter, s =>
    let s := s.skipTrivia
    .ok () { s with delimiters := s.nextSpan setting :: s.delimiters }
  | .closeDelimiter, s => .ok () { s with delimiters := s.delimiters.tail }
  | .reportUnclosed kind, s =>
    match s.delimiters with
    | [] => .ok () s
    | opening :: delimiters =>
      let s := { s with delimiters := delimiters }.skipTrivia
      let next := s.nextSpan setting
      if next.stop < opening.start then .broken .invertedSpan
      else
        let d := unclosedDelimiter kind ⟨opening.start, next.stop⟩ opening
        .ok () (s.reportAt next.start d)
  | .enter, s =>
    if setting.depthLimit.any (· ≤ s.depth) then
      .ok false { s with lost := s.lost <|> some .depth }
    else
      .ok true { s with depth := s.depth + 1, looks := maxLooks }
  | .leave, s => .ok () { s with depth := s.depth - 1, looks := maxLooks }

end Grammar

end Nominal
