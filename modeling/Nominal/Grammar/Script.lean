import Nominal.Syntax.KindSet
import Nominal.Diagnostic.Kind

/-!
# Grammar Scripts

A production of the grammar is written as a script: a value that says which elementary
operations the parser performs, in which order, and how the next one depends on the
answers. What an operation does to the state of the parser is told elsewhere. A fact that
every operation preserves is then a fact about every production, and is proved once for
the operations instead of once for each of the productions.

An answer never contains an offset or a piece of trivia. So no script can depend on how
the source is laid out.

Trees are built by grouping. What a script reads is appended to the list of trees that is
being collected, and a group collects separately: a `node` for a node of its own, a
`frame` for nothing but a place to return to, an `enclose` to wrap all that the frame
around it has collected so far, together with what is still to come, into a node. The
last one is what a binary operator needs, whose left operand has been read before anyone
knew that there would be an operator. Groups are nested by construction, so no script can
open a node and forget it.

A script refers to another production by name where the grammar is recursive. The
resulting scripts are finite, and following a name is a step of the interpreter.

## Main definitions

* `Op`: An elementary operation, and `Op.Answer`, what it answers.
* `Production`: The productions that the grammar refers to by name.
* `Grouping`: How the trees of a group are collected.
* `Script`: A production as a sequence of operations.
-/

namespace Nominal

namespace Grammar

open Syntax (Kind KindSet)

/-- An elementary operation of the parser. The next token is the next one that is no
    trivia. -/
inductive Op where
  /-- The kind of the next token. There is a limit on how often this may be asked before
      something is taken. -/
  | look
  /-- The kind of the token after `n` more tokens. -/
  | ahead (n : Nat)
  /-- The kinds of all tokens to come. -/
  | upcoming
  /-- The text of the next token. -/
  | word
  /-- Whether there is no next token, or the run is lost. -/
  | atEnd
  /-- Whether there is no next token. -/
  | exhausted
  /-- Sets trivia aside that stands before the next token. -/
  | skipTrivia
  /-- Collects the trivia that stands before the next token. -/
  | keepTrivia
  /-- Collects the next token. -/
  | take
  /-- States that the next token has a kind, as the caller has seen to. -/
  | require (kind : Kind)
  /-- Reports a diagnostic at the next token, unless one was just reported there. -/
  | report (kind : Diagnostic.Kind) (detail : Option String)
  /-- Reports a missing semicolon behind the last token taken. -/
  | reportSemicolon
  /-- Notes the next token as an open delimiter. -/
  | openDelimiter
  /-- Forgets the innermost open delimiter. -/
  | closeDelimiter
  /-- Forgets the innermost open delimiter and reports that it is never closed. -/
  | reportUnclosed (kind : Diagnostic.Kind)
  /-- Goes one level deeper, or answers that this is too deep and the run is lost. -/
  | enter
  /-- Comes back from a level. -/
  | leave

/-- The answer to an operation. -/
@[reducible]
def Op.Answer : Op → Type
  | .look | .ahead _ => Option Kind
  | .upcoming => List Kind
  | .word => String
  | .atEnd | .exhausted | .enter => Bool
  | _ => Unit

/-- The productions that the grammar refers to by name. -/
inductive Production where
  /-- Items of a file, or of a namespace up to its closing brace. -/
  | items (braced : Bool)
  | member
  | stmt
  | expr
  /-- Operands and operators that bind at least as tight as `power`. -/
  | binary (power : Nat)
  | unary
  | type
deriving DecidableEq, Repr

/-- What a production answers: for a type the kind of its outermost node, if one was
    read. -/
@[reducible]
def Production.Answer : Production → Type
  | .type => Option Kind
  | _ => Unit

/-- How the trees of a group are collected. -/
inductive Grouping where
  /-- Into a node of their own. -/
  | node (kind : Kind)
  /-- Behind what was collected before. -/
  | frame
  /-- Together with all that the frame has collected, into a node. -/
  | enclose (kind : Kind)
deriving DecidableEq, Repr

/-- A production as a sequence of operations. -/
inductive Script : Type → Type 1 where
  | done {α : Type} (answer : α) : Script α
  | step {α : Type} (op : Op) (next : op.Answer → Script α) : Script α
  | group {α β : Type} (grouping : Grouping) (body : Script β) (next : β → Script α) : Script α
  /-- Performs `body` again as long as it answers `true`, handing a value on. -/
  | loop {α σ : Type} (body : σ → Script (Bool × σ)) (start : σ) (next : σ → Script α) : Script α
  | invoke {α : Type} (production : Production) (next : production.Answer → Script α) : Script α

namespace Script

/-- One script after another, which may depend on the answer of the first. -/
def andThen {α β : Type} : Script α → (α → Script β) → Script β
  | .done a, f => f a
  | .step op next, f => .step op fun a => (next a).andThen f
  | .group g body next, f => .group g body fun b => (next b).andThen f
  | .loop body start next, f => .loop body start fun s => (next s).andThen f
  | .invoke p next, f => .invoke p fun a => (next a).andThen f

instance : Monad Script where
  pure := .done
  bind := andThen

/-- The script of a single operation. -/
def perform (op : Op) : Script op.Answer := .step op .done

/-- The kind of the next token. -/
def look : Script (Option Kind) := perform .look

/-- The kind of the token after `n` more tokens. -/
def ahead (n : Nat) : Script (Option Kind) := perform (.ahead n)

/-- The kinds of all tokens to come. -/
def upcoming : Script (List Kind) := perform .upcoming

/-- The text of the next token. -/
def word : Script String := perform .word

/-- Collects the next token. -/
def take : Script Unit := perform .take

/-- Whether there is no next token, or the run is lost. -/
def atEnd : Script Bool := perform .atEnd

/-- Whether there is no next token. -/
def exhausted : Script Bool := perform .exhausted

/-- Goes one level deeper, or answers that this is too deep. -/
def enter : Script Bool := perform .enter

/-- Reports a diagnostic at the next token. -/
def report (kind : Diagnostic.Kind) (detail : Option String := none) : Script Unit :=
  perform (.report kind detail)

/-- Reports what would have to stand here. -/
def reportExpected (kind : Diagnostic.Kind) (what : String) : Script Unit :=
  report kind (some what)

/-- Refers to a production by name. -/
def call (p : Production) : Script p.Answer := .invoke p .done

/-- Collects the trees of `body` into a node. -/
def node {α : Type} (kind : Kind) (body : Script α) : Script α := .group (.node kind) body .done

/-- Marks the place that an enclosing node may start at. -/
def frame {α : Type} (body : Script α) : Script α := .group .frame body .done

/-- Wraps the trees of the frame, and those of `body` behind them, into a node. -/
def enclose {α : Type} (kind : Kind) (body : Script α) : Script α :=
  .group (.enclose kind) body .done

/-- Performs `body` again as long as it answers `true`. -/
def repeatWhile (body : Script Bool) : Script Unit :=
  .loop (fun _ => body.andThen fun again => .done (again, ())) () .done

/-- Performs `body` as long as `condition` answers `true`. -/
def whileTrue (condition : Script Bool) (body : Script Unit) : Script Unit :=
  repeatWhile do
    if ← condition then
      body
      return true
    else
      return false

/-- Performs `body` under a condition that is known. -/
def whenever (condition : Bool) (body : Script Unit) : Script Unit :=
  if condition then body else return ()

/-- Whether the next token has a kind. -/
def isAt (kind : Kind) : Script Bool := do
  return (← look) == some kind

/-- Whether the kind of the next token is in a set. -/
def isAtOneOf (set : KindSet) : Script Bool := do
  return (← look).any set.contains

/-- Whether the token after the next one has a kind. -/
def nextIs (kind : Kind) : Script Bool := do
  return (← ahead 1) == some kind

/-- Whether two tokens of these kinds follow. -/
def isAtPair (first second : Kind) : Script Bool := do
  if ← isAt first then nextIs second else return false

/-- Takes the next token if it has a kind, and answers whether it did. -/
def eat (kind : Kind) : Script Bool := do
  if ← isAt kind then
    take
    return true
  else
    return false

/-- Takes the next token if it has a kind, and reports what was expected otherwise. -/
def expect (kind : Kind) (what : String) : Script Unit := do
  unless ← eat kind do
    reportExpected .unexpectedToken s!"expected {what}"

/-- Takes a name, or reports what it would have been the name of. -/
def expectName (what : String) : Script Bool := do
  if ← eat .id then
    return true
  else
    reportExpected .expectedIdentifier what
    return false

/-- Takes the semicolon that ends a statement, or reports that it is missing. -/
def expectSemicolon : Script Bool := do
  if ← eat .semicolon then
    return true
  else
    perform .reportSemicolon
    return false

/-- Whether there is a next token and it has another kind than the one that ends a list. -/
def isBefore (close : Kind) : Script Bool := do
  if ← atEnd then return false else return !(← isAt close)

/-- Takes the next token, an opening delimiter. -/
def takeOpening : Script Unit := do
  perform .openDelimiter
  take

/-- Takes the delimiter that closes the innermost open one, or reports that none does. -/
def expectClosing (close : Kind) (unclosed : Diagnostic.Kind) : Script Unit := do
  if ← eat close then
    perform .closeDelimiter
  else
    perform (.reportUnclosed unclosed)

/-- Reports a diagnostic and takes the next token, if there is one, as a mistake. -/
def reportAndTake (kind : Diagnostic.Kind) : Script Unit := do
  report kind
  if ← exhausted then
    return ()
  else
    node .error take

/-- Reports a diagnostic once and takes all tokens before the recovery set as a mistake. -/
def recover (kind : Diagnostic.Kind) (recovery : KindSet) : Script Unit := do
  let stops : Script Bool := do
    if ← isAtOneOf recovery then return true else atEnd
  if ← stops then
    report kind
  else
    node .error do
      report kind
      whileTrue (do return !(← stops)) take

/-- Performs `body` one level deeper. Where that is too deep, the run is lost, and an
    empty node stands for what was not read. -/
def deeper (body : Script Unit) : Script Unit := do
  if ← enter then
    body
    perform .leave
  else
    node .error (return ())

end Script

end Grammar

end Nominal
