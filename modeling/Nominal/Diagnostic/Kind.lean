/-!
# Kinds of Diagnostics

The kinds are listed by priority. A delimiter that is never closed spoils everything
behind it, so it comes first; then what the writer left out; then what does not belong
where it stands; then well-formed text without a meaning. The last two kinds are findings:
they report an opportunity and no mistake, and take no part in hiding one another.

A kind has a message of its own and a template for a message with a detail. The template
has one place for the detail, held as the text before it and the text behind it.

## Main definitions

* `Severity`: How bad a diagnostic is.
* `Diagnostic.Kind`: The kinds, by priority.
* `Diagnostic.Kind.suppresses`: Whether one kind has priority over another.
* `Diagnostic.Kind.message`: The message of a kind with or without a detail.

## Theorems

* `Diagnostic.Kind.not_suppresses_self`: No kind has priority over itself.
-/

namespace Nominal

/-- How bad a diagnostic is. -/
inductive Severity where
  | error | warning | info
deriving DecidableEq, Repr, Inhabited

namespace Severity

/-- How a severity is written. -/
def name : Severity → String
  | error => "error"
  | warning => "warning"
  | info => "info"

end Severity

namespace Diagnostic

/-- The kinds of diagnostics, by priority. -/
inductive Kind where
  -- a delimiter is never closed
  | unclosedBrace | unclosedParen | unclosedBracket
  -- something is left out
  | expectedExpression | expectedType | expectedIdentifier | expectedMember
  | expectedAccessor | expectedStatement | missingSemicolon
  -- something does not belong
  | unexpectedToken
  -- well-formed text without a meaning
  | invalidAnonymousMember | duplicateAnonymousMember
  -- findings
  | anonymousTypeDeclaration | anonymousTypeUsage
deriving DecidableEq, Repr, Inhabited

namespace Kind

/-- Every kind, by priority. -/
def all : List Kind :=
  [.unclosedBrace, .unclosedParen, .unclosedBracket, .expectedExpression, .expectedType,
   .expectedIdentifier, .expectedMember, .expectedAccessor, .expectedStatement,
   .missingSemicolon, .unexpectedToken, .invalidAnonymousMember, .duplicateAnonymousMember,
   .anonymousTypeDeclaration, .anonymousTypeUsage]

/-- The place of a kind among all kinds; the smaller has priority. -/
def rank (k : Kind) : Nat := all.idxOf k

/-- What a kind is called from outside. -/
def name : Kind → String
  | .unclosedBrace => "UnclosedBrace"
  | .unclosedParen => "UnclosedParen"
  | .unclosedBracket => "UnclosedBracket"
  | .expectedExpression => "ExpectedExpression"
  | .expectedType => "ExpectedType"
  | .expectedIdentifier => "ExpectedIdentifier"
  | .expectedMember => "ExpectedMember"
  | .expectedAccessor => "ExpectedAccessor"
  | .expectedStatement => "ExpectedStatement"
  | .missingSemicolon => "MissingSemicolon"
  | .unexpectedToken => "UnexpectedToken"
  | .invalidAnonymousMember => "InvalidAnonymousMember"
  | .duplicateAnonymousMember => "DuplicateAnonymousMember"
  | .anonymousTypeDeclaration => "AnonymousTypeDeclaration"
  | .anonymousTypeUsage => "AnonymousTypeUsage"

/-- The kind of a given name. -/
def ofName? (s : String) : Option Kind := all.find? fun k => k.name = s

/-- A delimiter that is never closed. -/
def isStructural : Kind → Bool
  | .unclosedBrace | .unclosedParen | .unclosedBracket => true
  | _ => false

/-- Something that the writer left out. -/
def isRootCause : Kind → Bool
  | .expectedExpression | .expectedType | .expectedIdentifier | .expectedMember
  | .expectedAccessor | .expectedStatement | .missingSemicolon => true
  | _ => false

/-- An opportunity and no mistake. -/
def isFinding : Kind → Bool
  | .anonymousTypeDeclaration | .anonymousTypeUsage => true
  | _ => false

/-- How bad a diagnostic of a kind is when nothing else is said. -/
def severity (k : Kind) : Severity := if k.isFinding then .info else .error

/-- Whether a kind has priority over another. -/
def suppresses (a b : Kind) : Bool := decide (a.rank < b.rank)

/-- No kind has priority over itself. -/
theorem not_suppresses_self (k : Kind) : k.suppresses k = false := by
  simp [suppresses]

/-- The message of a kind when there is no detail to tell. -/
def fallback : Kind → String
  | .unclosedBrace => "missing closing `\x7d`"
  | .unclosedParen => "missing closing `)`"
  | .unclosedBracket => "missing closing `]`"
  | .expectedExpression => "expected an expression"
  | .expectedType => "expected a type"
  | .expectedIdentifier => "expected an identifier"
  | .expectedMember => "expected a member declaration"
  | .expectedAccessor => "expected `get` or `set`"
  | .expectedStatement => "expected a statement"
  | .missingSemicolon => "missing `;`"
  | .unexpectedToken => "unexpected token"
  | .invalidAnonymousMember => "invalid anonymous type member declarator"
  | .duplicateAnonymousMember => "duplicate anonymous type member"
  | .anonymousTypeDeclaration => "variable is an anonymous type"
  | .anonymousTypeUsage => "anonymous type used"

/-- The texts before and behind the detail in the message of a kind. -/
def template (k : Kind) : String × String :=
  match k with
  | .unclosedBrace | .unclosedParen | .unclosedBracket => (k.fallback ++ "; ", "")
  | .expectedExpression | .expectedType | .expectedIdentifier | .expectedStatement =>
    ("expected ", "")
  | .duplicateAnonymousMember =>
    ("anonymous type member `", "` is declared more than once")
  | .unexpectedToken | .anonymousTypeDeclaration | .anonymousTypeUsage => ("", "")
  | .expectedMember | .expectedAccessor | .missingSemicolon | .invalidAnonymousMember =>
    (k.fallback ++ ": ", "")

/-- The message of a kind with a detail. -/
def messageWith (k : Kind) (detail : String) : String :=
  k.template.1 ++ detail ++ k.template.2

/-- The template of a kind, with a pair of braces in the place of the detail. -/
def templateText (k : Kind) : String := k.messageWith "\x7b\x7d"

/-- The message of a kind, with a detail if there is one. -/
def message (k : Kind) : Option String → String
  | none => k.fallback
  | some detail => k.messageWith detail

end Kind

end Diagnostic

end Nominal
