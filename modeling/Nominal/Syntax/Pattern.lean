import Nominal.Syntax.Lexeme

/-!
# Patterns of Tokens

All patterns of tokens are read at once, by one automaton over characters. A state says
what has been read since the token started: a word, the body of a string, the sign of an
exponent. A state is final when some pattern matches exactly what has been read, and it
has no step for a character with which no pattern goes on.

Reading from the start until there is no step left therefore tells two things. The last
final state on the way gives the longest match. Where no state on the way was final,
the place reached is the first at which no pattern can go on any more, and the text up
to there is what is rejected as a whole: an open string with all of its characters
instead of its quote alone.

A word is one state. Whether it is reserved is decided on its whole text, which makes a
reserved word win over the identifier of the same length and lose to a longer one.

## Main definitions

* `Pattern`: What has been read of a token.
* `Pattern.step`: Reading one more character.
* `Pattern.kind?`: The kind of a text that has been read in full.

## Theorems

* `Pattern.kind?_start`: No pattern matches the empty text.
-/

namespace Nominal

namespace Syntax

/-- Whether a character may start a word: the letters of the Latin alphabet and `_`. -/
def startsWord (c : Char) : Bool := c.isAlpha || c == '_'

/-- Whether a character may stand inside a word. -/
def continuesWord (c : Char) : Bool := c.isAlphanum || c == '_'

/-- Whether a character may stand inside a run of decimal digits. -/
def continuesDigits (c : Char) : Bool := c.isDigit || c == '_'

/-- Whether a character may stand inside a run of hexadecimal digits. -/
def continuesHex (c : Char) : Bool :=
  continuesDigits c || ('a' ≤ c && c ≤ 'f') || ('A' ≤ c && c ≤ 'F')

/-- The suffixes that make a number a real one. -/
def isRealSuffix (c : Char) : Bool := ['f', 'F', 'd', 'D', 'm', 'M'].contains c

/-- Whether `c` marks an unsigned number. -/
def isUnsignedSuffix (c : Char) : Bool := c == 'u' || c == 'U'

/-- Whether `c` marks a long number. -/
def isLongSuffix (c : Char) : Bool := c == 'l' || c == 'L'

/-- What has been read of a token. -/
inductive Pattern where
  /-- Nothing yet. -/
  | start
  | word
  | blank
  /-- A carriage return, which only a line feed completes. -/
  | carriageReturn
  | lineEnd
  /-- An operator or a bracket, which a longer operator may extend. -/
  | operator (kind : Kind)
  /-- The first half of an operator that is written twice, such as `&`. -/
  | half (kind : Kind) (second : Char)
  /-- The mark in front of a string: `@` or `$`. -/
  | verbatimMark
  | interpolationMark
  | stringBody
  | stringEscape
  | verbatimBody
  /-- A quote in a verbatim string: its end, unless a second quote follows. -/
  | verbatimQuote
  | stringEnd
  /-- The quote that opens a character literal, which may not be empty. -/
  | charOpen
  | charBody
  | charEscape
  | charEnd
  /-- A single zero, after which `x` starts hexadecimal digits. -/
  | zero
  | digits
  | hexMark
  | hexDigits
  | unsignedSuffix
  | longSuffix
  | intEnd
  /-- A point after digits, which only a digit completes. -/
  | point
  | fraction
  | exponentMark
  | exponentSign
  | exponent
  | realEnd
  | lineComment
  | blockBody
  /-- A star in a comment, which takes the next character with it unless that is `/`. -/
  | blockStar
  | blockEnd
deriving DecidableEq, Repr

namespace Pattern

/-- The step from the start. -/
def first (c : Char) : Option Pattern :=
  if startsWord c then some .word
  else if c == '0' then some .zero
  else if c.isDigit then some .digits
  else match c with
    | ' ' | '\t' => some .blank
    | '\n' => some .lineEnd
    | '\r' => some .carriageReturn
    | '"' => some .stringBody
    | '@' => some .verbatimMark
    | '$' => some .interpolationMark
    | '\'' => some .charOpen
    | '&' => some (.half .ampAmp '&')
    | '|' => some (.half .pipePipe '|')
    | '(' => some (.operator .parenOpen)
    | ')' => some (.operator .parenClose)
    | '{' => some (.operator .braceOpen)
    | '}' => some (.operator .braceClose)
    | '[' => some (.operator .bracketOpen)
    | ']' => some (.operator .bracketClose)
    | ';' => some (.operator .semicolon)
    | ',' => some (.operator .comma)
    | '.' => some (.operator .dot)
    | ':' => some (.operator .colon)
    | '?' => some (.operator .question)
    | '=' => some (.operator .equals)
    | '!' => some (.operator .bang)
    | '+' => some (.operator .plus)
    | '-' => some (.operator .minus)
    | '*' => some (.operator .star)
    | '/' => some (.operator .slash)
    | '%' => some (.operator .percent)
    | '<' => some (.operator .lt)
    | '>' => some (.operator .gt)
    | _ => none

/-- What a complete operator becomes with one more character. -/
def extend : Kind → Char → Option Pattern
  | .question, '?' => some (.operator .questionQuestion)
  | .equals, '=' => some (.operator .eqEq)
  | .equals, '>' => some (.operator .fatArrow)
  | .bang, '=' => some (.operator .bangEq)
  | .plus, '=' => some (.operator .plusEq)
  | .plus, '+' => some (.operator .plusPlus)
  | .minus, '=' => some (.operator .minusEq)
  | .minus, '-' => some (.operator .minusMinus)
  | .lt, '=' => some (.operator .ltEq)
  | .gt, '=' => some (.operator .gtEq)
  | .slash, '/' => some .lineComment
  | .slash, '*' => some .blockBody
  | _, _ => none

/-- The step inside decimal digits, which may end in a suffix, a fraction or an exponent. -/
def afterDigit (c : Char) : Option Pattern :=
  if continuesDigits c then some .digits
  else if isUnsignedSuffix c then some .unsignedSuffix
  else if isLongSuffix c then some .longSuffix
  else if isRealSuffix c then some .realEnd
  else if c == '.' then some .point
  else if c == 'e' || c == 'E' then some .exponentMark
  else none

/-- The step after `quote` or a character of a quoted text: the text ends at the same
    quote, a backslash takes the next character with it, and no line end may come. -/
def quoted (quote : Char) (body escape finish : Pattern) (c : Char) : Option Pattern :=
  if c == quote then some finish
  else if c == '\\' then some escape
  else if c == '\n' then none
  else some body

/-- Reading one more character, or `none` when no pattern goes on with it. -/
def step : Pattern → Char → Option Pattern
  | .start, c => first c
  | .word, c => if continuesWord c then some .word else none
  | .blank, c => if c == ' ' || c == '\t' then some .blank else none
  | .carriageReturn, c => if c == '\n' then some .lineEnd else none
  | .operator kind, c => extend kind c
  | .half kind second, c => if c == second then some (.operator kind) else none
  | .verbatimMark, c => if c == '"' then some .verbatimBody else none
  | .interpolationMark, c => if c == '"' then some .stringBody else none
  | .stringBody, c => quoted '"' .stringBody .stringEscape .stringEnd c
  | .stringEscape, c => if c == '\n' then none else some .stringBody
  | .verbatimBody, c => if c == '"' then some .verbatimQuote else some .verbatimBody
  | .verbatimQuote, c => if c == '"' then some .verbatimBody else none
  | .charOpen, c => if c == '\'' then none else quoted '\'' .charBody .charEscape .charEnd c
  | .charBody, c => quoted '\'' .charBody .charEscape .charEnd c
  | .charEscape, c => if c == '\n' then none else some .charBody
  | .zero, c => if c == 'x' || c == 'X' then some .hexMark else afterDigit c
  | .digits, c => afterDigit c
  | .hexMark, c => if continuesHex c then some .hexDigits else none
  | .hexDigits, c =>
    if continuesHex c then some .hexDigits
    else if isUnsignedSuffix c then some .unsignedSuffix
    else if isLongSuffix c then some .longSuffix
    else none
  | .unsignedSuffix, c => if isLongSuffix c then some .intEnd else none
  | .longSuffix, c => if isUnsignedSuffix c then some .intEnd else none
  | .point, c => if c.isDigit then some .fraction else none
  | .fraction, c =>
    if continuesDigits c then some .fraction
    else if isRealSuffix c then some .realEnd
    else if c == 'e' || c == 'E' then some .exponentMark
    else none
  | .exponentMark, c =>
    if c == '+' || c == '-' then some .exponentSign
    else if c.isDigit then some .exponent
    else none
  | .exponentSign, c => if c.isDigit then some .exponent else none
  | .exponent, c =>
    if c.isDigit then some .exponent
    else if isRealSuffix c then some .realEnd
    else none
  | .lineComment, c => if c == '\n' then none else some .lineComment
  | .blockBody, c => if c == '*' then some .blockStar else some .blockBody
  | .blockStar, c => if c == '/' then some .blockEnd else some .blockBody
  | .lineEnd, _ | .stringEnd, _ | .charEnd, _ | .intEnd, _ | .realEnd, _ | .blockEnd, _ => none

/-- The kind of a text that has been read in full, or `none` when no pattern matches it. -/
def kind? : Pattern → String → Option Kind
  | .word, text => some ((Kind.reserved? text).getD .id)
  | .blank, _ => some .whitespace
  | .lineEnd, _ => some .newline
  | .operator kind, _ => some kind
  | .verbatimQuote, _ | .stringEnd, _ => some .stringLiteral
  | .charEnd, _ => some .charLiteral
  | .zero, _ | .digits, _ | .hexDigits, _ => some .intLiteral
  | .unsignedSuffix, _ | .longSuffix, _ | .intEnd, _ => some .intLiteral
  | .fraction, _ | .exponent, _ | .realEnd, _ => some .realLiteral
  | .lineComment, _ => some .lineComment
  | .blockEnd, _ => some .blockComment
  | _, _ => none

/-- Whether some pattern matches what has been read. -/
def isFinal (p : Pattern) : Bool := (p.kind? "").isSome

/-- No pattern matches the empty text. -/
theorem kind?_start (text : String) : kind? .start text = none := rfl

/-- Whether a pattern matches depends on the state alone, not on the text read. -/
theorem isSome_kind? (p : Pattern) (text : String) : (p.kind? text).isSome = p.isFinal := by
  cases p <;> rfl

end Pattern

end Syntax

end Nominal
