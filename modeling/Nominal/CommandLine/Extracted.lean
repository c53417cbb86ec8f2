import Nominal.Document

/-!
# Extracting From a Text

Somebody who names a position means the type of the innermost object created there;
without a position the first type of the text is meant.

## Main definitions

* `Extracted`: The text after an extraction, and the name of the new type.
* `ExtractFailure`: Why there is none.
* `extractSource`: Extracting from a text.
-/

namespace Nominal

namespace CommandLine

open Text (Position)
open Grammar (ParseFailure)

/-- The text after an extraction, and the name of the new type. -/
structure Extracted where
  text : String
  typeName : String
deriving DecidableEq, Repr

/-- Why nothing was extracted. -/
inductive ExtractFailure where
  | parse (failure : ParseFailure)
  /-- The text has no such position. -/
  | outside (position : Position)
  | refused (refusal : Refusal)

/-- Why there is no tree of a source, in words. -/
def parseFailureMessage : ParseFailure → String
  | .exceeded limit => limit.message
  | .stuck => "parser is stuck: too many lookaheads"
  | .broken _ => "parser is broken"

namespace ExtractFailure

/-- A failure in words. -/
def message : ExtractFailure → String
  | parse failure => parseFailureMessage failure
  | outside position => s!"position {position.render} is outside the source"
  | refused refusal =>
    if refusal.isOutOfPlace then "fix not applicable: " ++ refusal.message else refusal.message

end ExtractFailure

/-- The extraction at a position of a document, or else the first one. -/
def extractionAt (d : Document) (position : Option Position) (request : Request) :
    Except ExtractFailure Extraction :=
  match position with
  | none => (d.extract request).mapError .refused
  | some p =>
    match p.offset? d.source with
    | none => .error (.outside p)
    | some offset => (d.extractAt offset request).mapError .refused

/-- Extracts one type from a text: at a position, or else the first one. -/
def extractSource (source : String) (position : Option Position) (request : Request) :
    Except ExtractFailure Extracted := do
  let d ← (Document.parse source).mapError .parse
  let e ← extractionAt d position request
  return ⟨e.text, e.typeName⟩

end CommandLine

end Nominal
