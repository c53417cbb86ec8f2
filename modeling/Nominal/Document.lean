import Nominal.Extraction.Plan
import Nominal.Extraction.Finding
import Nominal.Grammar.Parse

/-!
# Documents

A document is a source text together with what is known of it: its tree, its model, and
the mistakes found in it. An extraction gives a new text, and the new text is a document
of its own. Extracting everything goes from document to document until no type is left
that can be extracted.

## Main definitions

* `Document`: A source text and what is known of it.
* `Document.parse`: The document of a source text.
* `Document.extract`: Extracting the first type.
* `Document.extractAt`: Extracting the type at an offset.
* `Document.fixAll`: Extracting every type that can be extracted.
-/

namespace Nominal

open Syntax (Tree)
open Nominal.Types (TypeId)
open Grammar (ParseFailure)

/-- A source text and what is known of it. -/
structure Document where
  source : String
  tree : Tree
  model : Model
  /-- Mistakes of form, then mistakes of meaning. -/
  diagnostics : List Diagnostic
  /-- How many tokens were counted against the limit. -/
  taken : Nat

/-- What extracting everything gives. -/
structure FixAll where
  text : String
  /-- The names of the new types in the order in which they were extracted. -/
  typeNames : List String
deriving DecidableEq, Repr

namespace Document

/-- The document of a source text. -/
def parse (source : String) : Except ParseFailure Document := do
  let parsed ← Grammar.parse source
  let (model, mistakes) := Model.ofTree parsed.tree
  return ⟨source, parsed.tree, model, parsed.diagnostics ++ mistakes, parsed.taken⟩

/-- The candidate sites, in the order of the text. -/
def sites (d : Document) : List Site := d.model.sites d.tree

/-- A finding for each candidate site. -/
def findings (d : Document) (rule : Rule) : List Diagnostic := d.model.findings d.tree rule

/-- Extracts the type of the first candidate site. -/
def extract (d : Document) (request : Request) : Except Refusal Extraction :=
  match d.sites with
  | [] => .error .noSite
  | first :: _ => d.model.extract d.tree first.type request

/-- Extracts the type of the innermost candidate site at an offset. -/
def extractAt (d : Document) (offset : Nat) (request : Request) : Except Refusal Extraction :=
  d.model.extractAt d.tree offset request

/-- The types of the candidate sites, each once, in the order of the text. -/
def targets (d : Document) : List TypeId := (d.sites.map Site.type).eraseDups

/-- The extraction of the first type that can be extracted. -/
def extractNext? (d : Document) (request : Request) : Option Extraction :=
  d.targets.findSome? fun t => (d.model.extract d.tree t request).toOption

/-- How extracting everything may fail. -/
inductive FixFailure where
  /-- A text that came out cannot be parsed. -/
  | parse (failure : ParseFailure)
  /-- There seemed to be no end. -/
  | endless

/-- Extracts one type after the other, at most `n` of them. -/
def fixUpTo (request : Request) : Nat → Document → Except FixFailure FixAll
  | 0, _ => .error .endless
  | n + 1, d =>
    match d.extractNext? request with
    | none => .ok ⟨d.source, []⟩
    | some e =>
      match parse e.text with
      | .error failure => .error (.parse failure)
      | .ok next =>
        (fixUpTo request n next).map fun f => { f with typeNames := e.typeName :: f.typeNames }

/-- Extracts every type that can be extracted, one at a time. Every extraction adds tokens
    to the text, so the bound is met only by texts that are too long to be parsed. -/
def fixAll (d : Document) (request : Request) : Except FixFailure FixAll :=
  fixUpTo request (Grammar.defaultLimits.tokens.getD 0 + 1) d

end Document

end Nominal
