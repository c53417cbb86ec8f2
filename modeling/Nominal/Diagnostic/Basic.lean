import Nominal.Diagnostic.Kind
import Nominal.Text.Span

/-!
# Diagnostics

A diagnostic says what is wrong at some span of a text, or what could be done there. Next
to the span that is shown it carries the span it may hide other diagnostics in, which is
wider where a mistake spoils all that follows it.

## Main definitions

* `Fix`: A proposed change.
* `Diagnostic`: One message about a span.
* `Diagnostic.of`: A diagnostic of a kind with what follows from the kind alone.
* `Diagnostic.render`: A diagnostic on one line.
-/

namespace Nominal

open Text (Span)

/-- A proposed change. Where the new text has to be computed first there is only a
    description. -/
structure Fix where
  span : Span
  replacement : Option String
  description : String
deriving DecidableEq, Repr

/-- A remark about another span that a diagnostic refers to. -/
structure Related where
  span : Span
  message : String
deriving DecidableEq, Repr

/-- One message about a span of a text. -/
structure Diagnostic where
  kind : Diagnostic.Kind
  /-- The span that is shown. -/
  span : Span
  /-- The span in which other diagnostics may be hidden by this one. -/
  suppression : Span
  message : String
  severity : Severity
  /-- The rule that a finding belongs to. -/
  code : Option String
  fix : Option Fix
  related : List Related
deriving DecidableEq, Repr

namespace Diagnostic

/-- A diagnostic of a kind with what follows from the kind alone. -/
def of (kind : Kind) (span : Span) : Diagnostic :=
  ⟨kind, span, span, kind.fallback, kind.severity, none, none, []⟩

/-- A diagnostic of a kind with a detail in its message, if there is one. -/
def withDetail (d : Diagnostic) (detail : Option String) : Diagnostic :=
  { d with message := d.kind.message detail }

/-- A diagnostic on one line, spans given by offsets. -/
def render (d : Diagnostic) : String :=
  s!"{d.severity.name} at {d.span.start}..{d.span.stop}: {d.message}"
    ++ (match d.code with
      | some code => s!" [{code}]"
      | none => "")
    ++ (match d.fix with
      | some fix => s!" (fix: {fix.description})"
      | none => "")
    ++ String.join
      (d.related.map fun r => s!" (related: {r.message} at {r.span.start}..{r.span.stop})")

/-- The lines of several diagnostics as one text. -/
def renderAll (ds : List Diagnostic) : String := "\n".intercalate (ds.map render)

/-- Whether a diagnostic reports a mistake. -/
def isError (d : Diagnostic) : Bool := d.severity == .error

/-- Whether a diagnostic is a warning. -/
def isWarning (d : Diagnostic) : Bool := d.severity == .warning

end Diagnostic

end Nominal
