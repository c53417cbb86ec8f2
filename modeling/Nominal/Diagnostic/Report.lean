import Nominal.Diagnostic.Basic
import Nominal.Text.Position

/-!
# Reports

A report is a diagnostic for other programs: its span is given by lines and columns, and
of a fix only the description is told.

## Main definitions

* `Report`: A diagnostic with positions in place of offsets.
* `Report.of`: The report of a diagnostic about a source text.
-/

namespace Nominal

open Text (Position)

/-- A diagnostic with positions in place of offsets. -/
structure Report where
  severity : Severity
  code : Option String
  message : String
  start : Position
  stop : Position
  fix : Option String
deriving DecidableEq, Repr

namespace Report

/-- The report of a diagnostic about a source text. -/
def of (source : String) (d : Diagnostic) : Report where
  severity := d.severity
  code := d.code
  message := d.message
  start := Position.of source d.span.start
  stop := Position.of source d.span.stop
  fix := d.fix.map Fix.description

end Report

end Nominal
