import Nominal.Document
import Nominal.Diagnostic.Filter
import Nominal.Diagnostic.Report
import Nominal.Text.Json

/-!
# The Report of a Check

A check lists the mistakes in a source and the findings for it, by place. For other
programs the list is written as JSON, with the name of the source and the rule in front.

## Main definitions

* `Document.check`: Mistakes and findings by place.
* `checkReport`: The report for other programs.
-/

namespace Nominal

open Text (Json Position)

namespace Document

/-- The mistakes in a document and the findings of a rule, by place. -/
def check (d : Document) (rule : Rule) : List Diagnostic :=
  Diagnostic.sorted (d.diagnostics ++ d.findings rule)

end Document

namespace CommandLine

/-- A position for other programs. -/
def positionJson (p : Position) : Json :=
  .object [("line", .number p.line), ("column", .number p.column)]

/-- A member for a text, if there is one. -/
def memberIfGiven (key : String) (text : Option String) : List (String × Json) :=
  (text.map fun t => (key, Json.text t)).toList

/-- A report for other programs. -/
def reportJson (r : Report) : Json :=
  .object ([("severity", .text r.severity.name)] ++ memberIfGiven "code" r.code
    ++ [("message", .text r.message), ("start", positionJson r.start),
        ("end", positionJson r.stop)]
    ++ memberIfGiven "fix" r.fix)

/-- Diagnostics about a source for other programs, with the name of the source and the
    rule in front. -/
def checkReport (name source : String) (rule : Rule) (ds : List Diagnostic) : Json :=
  .object [("source", .text name),
    ("rule", .object [("id", .text rule.id), ("title", .text rule.title),
      ("category", .text rule.category)]),
    ("errors", .number (ds.countP Diagnostic.isError)),
    ("diagnostics", .list (ds.map fun d => reportJson (Report.of source d)))]

end CommandLine

end Nominal
