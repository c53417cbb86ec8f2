import Nominal.Extraction.Site
import Nominal.Diagnostic.Basic
import Nominal.Text.Template

/-!
# Findings

Each candidate site is an opportunity, and a finding reports it. How findings are worded
and how severe they are is up to a rule, so that whoever shows them may choose.

## Main definitions

* `Rule`: How findings are worded.
* `Rule.anonymousType`: The rule that holds when none is given.
* `Model.findings`: A finding for each candidate site.
-/

namespace Nominal

open Syntax (Tree)
open Text (Template.fill)

/-- How findings are worded. -/
structure Rule where
  id : String
  title : String
  category : String
  severity : Severity
  /-- The message for a variable, with a place for its name. -/
  declarationMessage : String
  /-- The message for any other site. -/
  usageMessage : String
  /-- What the proposed change is called. -/
  fixTitle : String
deriving DecidableEq, Repr

namespace Rule

/-- The rule that holds when none is given. -/
def anonymousType : Rule where
  id := "HX0001"
  title := "Anonymous type can be extracted"
  category := "Refactoring"
  severity := .info
  declarationMessage := "Variable '\x7b0\x7d' is an anonymous type"
  usageMessage := "Anonymous type used"
  fixTitle := "Extract type from anonymous declaration"

/-- The finding for a site. -/
def finding (rule : Rule) (s : Site) : Diagnostic :=
  let (kind, message) : Diagnostic.Kind × String :=
    match s.declarator with
    | some _ =>
      (.anonymousTypeDeclaration,
        Template.fill rule.declarationMessage (s.variableName?.getD ""))
    | none => (.anonymousTypeUsage, rule.usageMessage)
  { (Diagnostic.of kind s.focus).withDetail (some message) with
    severity := rule.severity
    code := some rule.id
    fix := some ⟨s.focus, none, rule.fixTitle⟩ }

end Rule

namespace Model

/-- A finding for each candidate site of a tree. -/
def findings (m : Model) (t : Tree) (rule : Rule) : List Diagnostic :=
  (m.sites t).map rule.finding

end Model

end Nominal
