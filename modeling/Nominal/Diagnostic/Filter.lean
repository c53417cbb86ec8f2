import Nominal.Diagnostic.Basic

/-!
# Hiding Cascading Diagnostics

One mistake often causes several diagnostics. A diagnostic hides another one in two
cases. Where its suppression span starts before the other and covers it, the kind with
priority wins. Where both start at the same offset, something left out hides a delimiter
that is never closed, whatever their priorities are, and otherwise the kind with priority
wins again. Findings hide nothing and are never hidden.

The diagnostics are gone through in their order, and only one that is still shown hides
others. So the order matters: a diagnostic may hide others before it is hidden itself.

## Main definitions

* `Diagnostic.hides`: Whether a diagnostic hides another one.
* `Diagnostic.filtered`: The diagnostics that stay shown.
* `Diagnostic.sorted`: Diagnostics by the place they refer to.

## Theorems

* `Diagnostic.not_hides_self`: No diagnostic hides itself.
-/

namespace Nominal

namespace Diagnostic

/-- Whether `a` hides `b` because it covers `b` and its kind has priority. -/
def hidesWithin (a b : Diagnostic) : Bool :=
  a.suppression.reachesOver b.span && a.kind.suppresses b.kind

/-- Whether `a` hides `b` because they start at the same offset. -/
def hidesAtStart (a b : Diagnostic) : Bool :=
  a.span.start == b.span.start
    && (a.kind.isRootCause && b.kind.isStructural
      || !(a.kind.isStructural && b.kind.isRootCause) && a.kind.suppresses b.kind)

/-- Whether `a`, while it is shown, hides `b`. -/
def hides (a b : Diagnostic) : Bool :=
  !a.kind.isFinding && !b.kind.isFinding && (a.hidesWithin b || a.hidesAtStart b)

/-- No diagnostic hides itself. -/
theorem not_hides_self (d : Diagnostic) : d.hides d = false := by
  rcases d with ⟨kind, span, suppression, message, severity, code, fix, related⟩
  cases kind <;> simp [hides, hidesWithin, hidesAtStart, Kind.not_suppresses_self,
    Kind.isRootCause, Kind.isStructural]

/-- Lets the diagnostic at an index, if it is still shown, hide others. -/
def strike (marks : List (Diagnostic × Bool)) (index : Nat) : List (Diagnostic × Bool) :=
  match marks[index]? with
  | some (a, true) => marks.map fun m => (m.1, m.2 && !a.hides m.1)
  | _ => marks

/-- Every diagnostic with a mark that tells whether it stays shown. -/
def marked (ds : List Diagnostic) : List (Diagnostic × Bool) :=
  (List.range ds.length).foldl strike (ds.map fun d => (d, true))

/-- The diagnostics that stay shown. -/
def filtered (ds : List Diagnostic) : List Diagnostic :=
  ((marked ds).filter Prod.snd).map Prod.fst

/-- Whether `a` may stand before `b` when diagnostics are listed by place. -/
def placedBefore (a b : Diagnostic) : Bool :=
  if a.span.start = b.span.start then
    if a.span.stop = b.span.stop then decide (a.kind.rank ≤ b.kind.rank)
    else decide (a.span.stop < b.span.stop)
  else decide (a.span.start < b.span.start)

/-- Diagnostics by the place they refer to, then by priority; equals keep their order. -/
def sorted (ds : List Diagnostic) : List Diagnostic := ds.mergeSort placedBefore

end Diagnostic

end Nominal
