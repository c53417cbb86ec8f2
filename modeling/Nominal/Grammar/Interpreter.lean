import Nominal.Grammar.State

/-!
# Running a Script

A script is run operation by operation. What is left open is what a production does that
the script refers to by name; it is a parameter of `Script.exec`, and tying the knot is
left to the caller. So a fact about all runs of a script needs an assumption about the
productions it names and no induction over the depth of the nesting.

Every loop of the grammar takes a token in each round but the last ones. A loop is run
for at most as many rounds as there are lexemes to come, and two more; being cut off by
this bound is a fault.

## Main definitions

* `iterate`: Performing a step again, a bounded number of times.
* `Script.exec`: Running a script, given what the named productions do.
-/

namespace Nominal

namespace Grammar

namespace Outcome

/-- Goes on with the answer and the state, if there are any. -/
@[inline] def andThen {α β : Type} (o : Outcome α) (f : α → State → Outcome β) : Outcome β :=
  match o with
  | ok a s => f a s
  | stuck => stuck
  | broken fault => broken fault

end Outcome

/-- Performs a step, at most `n` times, as long as it answers `true`. -/
def iterate {σ : Type} (step : σ → State → Outcome (Bool × σ)) :
    Nat → σ → State → Outcome σ
  | 0, _, _ => .broken .endlessLoop
  | n + 1, x, s =>
    (step x s).andThen fun r s =>
      if r.1 then iterate step n r.2 s else .ok r.2 s

/-- The state in which the body of a group starts. -/
def Grouping.begin (g : Grouping) (s : State) : State :=
  match g with
  | .node _ | .frame => { s.flush with output := [] }
  | .enclose _ => s

/-- The state behind a group that started in the state `outer`, if its body has ended in
    the state `inner`. -/
def Grouping.finish (g : Grouping) (outer inner : State) : State :=
  match g with
  | .node kind => { inner with output := outer.flush.output ++ [.node kind inner.output] }
  | .frame => { inner with output := outer.flush.output ++ inner.output }
  | .enclose kind => { inner with output := [.node kind inner.output] }

/-- What every production does that a script may refer to. -/
abbrev Productions := (p : Production) → State → Outcome p.Answer

/-- Runs a script, given what the productions do that it refers to. -/
def Script.exec (setting : Setting) (productions : Productions) {α : Type} :
    Script α → State → Outcome α
  | .done a, s => .ok a s
  | .step op next, s => (op.run setting s).andThen fun a s => (next a).exec setting productions s
  | .group g body next, s =>
    (body.exec setting productions (g.begin s)).andThen fun b inner =>
      (next b).exec setting productions (g.finish s inner)
  | .loop body start next, s =>
    (iterate (fun x s => (body x).exec setting productions s) (s.rest.length + 2) start s).andThen
      fun x s => (next x).exec setting productions s
  | .invoke p next, s =>
    (productions p s).andThen fun a s => (next a).exec setting productions s

end Grammar

end Nominal
