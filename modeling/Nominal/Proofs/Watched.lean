import Nominal.Proofs.Lossless
import Nominal.Proofs.Bare

/-!
# Watched Runs

The interpreter lets two things pass that a parser should not do. It takes whatever lexeme
comes next, also a piece of trivia that nobody has set aside, and it gives every loop a
number of rounds, however the loop makes use of them. `Script.watch` is the interpreter with
an eye on both: taking trivia is a fault, and so is a round that asks for another one without
having got any further.

Watching changes nothing but that. Where a watched run has no fault, it ends as the run does
that nobody watches. So it is enough to show of watched runs that they have no fault, and
what such a run keeps may be shown with the knowledge that only tokens are taken.

## Main definitions

* `State.tokensLeft`: How many tokens are to come.
* `State.furthers`: Whether a run has got further from one state to another.
* `Script.watch`: Running a script with an eye on it.
* `watchProduction`: What a production does, watched.
* `watchFile`: The run of a whole file, watched.
* `Keeps`: A property of states that no watched operation destroys.

## Theorems

* `watch_refines`: A watched run has a fault or ends as the run does.
* `Keeps.watch`: What the operations keep, a watched run keeps.
* `Keeps.watchProduction`: And so does a production.
-/

namespace Nominal

namespace Grammar

open Syntax (Kind Lexeme Tree)

variable {setting : Setting} {productions watched : Productions}

/-- How many tokens are to come. -/
def State.tokensLeft (s : State) : Nat := s.upcoming.length

/-- Whether a run has got further from one state to another: it has taken a token, or it has
    met a limit. -/
def State.furthers (s t : State) : Bool :=
  decide (t.tokensLeft < s.tokensLeft) || (s.lost.isNone && t.lost.isSome)

/-- How a round of a loop ends that led from `s` to `t`. -/
def watchRound {σ : Type} (s : State) (round : Bool × σ) (t : State) : Outcome (Bool × σ) :=
  if round.1 && !s.furthers t then .broken .endlessLoop else .ok round t

/-- What an operation does, watched. -/
def Op.watch (setting : Setting) (op : Op) (s : State) : Outcome op.Answer :=
  match op with
  | .take => if s.rest.head?.any Lexeme.isTrivia then .broken .takeAtEnd else Op.take.run setting s
  | op => op.run setting s

/-- Runs a script with an eye on it, given what the productions do that it refers to. -/
def Script.watch (setting : Setting) (watched : Productions) {α : Type} :
    Script α → State → Outcome α
  | .done a, s => .ok a s
  | .step op next, s => (op.watch setting s).andThen fun a s => (next a).watch setting watched s
  | .group g body next, s =>
    (body.watch setting watched (g.begin s)).andThen fun b inner =>
      (next b).watch setting watched (g.finish s inner)
  | .loop body start next, s =>
    (iterate (fun x s => ((body x).watch setting watched s).andThen (watchRound s))
      (s.rest.length + 2) start s).andThen fun x s => (next x).watch setting watched s
  | .invoke p next, s =>
    (watched p s).andThen fun a s => (next a).watch setting watched s

/-- What a production does, watched, whose chains of references are shorter than `n`. -/
def watchProduction (setting : Setting) : Nat → Productions
  | 0, _, _ => .broken .endlessCalls
  | n + 1, p, s => p.script.watch setting (watchProduction setting n) s

/-- What the run of a whole file comes to. -/
def Outcome.result (limits : Limits) : Outcome Unit → Except ParseFailure Parsed
  | .ok _ s => s.result limits
  | .stuck => .error .stuck
  | .broken fault => .error (.broken fault)

/-- The run of a whole file. -/
def runFile (limits : Limits) (lexemes : List Lexeme) : Outcome Unit :=
  let setting : Setting := ⟨limits.depth, Lexeme.widthOf lexemes⟩
  fileScript.exec setting (runProduction setting (levels * (lexemes.length + 1)))
    (State.initial limits lexemes)

/-- The run of a whole file, watched. -/
def watchFile (limits : Limits) (lexemes : List Lexeme) : Outcome Unit :=
  let setting : Setting := ⟨limits.depth, Lexeme.widthOf lexemes⟩
  fileScript.watch setting (watchProduction setting (levels * (lexemes.length + 1)))
    (State.initial limits lexemes)

theorem parseLexemes_eq (limits : Limits) (lexemes : List Lexeme) :
    parseLexemes limits lexemes = (runFile limits lexemes).result limits := by
  rw [parseLexemes, runFile]
  cases Script.exec _ _ fileScript _ <;> rfl

/-! ### One script after another -/

theorem watch_andThen {α β : Type} (x : Script α) (f : α → Script β) (s : State) :
    (x.andThen f).watch setting watched s =
      (x.watch setting watched s).andThen fun a s => (f a).watch setting watched s := by
  induction x generalizing s with
  | done a => rfl
  | step op next ih => simp only [Script.andThen, Script.watch, ih, Outcome.andThen_assoc]
  | group g body next _ ih => simp only [Script.andThen, Script.watch, ih, Outcome.andThen_assoc]
  | loop body start next _ ih =>
      simp only [Script.andThen, Script.watch, ih, Outcome.andThen_assoc]
  | invoke p next ih => simp only [Script.andThen, Script.watch, ih, Outcome.andThen_assoc]

theorem watch_bind {α β : Type} (x : Script α) (f : α → Script β) (s : State) :
    (x >>= f).watch setting watched s =
      (x.watch setting watched s).andThen fun a s => (f a).watch setting watched s :=
  watch_andThen x f s

theorem watch_perform (op : Op) (s : State) :
    (Script.perform op).watch setting watched s = op.watch setting s := by
  simp only [Script.perform, Script.watch]
  cases op.watch setting s <;> rfl

theorem watch_call (p : Production) (s : State) :
    (Script.call p).watch setting watched s = watched p s := by
  simp only [Script.call, Script.watch]
  cases watched p s <;> rfl

/-! ### A watched run is a run -/

/-- An outcome is a fault or the same as another. -/
def Outcome.Refines {α : Type} (o o' : Outcome α) : Prop := o = o' ∨ ∃ fault, o = .broken fault

namespace Outcome.Refines

variable {α β : Type}

theorem refl (o : Outcome α) : o.Refines o := .inl rfl

theorem broken (fault : Fault) (o : Outcome α) : (Outcome.broken fault).Refines o :=
  .inr ⟨fault, rfl⟩

theorem andThen {o o' : Outcome α} {f f' : α → State → Outcome β} (ho : o.Refines o')
    (hf : ∀ a s, (f a s).Refines (f' a s)) : (o.andThen f).Refines (o'.andThen f') := by
  rcases ho with rfl | ⟨fault, rfl⟩
  · cases o with
    | ok a s => exact hf a s
    | stuck => exact refl _
    | broken fault => exact refl _
  · exact broken fault _

/-- What is no fault is the same. -/
theorem eq {o o' : Outcome α} (h : o.Refines o') (ho : ∀ fault, o ≠ .broken fault) : o' = o := by
  rcases h with rfl | ⟨fault, hfault⟩
  · rfl
  · exact absurd hfault (ho fault)

theorem iterate {σ : Type} {step step' : σ → State → Outcome (Bool × σ)}
    (hstep : ∀ x s, (step x s).Refines (step' x s)) (n : Nat) (x : σ) (s : State) :
    (Grammar.iterate step n x s).Refines (Grammar.iterate step' n x s) := by
  induction n generalizing x s with
  | zero => exact refl _
  | succ n ih =>
      refine (hstep x s).andThen fun r t => ?_
      split
      · exact ih r.2 t
      · exact refl _

end Outcome.Refines

theorem run_refines (op : Op) (s : State) : (op.watch setting s).Refines (op.run setting s) := by
  cases op with
  | take =>
      rw [Op.watch]
      split
      · exact .broken _ _
      · exact .refl _
  | _ => exact .refl _

theorem run_of_watch {op : Op} {s t : State} {a : op.Answer} (h : op.watch setting s = .ok a t) :
    op.run setting s = .ok a t := by
  have hrefines : (op.watch setting s).Refines (op.run setting s) := run_refines op s
  rw [h] at hrefines
  exact hrefines.eq fun fault hfault => by cases hfault

theorem watchRound_refines {σ : Type} (s : State) {o o' : Outcome (Bool × σ)} (h : o.Refines o') :
    (o.andThen (watchRound s)).Refines o' := by
  rcases h with rfl | ⟨fault, rfl⟩
  · cases o with
    | ok r t =>
        rw [Outcome.andThen_ok, watchRound]
        split
        · exact .broken _ _
        · exact .refl _
    | stuck => exact .refl _
    | broken fault => exact .refl _
  · exact .broken fault _

/-- A watched run has a fault or ends as the run does that nobody watches. -/
theorem watch_refines (hp : ∀ p s, (watched p s).Refines (productions p s)) {α : Type}
    (x : Script α) (s : State) :
    (x.watch setting watched s).Refines (x.exec setting productions s) := by
  induction x generalizing s with
  | done a => exact .refl _
  | step op next ih => exact (run_refines op s).andThen fun a t => ih a t
  | group g body next ihBody ih => exact (ihBody _).andThen fun b t => ih b _
  | loop body start next ihBody ih =>
      refine Outcome.Refines.andThen ?_ fun y t => ih y t
      exact .iterate (fun x s => watchRound_refines s (ihBody x s)) _ _ _
  | invoke p next ih => exact (hp p s).andThen fun a t => ih a t

theorem watchProduction_refines (n : Nat) (p : Production) (s : State) :
    (watchProduction setting n p s).Refines (runProduction setting n p s) := by
  induction n generalizing p s with
  | zero => exact .refl _
  | succ n ih => exact watch_refines ih p.script s

theorem watchFile_refines (limits : Limits) (lexemes : List Lexeme) :
    (watchFile limits lexemes).Refines (runFile limits lexemes) :=
  watch_refines (watchProduction_refines _) fileScript _

/-! ### What watched runs keep -/

/-- The next lexeme, if there is one, is no trivia. -/
def State.IsSettled (s : State) : Prop := ∀ l ∈ s.rest.head?, l.isTrivia = false

/-- Setting trivia aside hides no token. -/
@[simp]
theorem bare_skipTrivia (s : State) : Lexeme.bare s.skipTrivia.rest = Lexeme.bare s.rest := by
  have hsplit := List.takeWhile_append_dropWhile (p := Lexeme.isTrivia) (l := s.rest)
  have hnone : Lexeme.bare (s.rest.takeWhile Lexeme.isTrivia) = [] :=
    Lexeme.bare_eq_nil (List.all_eq_true.mp List.all_takeWhile)
  have hbare := congrArg Lexeme.bare hsplit
  rwa [Lexeme.bare_append, hnone, List.nil_append] at hbare

@[simp]
theorem upcoming_skipTrivia (s : State) : s.skipTrivia.upcoming = s.upcoming :=
  congrArg (List.map Lexeme.kind) (bare_skipTrivia s)

theorem isSettled_skipTrivia (s : State) : s.skipTrivia.IsSettled := by
  intro l hl
  have hnot := List.head?_dropWhile_not Lexeme.isTrivia s.rest
  rw [show (s.rest.dropWhile Lexeme.isTrivia).head? = some l from hl] at hnot
  simpa using hnot

/-- Nothing is skipped where the next token has been reached. -/
theorem State.IsSettled.rest_skipTrivia {s : State} (h : s.IsSettled) :
    s.skipTrivia.rest = s.rest := by
  rw [State.skipTrivia]
  cases hrest : s.rest with
  | nil => rfl
  | cons l ls =>
      have hl : l.isTrivia = false := h l (by rw [hrest]; rfl)
      exact List.dropWhile_cons_of_neg (by rw [hl]; exact Bool.false_ne_true)

/-- What a watched take comes upon: a token. -/
theorem watch_take_ok {s t : State} {u : Unit} (h : Op.take.watch setting s = .ok u t) :
    ∃ l ls, s.rest = l :: ls ∧ l.isTrivia = false ∧ t = s.takeLexeme l ls := by
  rw [Op.watch] at h
  split at h
  · cases h
  · next htrivia =>
      simp only [Op.run] at h
      split at h
      · cases h
      · next l ls hrest =>
          cases h
          rw [hrest] at htrivia
          exact ⟨l, ls, hrest, Bool.eq_false_iff.mpr htrivia, rfl⟩

/-- A property of states that no watched operation destroys, and that has nothing to do with
    how trees are grouped. -/
structure Keeps (setting : Setting) (I : State → Prop) : Prop where
  op (op : Op) {s t : State} {a : op.Answer} : op.watch setting s = .ok a t → I s → I t
  begin (g : Grouping) {s : State} : I s → I (g.begin s)
  finish (g : Grouping) (outer : State) {inner : State} : I inner → I (g.finish outer inner)

namespace Keeps

variable {I : State → Prop}

theorem iterate {σ : Type} {step : σ → State → Outcome (Bool × σ)}
    (hstep : ∀ {x s r t}, step x s = .ok r t → I s → I t) {n : Nat} {x y : σ} {s t : State}
    (h : Grammar.iterate step n x s = .ok y t) (hs : I s) : I t := by
  refine iterate_chain (R := fun s t => I s → I t) ?_ hstep h hs
  intro r s t hrs hst hr
  exact hst (hrs hr)

/-- What the operations keep, a watched run keeps. -/
theorem watch (hI : Keeps setting I) (hp : ∀ {p s a t}, watched p s = .ok a t → I s → I t)
    {α : Type} {x : Script α} {s t : State} {a : α} (h : x.watch setting watched s = .ok a t)
    (hs : I s) : I t := by
  induction x generalizing s t with
  | done a =>
      cases h
      exact hs
  | step op next ih =>
      rcases Outcome.andThen_eq_ok h with ⟨b, r, hop, hnext⟩
      exact ih b hnext (hI.op op hop hs)
  | group g body next ihBody ih =>
      rcases Outcome.andThen_eq_ok h with ⟨b, r, hbody, hnext⟩
      exact ih b hnext (hI.finish g s (ihBody hbody (hI.begin g hs)))
  | loop body start next ihBody ih =>
      rcases Outcome.andThen_eq_ok h with ⟨b, r, hloop, hnext⟩
      refine ih b hnext (iterate ?_ hloop hs)
      intro x q round q' hround hq
      rcases Outcome.andThen_eq_ok hround with ⟨c, u, hbody, hwatch⟩
      rw [watchRound] at hwatch
      split at hwatch
      · cases hwatch
      · cases hwatch
        exact ihBody x hbody hq
  | invoke p next ih =>
      rcases Outcome.andThen_eq_ok h with ⟨b, r, hcall, hnext⟩
      exact ih b hnext (hp hcall hs)

/-- What the operations keep, a watched production keeps. -/
theorem watchProduction (hI : Keeps setting I) {n : Nat} {p : Production} {s t : State}
    {a : p.Answer} (h : watchProduction setting n p s = .ok a t) (hs : I s) : I t := by
  induction n generalizing p s t with
  | zero => cases h
  | succ n ih => exact hI.watch ih h hs

end Keeps

end Grammar

end Nominal
