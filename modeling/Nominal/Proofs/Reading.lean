import Nominal.Proofs.Lossless

/-!
# Reading Without Mistakes

A run of the parser on a text without mistakes reports nothing and meets no limit. What is
left of it is a reading: the lexemes to come, the trees that were collected, and three
numbers. A reading stops with no result where a run would report something or would be
lost, and it does not count how often the next token is looked at.

Runs and readings go together in both directions. A run that ends without a report and
without being lost is a reading. A reading is a run, unless the next token is looked at too
often or there are not enough tokens left to take; then that is how the run ends. So what is
known of the parse of one text can be carried over to another text by following readings alone.

## Main definitions

* `Place`: Where a reading is.
* `Op.read`: What an operation does to a place.
* `Script.read`: The reading of a script.
* `readProduction`: The reading of a production.
* `State.IsClean`: Nothing has been reported and no limit has been met.
* `Outcome.Reaches`: A run ends quietly at a place, unless it gets stuck or runs out of tokens.

## Theorems

* `read_of_runProduction`: A run without mistakes is a reading.
* `runProduction_of_read`: A reading is a run, unless the run gets stuck or runs out of tokens.
-/

namespace Nominal

namespace Grammar

open Syntax (Kind Lexeme Tree)

/-- Where a reading is. -/
structure Place where
  /-- The lexemes to come. -/
  rest : List Lexeme
  /-- Trivia that has been stepped over and not been collected. -/
  pending : List Lexeme
  /-- The trees of the current group. -/
  output : List Tree
  /-- The level of nesting. -/
  depth : Nat
  /-- How many delimiters are open. -/
  opened : Nat
  /-- How many tokens may still be taken. -/
  fuel : Nat

namespace Place

/-- Sets the trivia aside that stands before the next token. -/
def skip (p : Place) : Place :=
  { p with
    rest := p.rest.dropWhile Lexeme.isTrivia
    pending := p.pending ++ p.rest.takeWhile Lexeme.isTrivia }

/-- Collects the trivia that was set aside. -/
def flush (p : Place) : Place :=
  { p with output := p.output ++ p.pending.map Tree.token, pending := [] }

/-- The kind of the lexeme to come, which is the next token once trivia is set aside. -/
def next? (p : Place) : Option Kind := p.rest.head?.map Lexeme.kind

/-- The kinds of the tokens to come. -/
def upcoming (p : Place) : List Kind := (p.rest.filter fun l => !l.isTrivia).map Lexeme.kind

end Place

/-- A step of a reading, which may have no result. -/
abbrev Reader (α : Type) := Place → Option (α × Place)

/-- What an operation does to a place. -/
def Op.read (limit : Option Nat) : (op : Op) → Reader op.Answer
  | .look, p => some (p.skip.next?, p.skip)
  | .ahead n, p => some (State.nth? n p.skip.rest, p.skip)
  | .upcoming, p => some (p.skip.upcoming, p.skip)
  | .word, p => some ((p.skip.rest.head?.map Lexeme.text).getD "", p.skip)
  | .atEnd, p | .exhausted, p => some (p.skip.rest.isEmpty, p.skip)
  | .skipTrivia, p => some ((), p.skip)
  | .keepTrivia, p => some ((), p.skip.flush)
  | .take, p =>
    match p.rest, p.fuel with
    | l :: ls, n + 1 =>
      some ((), { p.flush with
        rest := ls
        output := p.flush.output ++ [.token l]
        fuel := n })
    | _, _ => none
  | .require kind, p => if p.skip.next? = some kind then some ((), p.skip) else none
  | .report .., _ | .reportSemicolon, _ => none
  | .openDelimiter, p => some ((), { p.skip with opened := p.opened + 1 })
  | .closeDelimiter, p => some ((), { p with opened := p.opened - 1 })
  | .reportUnclosed _, p => if p.opened = 0 then some ((), p) else none
  | .enter, p => if limit.any (· ≤ p.depth) then none else some (true, { p with depth := p.depth + 1 })
  | .leave, p => some ((), { p with depth := p.depth - 1 })

/-- The place at which the body of a group starts. -/
def Grouping.enter (g : Grouping) (p : Place) : Place :=
  match g with
  | .node _ | .frame => { p.flush with output := [] }
  | .enclose _ => p

/-- The place behind a group that started at the place `outer`, if its body has ended at the
    place `inner`. -/
def Grouping.leave (g : Grouping) (outer inner : Place) : Place :=
  match g with
  | .node kind => { inner with output := outer.flush.output ++ [.node kind inner.output] }
  | .frame => { inner with output := outer.flush.output ++ inner.output }
  | .enclose kind => { inner with output := [.node kind inner.output] }

/-- Performs a step, at most `n` times, as long as it answers `true`. -/
def rounds {σ : Type} (step : σ → Reader (Bool × σ)) : Nat → σ → Reader σ
  | 0, _, _ => none
  | n + 1, x, p =>
    (step x p).bind fun r => if r.1.1 then rounds step n r.1.2 r.2 else some (r.1.2, r.2)

/-- The readings of the productions that a script may refer to. -/
abbrev Readers := (p : Production) → Reader p.Answer

/-- The reading of a script, given those of the productions that it refers to. -/
def Script.read (limit : Option Nat) (readers : Readers) {α : Type} : Script α → Reader α
  | .done a, p => some (a, p)
  | .step op next, p => (op.read limit p).bind fun r => (next r.1).read limit readers r.2
  | .group g body next, p =>
    (body.read limit readers (g.enter p)).bind fun r =>
      (next r.1).read limit readers (g.leave p r.2)
  | .loop body start next, p =>
    (rounds (fun x p => (body x).read limit readers p) (p.rest.length + 2) start p).bind fun r =>
      (next r.1).read limit readers r.2
  | .invoke q next, p => (readers q p).bind fun r => (next r.1).read limit readers r.2

/-- The reading of a production whose chains of references are shorter than `n`. -/
def readProduction (limit : Option Nat) : Nat → Readers
  | 0, _, _ => none
  | n + 1, q, p => q.script.read limit (readProduction limit n) p

/-! ### A run without mistakes is a reading -/

namespace State

/-- The place that a state is at. -/
def place (s : State) : Place where
  rest := s.rest
  pending := s.pending
  output := s.output
  depth := s.depth
  opened := s.delimiters.length
  fuel := s.fuel.getD 0

/-- Nothing has been reported and no limit has been met; the tokens are counted. -/
structure IsClean (s : State) : Prop where
  silent : s.diagnostics = []
  unreported : s.reportedAt = none
  running : s.lost = none
  counted : s.fuel.isSome

theorem place_skipTrivia (s : State) : s.skipTrivia.place = s.place.skip := rfl

theorem not_isClean_reportAt (s : State) (offset : Nat) (d : Diagnostic) :
    ¬(s.reportAt offset d).IsClean := by
  intro h
  unfold reportAt at h
  split at h
  · next hat => exact absurd (hat.symm.trans h.unreported) nofun
  · exact absurd h.unreported nofun

end State

variable {setting : Setting} {productions : Productions} {readers : Readers}

theorem isClean_takeLexeme {s : State} {l : Lexeme} {ls : List Lexeme}
    (h : (s.takeLexeme l ls).IsClean) : ∃ n, s.fuel = some (n + 1) ∧ s.IsClean := by
  rcases h with ⟨hsilent, hunreported, hrunning, hcounted⟩
  simp only [State.takeLexeme, State.flush, State.spend] at hsilent hunreported hrunning hcounted
  split at hrunning
  · next hfuel =>
      simp only [hfuel] at hcounted
      cases hcounted
  · next hfuel =>
      dsimp only at hrunning
      cases hlost : s.lost with
      | none => rw [hlost] at hrunning; cases hrunning
      | some e => rw [hlost] at hrunning; cases hrunning
  · next n hfuel =>
      simp only [hfuel] at hsilent hunreported hrunning
      exact ⟨n, hfuel, hsilent, hunreported, hrunning, by rw [hfuel]; rfl⟩

/-- What is clean behind an operation was clean before it, and the operation is a reading. -/
theorem read_of_run {op : Op} {s t : State} {a : op.Answer} (h : op.run setting s = .ok a t)
    (ht : t.IsClean) :
    s.IsClean ∧ op.read setting.depthLimit s.place = some (a, t.place) := by
  have hskip : s.skipTrivia.IsClean → s.IsClean := fun h => ⟨h.1, h.2, h.3, h.4⟩
  cases op with
  | look =>
      simp only [Op.run] at h
      split at h
      · cases h
      · cases h
        exact ⟨⟨ht.1, ht.2, ht.3, ht.4⟩, rfl⟩
  | require kind =>
      simp only [Op.run] at h
      split at h
      · cases h
      · split at h
        · next hkind =>
            cases h
            refine ⟨⟨ht.1, ht.2, ht.3, ht.4⟩, ?_⟩
            rw [Op.read, ← State.place_skipTrivia]
            exact if_pos hkind
        · cases h
  | atEnd =>
      cases h
      refine ⟨hskip ht, ?_⟩
      rw [ht.running, Option.isSome_none, Bool.or_false]
      rfl
  | take =>
      simp only [Op.run] at h
      split at h
      · cases h
      · next l ls hrest =>
          cases h
          rcases isClean_takeLexeme ht with ⟨n, hfuel, hs⟩
          refine ⟨hs, ?_⟩
          simp only [Op.read, State.place, hrest, hfuel, Option.getD_some, State.takeLexeme,
            State.flush, State.spend, Place.flush]
  | report kind detail =>
      simp only [Op.run] at h
      split at h
      · cases h
      · cases h
        exact absurd ht (State.not_isClean_reportAt _ _ _)
  | reportSemicolon =>
      simp only [Op.run] at h
      split at h
      · cases h
        exact absurd ht (State.not_isClean_reportAt _ _ _)
      · cases h
        exact absurd ht (State.not_isClean_reportAt _ _ _)
  | openDelimiter =>
      cases h
      exact ⟨⟨ht.1, ht.2, ht.3, ht.4⟩, rfl⟩
  | closeDelimiter =>
      cases h
      refine ⟨⟨ht.1, ht.2, ht.3, ht.4⟩, ?_⟩
      simp only [Op.read, State.place, List.length_tail]
  | reportUnclosed kind =>
      simp only [Op.run] at h
      split at h
      · next hdelimiters =>
          cases h
          refine ⟨ht, ?_⟩
          rw [Op.read]
          exact if_pos (by rw [State.place, hdelimiters, List.length_nil])
      · split at h
        · cases h
        · cases h
          exact absurd ht (State.not_isClean_reportAt _ _ _)
  | enter =>
      simp only [Op.run] at h
      split at h
      · cases h
        have hrunning := ht.running
        dsimp only at hrunning
        cases hlost : s.lost with
        | none => rw [hlost] at hrunning; cases hrunning
        | some e => rw [hlost] at hrunning; cases hrunning
      · next hdeep =>
          cases h
          refine ⟨⟨ht.1, ht.2, ht.3, ht.4⟩, ?_⟩
          rw [Op.read]
          exact if_neg hdeep
  | leave =>
      cases h
      exact ⟨⟨ht.1, ht.2, ht.3, ht.4⟩, rfl⟩
  | _ =>
      cases h
      exact ⟨hskip ⟨ht.1, ht.2, ht.3, ht.4⟩, rfl⟩

theorem place_begin (g : Grouping) (s : State) : (g.begin s).place = g.enter s.place := by
  cases g <;> rfl

theorem place_finish (g : Grouping) (s t : State) :
    (g.finish s t).place = g.leave s.place t.place := by
  cases g <;> rfl

theorem isClean_begin {g : Grouping} {s : State} (h : (g.begin s).IsClean) : s.IsClean := by
  cases g <;> exact ⟨h.1, h.2, h.3, h.4⟩

theorem isClean_finish {g : Grouping} {s t : State} (h : (g.finish s t).IsClean) : t.IsClean := by
  cases g <;> exact ⟨h.1, h.2, h.3, h.4⟩

/-- The steps that are readings wherever they end without a mistake. -/
def IsRead {α : Type} (run : State → Outcome α) (reader : Reader α) : Prop :=
  ∀ (s t : State) (a : α), run s = .ok a t → t.IsClean →
    s.IsClean ∧ reader s.place = some (a, t.place)

theorem read_of_iterate {σ : Type} {step : σ → State → Outcome (Bool × σ)}
    {reader : σ → Reader (Bool × σ)} (hstep : ∀ x, IsRead (step x) (reader x)) (n : Nat) (x : σ) :
    IsRead (iterate step n x) (rounds reader n x) := by
  induction n generalizing x with
  | zero =>
      intro s t y h _
      cases h
  | succ n ih =>
      intro s t y h ht
      rcases Outcome.andThen_eq_ok h with ⟨⟨again, z⟩, r, hround, hrest⟩
      cases again with
      | true =>
          rcases ih z r t y hrest ht with ⟨hr, hread⟩
          rcases hstep x s r _ hround hr with ⟨hs, hfirst⟩
          refine ⟨hs, ?_⟩
          rw [rounds, hfirst]
          exact hread
      | false =>
          simp only [Bool.false_eq_true, if_false] at hrest
          cases hrest
          rcases hstep x s t _ hround ht with ⟨hs, hfirst⟩
          refine ⟨hs, ?_⟩
          rw [rounds, hfirst]
          rfl

theorem read_of_exec (hproductions : ∀ q, IsRead (productions q) (readers q)) {α : Type}
    (x : Script α) :
    IsRead (x.exec setting productions) (x.read setting.depthLimit readers) := by
  induction x with
  | done a =>
      intro s t b h ht
      cases h
      exact ⟨ht, rfl⟩
  | step op next ih =>
      intro s t a h ht
      rcases Outcome.andThen_eq_ok h with ⟨b, r, hop, hnext⟩
      rcases ih b r t a hnext ht with ⟨hr, hread⟩
      rcases read_of_run hop hr with ⟨hs, hfirst⟩
      refine ⟨hs, ?_⟩
      rw [Script.read, hfirst]
      exact hread
  | group g body next ihBody ih =>
      intro s t a h ht
      rcases Outcome.andThen_eq_ok h with ⟨b, r, hbody, hnext⟩
      rcases ih b _ t a hnext ht with ⟨hr, hread⟩
      rcases ihBody _ r b hbody (isClean_finish hr) with ⟨hs, hfirst⟩
      refine ⟨isClean_begin hs, ?_⟩
      rw [place_begin] at hfirst
      rw [place_finish] at hread
      rw [Script.read, hfirst]
      exact hread
  | loop body start next ihBody ih =>
      intro s t a h ht
      rcases Outcome.andThen_eq_ok h with ⟨b, r, hloop, hnext⟩
      rcases ih b r t a hnext ht with ⟨hr, hread⟩
      rcases read_of_iterate ihBody _ _ s r b hloop hr with ⟨hs, hfirst⟩
      refine ⟨hs, ?_⟩
      rw [Script.read]
      exact (congrArg (Option.bind · _) hfirst).trans hread
  | invoke q next ih =>
      intro s t a h ht
      rcases Outcome.andThen_eq_ok h with ⟨b, r, hq, hnext⟩
      rcases ih b r t a hnext ht with ⟨hr, hread⟩
      rcases hproductions q s r b hq hr with ⟨hs, hfirst⟩
      refine ⟨hs, ?_⟩
      rw [Script.read, hfirst]
      exact hread

/-- A run of a production without mistakes is a reading. -/
theorem read_of_runProduction (n : Nat) (q : Production) :
    IsRead (runProduction setting n q) (readProduction setting.depthLimit n q) := by
  induction n generalizing q with
  | zero =>
      intro s t a h _
      cases h
  | succ n ih => exact read_of_exec ih q.script

/-! ### A reading is a run -/

namespace State

/-- Nothing has been reported and no limit has been met. -/
structure IsQuiet (s : State) : Prop where
  silent : s.diagnostics = []
  unreported : s.reportedAt = none
  running : s.lost = none

/-- The state is at a place. Where tokens are enough, it may be that more of them are left to
    take. -/
def IsAt (enough : Prop) (s : State) (p : Place) : Prop :=
  ∃ k, p = { s.place with fuel := k } ∧ (enough → ∀ n, s.fuel = some n → k ≤ n)

variable {enough : Prop}

theorem IsAt.rest {s : State} {p : Place} (h : s.IsAt enough p) : s.rest = p.rest := by
  rcases h with ⟨k, rfl, _⟩
  rfl

theorem IsAt.output {s : State} {p : Place} (h : s.IsAt enough p) : s.output = p.output := by
  rcases h with ⟨k, rfl, _⟩
  rfl

end State

namespace Outcome

/-- If a run ends, then lost, because there were more tokens than may be taken. -/
def RunsOut {α : Type} (o : Outcome α) : Prop := ∀ a t, o = .ok a t → t.lost = some .tokens

/-- A run ends quietly at a place, unless it gets stuck or, where tokens are not enough, runs out
    of them. -/
def Reaches {α : Type} (enough : Prop) (a : α) (q : Place) (o : Outcome α) : Prop :=
  o = .stuck ∨ (∃ t, o = .ok a t ∧ t.IsQuiet ∧ t.IsAt enough q) ∨ (¬enough ∧ o.RunsOut)

namespace Reaches

variable {α : Type} {enough : Prop} {a : α} {q : Place} {o : Outcome α}

theorem stuck : (Outcome.stuck : Outcome α).Reaches enough a q := .inl rfl

theorem ok {t : State} (ht : t.IsQuiet) (hat : t.IsAt enough q) :
    (Outcome.ok a t).Reaches enough a q :=
  .inr (.inl ⟨t, rfl, ht, hat⟩)

/-- What comes next goes on from where the first run ends; if that has run out of tokens, then
    so has what comes next. -/
theorem andThen {β : Type} {f : α → State → Outcome β} {b : β} {r : Place}
    (ho : o.Reaches enough a r)
    (hf : ∀ t : State, t.IsQuiet → t.IsAt enough r → (f a t).Reaches enough b q)
    (hstays : ∀ c {t u : State} {d : β}, f c t = .ok d u → t.lost = some .tokens →
      u.lost = some .tokens) : (o.andThen f).Reaches enough b q := by
  rcases ho with hstuck | ⟨t, hok, ht, hat⟩ | ⟨hshort, hout⟩
  · rw [hstuck]
    exact .stuck
  · rw [hok]
    exact hf t ht hat
  · refine .inr (.inr ⟨hshort, fun d u hu => ?_⟩)
    rcases Outcome.andThen_eq_ok hu with ⟨c, t, hok, hnext⟩
    exact hstays c hnext (hout c t hok)

end Reaches

end Outcome

variable {enough : Prop}

/-- A quiet state at the place of an operation runs it, unless the run gets stuck or runs out of
    tokens. -/
theorem run_of_read {op : Op} {s : State} {p q : Place} {a : op.Answer} (hs : s.IsQuiet)
    (hat : s.IsAt enough p) (h : op.read setting.depthLimit p = some (a, q)) :
    (op.run setting s).Reaches enough a q := by
  rcases hs with ⟨hsilent, hunreported, hrunning⟩
  rcases hat with ⟨k, rfl, hk⟩
  cases op with
  | look =>
      cases h
      simp only [Op.run]
      split
      · exact .stuck
      · exact .ok ⟨hsilent, hunreported, hrunning⟩ ⟨k, rfl, hk⟩
  | require kind =>
      simp only [Op.read] at h
      split at h
      · next hkind =>
          cases h
          simp only [Op.run]
          split
          · exact .stuck
          · rw [if_pos (show s.skipTrivia.next? = some kind from hkind)]
            exact .ok ⟨hsilent, hunreported, hrunning⟩ ⟨k, rfl, hk⟩
      · cases h
  | atEnd =>
      cases h
      rw [Op.run]
      rw [show s.skipTrivia.lost = none from hrunning, Option.isSome_none, Bool.or_false]
      exact .ok ⟨hsilent, hunreported, hrunning⟩ ⟨k, rfl, hk⟩
  | take =>
      simp only [Op.read, State.place] at h
      split at h
      · next l ls n hrest =>
          cases h
          rw [Op.run, hrest]
          dsimp only
          cases hfuel : s.fuel with
          | none =>
              refine .ok ?_ ⟨n, ?_, ?_⟩
              · simp only [State.takeLexeme, State.spend, State.flush, hfuel]
                exact ⟨hsilent, hunreported, hrunning⟩
              · simp only [State.takeLexeme, State.spend, State.flush, hfuel]
                rfl
              · simp only [State.takeLexeme, State.spend, State.flush, hfuel]
                exact fun _ _ hnone => by cases hnone
          | some m =>
              cases m with
              | zero =>
                  -- The reading takes one more token than the run may.
                  refine .inr (.inr ⟨fun henough => ?_, fun b t ht => ?_⟩)
                  · exact absurd (hk henough 0 hfuel) (Nat.not_succ_le_zero n)
                  · cases ht
                    simp only [State.takeLexeme, State.spend, State.flush, hfuel, hrunning]
                    rfl
              | succ m =>
                  refine .ok ?_ ⟨n, ?_, ?_⟩
                  · simp only [State.takeLexeme, State.spend, State.flush, hfuel]
                    exact ⟨hsilent, hunreported, hrunning⟩
                  · simp only [State.takeLexeme, State.spend, State.flush, hfuel]
                    rfl
                  · simp only [State.takeLexeme, State.spend, State.flush, hfuel]
                    intro henough i hi
                    cases hi
                    exact Nat.le_of_succ_le_succ (hk henough (m + 1) hfuel)
      · cases h
  | report | reportSemicolon => cases h
  | closeDelimiter =>
      cases h
      refine .ok ⟨hsilent, hunreported, hrunning⟩ ⟨k, ?_, hk⟩
      simp only [State.place, List.length_tail]
  | reportUnclosed kind =>
      simp only [Op.read] at h
      split at h
      · next hopened =>
          cases h
          rw [Op.run, List.length_eq_zero_iff.mp hopened]
          exact .ok ⟨hsilent, hunreported, hrunning⟩ ⟨k, rfl, hk⟩
      · cases h
  | enter =>
      simp only [Op.read] at h
      split at h
      · cases h
      · next hdeep =>
          cases h
          have hrun : Op.enter.run setting s = .ok true _ := if_neg hdeep
          rw [hrun]
          exact .ok ⟨hsilent, hunreported, hrunning⟩ ⟨k, rfl, hk⟩
  | _ =>
      cases h
      exact .ok ⟨hsilent, hunreported, hrunning⟩ ⟨k, rfl, hk⟩

/-- The readings that are runs, unless these get stuck or run out of tokens. -/
structure IsRun {α : Type} (enough : Prop) (run : State → Outcome α) (reader : Reader α) : Prop where
  reaches : ∀ {p q : Place} {a : α} {s : State}, reader p = some (a, q) → s.IsQuiet →
    s.IsAt enough p → (run s).Reaches enough a q
  /-- What has run out of tokens does not come by more. -/
  stays : ∀ {s t : State} {a : α}, run s = .ok a t → s.lost = some .tokens →
    t.lost = some .tokens

namespace IsRun

variable {α β : Type} {run : State → Outcome α} {reader : Reader α}
variable {f : α → State → Outcome β} {g : α → Reader β}

theorem bind (hrun : IsRun enough run reader) (hf : ∀ a, IsRun enough (f a) (g a)) :
    IsRun enough (fun s => (run s).andThen f) fun p => (reader p).bind fun r => g r.1 r.2 where
  reaches h hs hat := by
    rcases Option.bind_eq_some_iff.mp h with ⟨⟨a, r⟩, hfirst, hnext⟩
    exact (hrun.reaches hfirst hs hat).andThen (fun t ht hat => (hf a).reaches hnext ht hat)
      fun b => (hf b).stays
  stays h hs := by
    rcases Outcome.andThen_eq_ok h with ⟨a, t, hok, hu⟩
    exact (hf a).stays hu (hrun.stays hok hs)

end IsRun

theorem run_of_rounds {σ : Type} {step : σ → State → Outcome (Bool × σ)}
    {reader : σ → Reader (Bool × σ)} (hstep : ∀ x, IsRun enough (step x) (reader x)) (n : Nat)
    (x : σ) : IsRun enough (iterate step n x) (rounds reader n x) := by
  induction n generalizing x with
  | zero => exact ⟨nofun, nofun⟩
  | succ n ih =>
      refine IsRun.bind (hstep x) (f := fun r s => if r.1 then iterate step n r.2 s else .ok r.2 s)
        (g := fun r p => if r.1 then rounds reader n r.2 p else some (r.2, p)) fun r => ?_
      rcases r with ⟨again, z⟩
      cases again with
      | true => exact ih z
      | false =>
          refine ⟨fun h hs hat => ?_, fun h hs => ?_⟩
          · cases h
            exact .ok hs hat
          · cases h
            exact hs

theorem run_of_script (hreaders : ∀ q, IsRun enough (productions q) (readers q)) {α : Type}
    (x : Script α) :
    IsRun enough (x.exec setting productions) (x.read setting.depthLimit readers) := by
  have hstays : ∀ {β : Type} (y : Script β) {s t : State} {b : β},
      y.exec setting productions s = .ok b t → s.lost = some .tokens → t.lost = some .tokens :=
    fun y _ _ _ h => (relation_met setting .tokens).exec (fun {q _ _ _} => (hreaders q).stays) h
  induction x with
  | done a =>
      refine ⟨fun h hs hat => ?_, hstays _⟩
      cases h
      exact .ok hs hat
  | step op next ih =>
      exact IsRun.bind ⟨fun h hs hat => run_of_read hs hat h, lost_run⟩ ih
  | group g body next ihBody ih =>
      refine ⟨fun {p q a s} h hs hat => ?_, hstays _⟩
      rcases Option.bind_eq_some_iff.mp h with ⟨⟨b, r⟩, hbody, hnext⟩
      have hbegin : (g.begin s).IsQuiet := by cases g <;> exact ⟨hs.1, hs.2, hs.3⟩
      have henter : (g.begin s).IsAt enough (g.enter p) := by
        rcases hat with ⟨k, rfl, hk⟩
        cases g <;> exact ⟨k, rfl, hk⟩
      refine (ihBody.reaches hbody hbegin henter).andThen (fun t ht hr => ?_)
        fun c t u d hu ht => hstays (next c) hu (by cases g <;> exact ht)
      have hfinish : (g.finish s t).IsQuiet := by cases g <;> exact ⟨ht.1, ht.2, ht.3⟩
      refine (ih b).reaches hnext hfinish ?_
      rcases hat with ⟨k, rfl, hk⟩
      rcases hr with ⟨j, rfl, hj⟩
      cases g <;> exact ⟨j, rfl, hj⟩
  | loop body start next ihBody ih =>
      refine ⟨fun {p q a s} h hs hat => ?_, hstays _⟩
      rw [Script.exec, hat.rest]
      exact (IsRun.bind (run_of_rounds ihBody (p.rest.length + 2) start) ih).reaches h hs hat
  | invoke r next ih => exact (hreaders r).bind ih

/-- A reading of a production is a run of it, unless the run gets stuck or runs out of tokens. -/
theorem runProduction_of_read (n : Nat) (q : Production) :
    IsRun enough (runProduction setting n q) (readProduction setting.depthLimit n q) := by
  induction n generalizing q with
  | zero => exact ⟨nofun, nofun⟩
  | succ n ih => exact run_of_script ih q.script

end Grammar

end Nominal
