import Nominal.Grammar.Parse

/-!
# Runs of Scripts

What every run of the parser has in common, whichever productions it goes through.

A script is built from operations, groups, loops and references by name, and the
interpreter treats each of the four in one place. So a relation between the state before
and the state after holds of all runs as soon as it holds of the operations, of the two
ends of a group, and is kept by running one thing after another. No production has to be
looked at for that. `Relation` collects these conditions, and `Relation.runProduction`
is the induction over the nesting of productions that goes with them.

Loops need one fact more than that. A loop ends because the last round answered that it
is over, so what is true of that round is true of the state behind the loop. This is
`exec_repeatWhile_last`.

## Main definitions

* `Acts`: What an operation makes of a state.
* `Moves`: How an operation moves the lexemes.
* `Relation`: What a relation between states has to satisfy to hold of every run.

## Theorems

* `exec_andThen`: One script after another runs in turn.
* `exec_repeatWhile_last`: A loop ends with a round that answered so.
* `acts_run`: Every operation that does not fail acts in one of these ways.
* `moves_run`: Every operation moves the lexemes in one of four ways.
* `Relation.exec`: Such a relation holds of every run of a script.
* `Relation.runProduction`: Such a relation holds of every run of a production.
-/

namespace Nominal

namespace Grammar

open Syntax (Kind Lexeme Tree)
open Text (Span)

variable {setting : Setting} {productions : Productions}

@[simp]
theorem Outcome.andThen_ok {α β : Type} (a : α) (s : State) (f : α → State → Outcome β) :
    (ok a s).andThen f = f a s :=
  rfl

theorem Outcome.andThen_eq_ok {α β : Type} {o : Outcome α} {f : α → State → Outcome β}
    {b : β} {t : State} (h : o.andThen f = .ok b t) :
    ∃ a s, o = .ok a s ∧ f a s = .ok b t := by
  cases o with
  | ok a s => exact ⟨a, s, rfl, h⟩
  | stuck => cases h
  | broken fault => cases h

theorem Outcome.andThen_assoc {α β γ : Type} (o : Outcome α) (f : α → State → Outcome β)
    (g : β → State → Outcome γ) :
    (o.andThen f).andThen g = o.andThen fun a s => (f a s).andThen g := by
  cases o <;> rfl

/-- One script after another runs in turn. -/
theorem exec_andThen {α β : Type} (x : Script α) (f : α → Script β) (s : State) :
    (x.andThen f).exec setting productions s =
      (x.exec setting productions s).andThen fun a s => (f a).exec setting productions s := by
  induction x generalizing s with
  | done a => rfl
  | step op next ih => simp only [Script.andThen, Script.exec, ih, Outcome.andThen_assoc]
  | group g body next _ ih => simp only [Script.andThen, Script.exec, ih, Outcome.andThen_assoc]
  | loop body start next _ ih => simp only [Script.andThen, Script.exec, ih, Outcome.andThen_assoc]
  | invoke p next ih => simp only [Script.andThen, Script.exec, ih, Outcome.andThen_assoc]

theorem exec_bind {α β : Type} (x : Script α) (f : α → Script β) (s : State) :
    (x >>= f).exec setting productions s =
      (x.exec setting productions s).andThen fun a s => (f a).exec setting productions s :=
  exec_andThen x f s

theorem exec_perform (op : Op) (s : State) :
    (Script.perform op).exec setting productions s = op.run setting s := by
  simp only [Script.perform, Script.exec]
  cases op.run setting s <;> rfl

theorem exec_atEnd (s : State) :
    Script.atEnd.exec setting productions s =
      .ok (s.skipTrivia.rest.isEmpty || s.skipTrivia.lost.isSome) s.skipTrivia :=
  exec_perform .atEnd s

theorem exec_call (p : Production) (s : State) :
    (Script.call p).exec setting productions s = productions p s := by
  simp only [Script.call, Script.exec]
  cases productions p s <;> rfl

/-- A script that does something and then answers `b` has no other answer. -/
theorem exec_then_answer {α β : Type} {x : Script α} {b c : β} {s t : State}
    (h : (x >>= fun _ => pure b).exec setting productions s = .ok c t) : c = b := by
  rw [exec_bind] at h
  rcases Outcome.andThen_eq_ok h with ⟨_, _, _, hpure⟩
  cases hpure
  rfl

/-- A loop ends with a round that answered so. -/
theorem iterate_last {σ : Type} {step : σ → State → Outcome (Bool × σ)} {n : Nat} {x y : σ}
    {s t : State} (h : iterate step n x s = .ok y t) :
    ∃ z r, step z r = .ok (false, y) t := by
  induction n generalizing x s with
  | zero => cases h
  | succ n ih =>
      rcases Outcome.andThen_eq_ok h with ⟨⟨again, z⟩, r, hstep, hrest⟩
      cases again with
      | true => exact ih hrest
      | false =>
          simp only [Bool.false_eq_true, if_false] at hrest
          cases hrest
          exact ⟨x, s, hstep⟩

/-- A loop without a value of its own ends with a round that answered so. -/
theorem exec_repeatWhile_last {body : Script Bool} {s t : State} {u : Unit}
    (h : (Script.repeatWhile body).exec setting productions s = .ok u t) :
    ∃ r, body.exec setting productions r = .ok false t := by
  rcases Outcome.andThen_eq_ok h with ⟨_, _, hloop, hdone⟩
  cases hdone
  rcases iterate_last hloop with ⟨_, r, hround⟩
  rw [exec_andThen] at hround
  rcases Outcome.andThen_eq_ok hround with ⟨_, _, hbody, hanswer⟩
  cases hanswer
  exact ⟨r, hbody⟩

/-- What holds of every round of a loop and can be chained holds of the loop. -/
theorem iterate_chain {R : State → State → Prop}
    (htrans : ∀ {s t u : State}, R s t → R t u → R s u) {σ : Type}
    {step : σ → State → Outcome (Bool × σ)}
    (hstep : ∀ {x s r t}, step x s = .ok r t → R s t) {n : Nat} {x y : σ} {s t : State}
    (h : iterate step n x s = .ok y t) : R s t := by
  induction n generalizing x s with
  | zero => cases h
  | succ n ih =>
      rcases Outcome.andThen_eq_ok h with ⟨⟨again, z⟩, r, hround, hrest⟩
      have hfirst := hstep hround
      cases again with
      | true => exact htrans hfirst (ih hrest)
      | false =>
          simp only [Bool.false_eq_true, if_false] at hrest
          cases hrest
          exact hfirst

/-- An operation that sets trivia aside to see what comes, and does nothing else. -/
def Op.glances : Op → Bool
  | .look | .ahead _ | .upcoming | .word | .atEnd | .exhausted | .skipTrivia | .require _ => true
  | _ => false

/-- What an operation that does not fail makes of the state `s`. -/
inductive Acts (setting : Setting) (s : State) : Op → State → Prop where
  /-- Trivia is set aside, and the look may be counted. -/
  | glance {op : Op} (hop : op.glances = true) (looks : Nat) :
    Acts setting s op { s.skipTrivia with looks := looks }
  | keep : Acts setting s .keepTrivia s.skipTrivia.flush
  | take {l : Lexeme} {ls : List Lexeme} (hrest : s.rest = l :: ls) :
    Acts setting s .take (s.takeLexeme l ls)
  | report {kind : Diagnostic.Kind} {detail : Option String} :
    Acts setting s (.report kind detail)
      (s.skipTrivia.reportAt (s.skipTrivia.nextSpan setting).start
        { (Diagnostic.of kind (s.skipTrivia.nextSpan setting)).withDetail detail with
          suppression := s.skipTrivia.suppression setting (s.skipTrivia.nextSpan setting) })
  | semicolonBehind {offset : Nat} (hlast : s.lastEnd = some offset) :
    Acts setting s .reportSemicolon (s.reportAt offset (missingSemicolon offset))
  | semicolonAhead :
    Acts setting s .reportSemicolon
      (s.skipTrivia.reportAt (s.skipTrivia.nextSpan setting).start
        (missingSemicolon (s.skipTrivia.nextSpan setting).start))
  | opening :
    Acts setting s .openDelimiter
      { s.skipTrivia with
        delimiters := s.skipTrivia.nextSpan setting :: s.skipTrivia.delimiters }
  | closing : Acts setting s .closeDelimiter { s with delimiters := s.delimiters.tail }
  | noneOpen {kind : Diagnostic.Kind} : Acts setting s (.reportUnclosed kind) s
  | unclosed {kind : Diagnostic.Kind} {opening : Span} {outer : List Span} {next : Span}
    (hopened : s.delimiters = opening :: outer)
    (hnext : next = { s with delimiters := outer }.skipTrivia.nextSpan setting)
    (hordered : opening.start ≤ next.stop) :
    Acts setting s (.reportUnclosed kind)
      ({ s with delimiters := outer }.skipTrivia.reportAt next.start
        (unclosedDelimiter kind ⟨opening.start, next.stop⟩ opening))
  | tooDeep : Acts setting s .enter { s with lost := s.lost <|> some .depth }
  | deeper : Acts setting s .enter { s with depth := s.depth + 1, looks := maxLooks }
  | back : Acts setting s .leave { s with depth := s.depth - 1, looks := maxLooks }

/-- Every operation that does not fail acts in this way. -/
theorem acts_run {op : Op} {s t : State} {a : op.Answer} (h : op.run setting s = .ok a t) :
    Acts setting s op t := by
  cases op with
  | look =>
      simp only [Op.run] at h
      split at h
      · cases h
      · next n _ =>
          cases h
          exact .glance rfl n
  | require kind =>
      simp only [Op.run] at h
      split at h
      · cases h
      · next n _ =>
          split at h
          · cases h
            exact .glance rfl n
          · cases h
  | keepTrivia =>
      cases h
      exact .keep
  | take =>
      simp only [Op.run] at h
      split at h
      · cases h
      · next l ls hrest =>
          cases h
          exact .take hrest
  | report kind detail =>
      simp only [Op.run] at h
      split at h
      · cases h
      · cases h
        exact .report
  | reportSemicolon =>
      simp only [Op.run] at h
      split at h
      · next offset hlast =>
          cases h
          exact .semicolonBehind hlast
      · cases h
        exact .semicolonAhead
  | openDelimiter =>
      cases h
      exact .opening
  | closeDelimiter =>
      cases h
      exact .closing
  | reportUnclosed kind =>
      simp only [Op.run] at h
      split at h
      · cases h
        exact .noneOpen
      · next opening outer hopened =>
          split at h
          · cases h
          · next hordered =>
              cases h
              exact .unclosed hopened rfl (Nat.le_of_not_lt hordered)
  | enter =>
      simp only [Op.run] at h
      split at h
      · cases h
        exact .tooDeep
      · cases h
        exact .deeper
  | leave =>
      cases h
      exact .back
  | _ =>
      cases h
      exact .glance rfl s.looks

/-- How an operation moves the lexemes: it leaves them where they are, sets trivia aside,
    collects that trivia, or collects the next lexeme behind what was set aside. -/
inductive Moves (s t : State) : Prop where
  | stay : t.output = s.output → t.pending = s.pending → t.rest = s.rest → Moves s t
  | skip : t.output = s.output → t.pending = s.skipTrivia.pending →
    t.rest = s.skipTrivia.rest → Moves s t
  | keep : t.output = s.skipTrivia.flush.output → t.pending = [] →
    t.rest = s.skipTrivia.rest → Moves s t
  | take (l : Lexeme) (ls : List Lexeme) : s.rest = l :: ls →
    t.output = s.flush.output ++ [.token l] → t.pending = [] → t.rest = ls → Moves s t

theorem output_spend (s : State) : s.spend.output = s.output := by
  unfold State.spend
  split <;> rfl

theorem pending_spend (s : State) : s.spend.pending = s.pending := by
  unfold State.spend
  split <;> rfl

theorem moves_reportAt {r s : State} (offset : Nat) (d : Diagnostic) (h : Moves r s) :
    Moves r (s.reportAt offset d) := by
  unfold State.reportAt
  split
  · exact h
  · cases h with
    | stay ho hp hr => exact .stay ho hp hr
    | skip ho hp hr => exact .skip ho hp hr
    | keep ho hp hr => exact .keep ho hp hr
    | take l ls hs ho hp hr => exact .take l ls hs ho hp hr

theorem moves_takeLexeme {s : State} {l : Lexeme} {ls : List Lexeme} (h : s.rest = l :: ls) :
    Moves s (s.takeLexeme l ls) := by
  refine .take l ls h ?_ rfl rfl
  simp only [State.takeLexeme, State.flush, output_spend, pending_spend]

/-- Every operation moves the lexemes in one of these ways. -/
theorem moves_run {op : Op} {s t : State} {a : op.Answer} (h : op.run setting s = .ok a t) :
    Moves s t := by
  cases acts_run h with
  | keep => exact .keep rfl rfl rfl
  | take hrest => exact moves_takeLexeme hrest
  | glance | opening => exact .skip rfl rfl rfl
  | report | semicolonAhead | unclosed => exact moves_reportAt _ _ (.skip rfl rfl rfl)
  | semicolonBehind => exact moves_reportAt _ _ (.stay rfl rfl rfl)
  | _ => exact .stay rfl rfl rfl

/-- An operation collects tokens and nothing else. -/
theorem output_run {op : Op} {s t : State} {a : op.Answer} (h : op.run setting s = .ok a t) :
    ∃ ls : List Lexeme, t.output = s.output ++ ls.map .token := by
  cases moves_run h with
  | stay ho => exact ⟨[], by rw [ho, List.map_nil, List.append_nil]⟩
  | skip ho => exact ⟨[], by rw [ho, List.map_nil, List.append_nil]⟩
  | keep ho => exact ⟨s.skipTrivia.pending, ho⟩
  | take l ls _ ho => exact ⟨s.pending ++ [l], by rw [ho, State.flush, List.map_append,
      List.append_assoc, List.map_singleton]⟩

theorem rest_of_next {s : State} {k : Kind} (h : s.next? = some k) :
    ∃ l ls, s.rest = l :: ls ∧ l.kind = k := by
  rw [State.next?, Option.map_eq_some_iff] at h
  rcases h with ⟨l, hl, hk⟩
  rcases List.head?_eq_some_iff.mp hl with ⟨ls, hrest⟩
  exact ⟨l, ls, hrest, hk⟩

theorem exec_look {s t : State} {k : Option Kind}
    (h : Script.look.exec setting productions s = .ok k t) :
    k = s.skipTrivia.next? ∧ t.output = s.output ∧ t.pending = s.skipTrivia.pending ∧
      t.rest = s.skipTrivia.rest := by
  rw [Script.look, exec_perform] at h
  simp only [Op.run] at h
  split at h
  · cases h
  · cases h
    exact ⟨rfl, rfl, rfl, rfl⟩

theorem exec_require {kind : Kind} {s t : State} {u : Unit}
    (h : (Script.perform (.require kind)).exec setting productions s = .ok u t) :
    s.skipTrivia.next? = some kind ∧ t.output = s.output ∧ t.pending = s.skipTrivia.pending ∧
      t.rest = s.skipTrivia.rest := by
  rw [exec_perform] at h
  simp only [Op.run] at h
  split at h
  · cases h
  · split at h
    · next hkind =>
        cases h
        exact ⟨hkind, rfl, rfl, rfl⟩
    · cases h

theorem exec_take {s t : State} {u : Unit}
    (h : Script.take.exec setting productions s = .ok u t) :
    ∃ l, s.rest = l :: t.rest ∧ t.output = s.flush.output ++ [.token l] ∧ t.pending = [] := by
  rw [Script.take, exec_perform] at h
  simp only [Op.run] at h
  split at h
  · cases h
  · next l ls hrest =>
      cases h
      refine ⟨l, hrest, ?_, rfl⟩
      simp only [State.takeLexeme, State.flush, output_spend, pending_spend]

/-- What a relation between the state before a run and the state behind it has to satisfy
    to hold of every run. -/
structure Relation (setting : Setting) (R : State → State → Prop) : Prop where
  refl (s : State) : R s s
  trans {s t u : State} : R s t → R t u → R s u
  op (op : Op) {s t : State} {a : op.Answer} : op.run setting s = .ok a t → R s t
  /-- What holds of the body of a group holds of the group. -/
  group (g : Grouping) {s t : State} : R (g.begin s) t → R s (g.finish s t)

namespace Relation

variable {R : State → State → Prop}

/-- Such a relation holds of every run of a script. -/
theorem exec (hR : Relation setting R)
    (hproductions : ∀ {p s a t}, productions p s = .ok a t → R s t) {α : Type}
    {x : Script α} {s t : State} {a : α} (h : x.exec setting productions s = .ok a t) : R s t := by
  induction x generalizing s t with
  | done a =>
      cases h
      exact hR.refl s
  | step op next ih =>
      rcases Outcome.andThen_eq_ok h with ⟨b, r, hop, hnext⟩
      exact hR.trans (hR.op op hop) (ih b hnext)
  | group g body next ihBody ih =>
      rcases Outcome.andThen_eq_ok h with ⟨b, r, hbody, hnext⟩
      exact hR.trans (hR.group g (ihBody hbody)) (ih b hnext)
  | loop body start next ihBody ih =>
      rcases Outcome.andThen_eq_ok h with ⟨b, r, hloop, hnext⟩
      have hround : R s r := iterate_chain (R := R) hR.trans (fun {z _ _ _} h => ihBody z h) hloop
      exact hR.trans hround (ih b hnext)
  | invoke p next ih =>
      rcases Outcome.andThen_eq_ok h with ⟨b, r, hp, hnext⟩
      exact hR.trans (hproductions hp) (ih b hnext)

/-- Such a relation holds of every run of a production. -/
theorem runProduction (hR : Relation setting R) {n : Nat} {p : Production} {s t : State}
    {a : p.Answer} (h : runProduction setting n p s = .ok a t) : R s t := by
  induction n generalizing p s t with
  | zero => cases h
  | succ n ih => exact hR.exec ih h

end Relation

end Grammar

end Nominal
