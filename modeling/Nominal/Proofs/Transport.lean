import Nominal.Proofs.Splice

/-!
# Following a Reading in an Altered Text

The reading of a text is carried over to the text after an extraction from its end
backwards. At the end nothing is left to read, and the trees are known: they are those of
the first reading, altered. Each step back takes off both collections what the step has
collected. The lexemes of the second text come to light on the way, which is how the place
is found at which the second reading has to start.

`Follows` says that a script can be carried over in this way, and there is one rule for
each way in which scripts are put together. Delimiters are counted along: a script tells
how many have to be open before it and how many are open behind it. So a reading never
closes a delimiter that it has not opened.

## Main definitions

* `Course`: Two readings, and what the extraction between them adds.
* `Course.Linked`: Two places that correspond.
* `Follows`: A script can be carried over.
* `Course.IsFollowed`: The productions that are referred to can be carried over.

## Theorems

* `read_total`: A reading keeps all lexemes.
* `Follows.bind`: One script after another.
* `Follows.group_node`: A group that makes a node of its own.
* `Follows.group_enclose`: A group that wraps what was collected before it.
* `Follows.repeatWhile`: A loop goes on for as many rounds.
-/

namespace Nominal

namespace Grammar

open Syntax (Kind KindSet Lexeme Tree)

/-! ### Readings of scripts -/

section Reading

variable {limit : Option Nat} {readers : Readers} {α β : Type}

theorem read_andThen (x : Script α) (f : α → Script β) (p : Place) :
    (x.andThen f).read limit readers p =
      (x.read limit readers p).bind fun r => (f r.1).read limit readers r.2 := by
  induction x generalizing p with
  | done a => rfl
  | step op next ih => simp only [Script.andThen, Script.read, ih, Option.bind_assoc]
  | group g body next _ ih => simp only [Script.andThen, Script.read, ih, Option.bind_assoc]
  | loop body start next _ ih => simp only [Script.andThen, Script.read, ih, Option.bind_assoc]
  | invoke q next ih => simp only [Script.andThen, Script.read, ih, Option.bind_assoc]

theorem read_bind (x : Script α) (f : α → Script β) (p : Place) :
    (x >>= f).read limit readers p =
      (x.read limit readers p).bind fun r => (f r.1).read limit readers r.2 :=
  read_andThen x f p

/-- What one script and another one behind it read. -/
theorem read_bind_some {x : Script α} {f : α → Script β} {p q : Place} {b : β}
    (h : (x >>= f).read limit readers p = some (b, q)) :
    ∃ a r, x.read limit readers p = some (a, r) ∧ (f a).read limit readers r = some (b, q) := by
  rw [read_bind] at h
  rcases Option.bind_eq_some_iff.mp h with ⟨⟨a, r⟩, hx, hf⟩
  exact ⟨a, r, hx, hf⟩

theorem read_pure (a : α) (p : Place) : (pure a : Script α).read limit readers p = some (a, p) :=
  rfl

theorem read_perform (op : Op) (p : Place) :
    (Script.perform op).read limit readers p = op.read limit p := by
  simp only [Script.perform, Script.read]
  cases op.read limit p <;> rfl

theorem read_call (q : Production) (p : Place) :
    (Script.call q).read limit readers p = readers q p := by
  simp only [Script.call, Script.read]
  cases readers q p <;> rfl

/-- More rounds than are needed do no harm. -/
theorem rounds_mono {σ : Type} {step : σ → Reader (Bool × σ)} {m n : Nat} (hn : n ≤ m) {x : σ}
    {p : Place} {r : σ × Place} (h : rounds step n x p = some r) : rounds step m x p = some r := by
  induction n generalizing m x p with
  | zero => cases h
  | succ n ih =>
      cases m with
      | zero => exact absurd hn (Nat.not_succ_le_zero n)
      | succ m =>
          rw [rounds] at h ⊢
          rcases Option.bind_eq_some_iff.mp h with ⟨⟨⟨again, y⟩, q⟩, hstep, hrest⟩
          rw [hstep]
          cases again with
          | true => exact ih (Nat.le_of_succ_le_succ hn) hrest
          | false => exact hrest

end Reading

/-- All lexemes of a reading: those collected, those set aside, and those to come. -/
def Place.total (p : Place) : List Lexeme := Tree.leavesOf p.output ++ (p.pending ++ p.rest)

theorem total_skip (p : Place) : p.skip.total = p.total := by
  rw [Place.total, Place.skip, List.append_assoc, List.takeWhile_append_dropWhile]
  rfl

theorem total_flush (p : Place) : p.flush.total = p.total := by
  rw [Place.total, Place.flush, Tree.leavesOf_append, Tree.leavesOf_map_token, List.nil_append,
    List.append_assoc]
  rfl

/-- The readers that keep all lexemes. -/
def KeepsTotal {α : Type} (x : Reader α) : Prop :=
  ∀ (p q : Place) (a : α), x p = some (a, q) → q.total = p.total

theorem total_op (limit : Option Nat) (op : Op) : KeepsTotal (op.read limit) := by
  intro p q a h
  cases op with
  | take =>
      simp only [Op.read] at h
      split at h
      · next l ls n hrest hfuel =>
          cases h
          rw [Place.total, Place.total, Tree.leavesOf_append, Place.flush, Tree.leavesOf_append,
            Tree.leavesOf_map_token, hrest, List.nil_append, List.append_assoc, List.append_assoc]
          rfl
      · cases h
  | require =>
      simp only [Op.read] at h
      split at h
      · cases h
        exact total_skip p
      · cases h
  | report | reportSemicolon => cases h
  | reportUnclosed =>
      simp only [Op.read] at h
      split at h
      · cases h
        rfl
      · cases h
  | enter =>
      simp only [Op.read] at h
      split at h
      · cases h
      · cases h
        rfl
  | closeDelimiter | leave =>
      cases h
      rfl
  | keepTrivia =>
      cases h
      rw [total_flush, total_skip]
  | openDelimiter =>
      cases h
      exact total_skip p
  | _ =>
      cases h
      exact total_skip p

theorem total_rounds {σ : Type} {step : σ → Reader (Bool × σ)} (h : ∀ x, KeepsTotal (step x))
    (n : Nat) (x : σ) : KeepsTotal (rounds step n x) := by
  induction n generalizing x with
  | zero => exact fun _ _ _ h => nomatch h
  | succ n ih =>
      intro p q y hrun
      rw [rounds] at hrun
      rcases Option.bind_eq_some_iff.mp hrun with ⟨⟨⟨again, z⟩, r⟩, hstep, hrest⟩
      cases again with
      | true => exact (ih z r q y hrest).trans (h x p r _ hstep)
      | false =>
          cases hrest
          exact h x p _ _ hstep

theorem total_leave (g : Grouping) {p q : Place} (h : q.total = (g.enter p).total) :
    (g.leave p q).total = p.total := by
  have hflush := total_flush p
  have hpending : p.flush.pending = [] := rfl
  cases g with
  | node kind =>
      rw [← hflush, Place.total, Place.total, Grouping.leave, Tree.leavesOf_append, hpending,
        List.append_assoc, List.nil_append]
      simp only [Place.total, Grouping.enter, hpending, Tree.leavesOf, Tree.leaves,
        List.nil_append, List.append_nil] at h ⊢
      rw [h]
  | frame =>
      rw [← hflush, Place.total, Place.total, Grouping.leave, Tree.leavesOf_append, hpending,
        List.append_assoc, List.nil_append]
      simp only [Place.total, Grouping.enter, hpending, Tree.leavesOf, List.nil_append] at h ⊢
      rw [h]
  | enclose kind =>
      rw [Place.total] at h ⊢
      simp only [Grouping.leave, Tree.leavesOf, Tree.leaves, List.append_nil]
      exact h

theorem total_script {limit : Option Nat} {readers : Readers} (h : ∀ q, KeepsTotal (readers q))
    {α : Type} (x : Script α) : KeepsTotal (x.read limit readers) := by
  induction x with
  | done a =>
      intro p q b hrun
      cases hrun
      rfl
  | step op next ih =>
      intro p q a hrun
      rcases Option.bind_eq_some_iff.mp hrun with ⟨⟨b, r⟩, hop, hnext⟩
      exact (ih b r q a hnext).trans (total_op limit op p r b hop)
  | group g body next ihBody ih =>
      intro p q a hrun
      rcases Option.bind_eq_some_iff.mp hrun with ⟨⟨b, r⟩, hbody, hnext⟩
      exact (ih b _ q a hnext).trans (total_leave g (ihBody _ r b hbody))
  | loop body start next ihBody ih =>
      intro p q a hrun
      rcases Option.bind_eq_some_iff.mp hrun with ⟨⟨b, r⟩, hloop, hnext⟩
      exact (ih b r q a hnext).trans (total_rounds ihBody _ _ p r b hloop)
  | invoke s next ih =>
      intro p q a hrun
      rcases Option.bind_eq_some_iff.mp hrun with ⟨⟨b, r⟩, hs, hnext⟩
      exact (ih b r q a hnext).trans (h s p r b hs)

/-- A reading keeps all lexemes. -/
theorem read_total (limit : Option Nat) (n : Nat) (q : Production) :
    KeepsTotal (readProduction limit n q) := by
  induction n generalizing q with
  | zero => exact fun _ _ _ h => nomatch h
  | succ n ih => exact total_script ih q.script

/-! ### Two readings -/

/-- Two readings, and what the extraction between them adds. -/
structure Course where
  limit : Option Nat
  /-- The productions before the extraction. -/
  before : Readers
  /-- The productions behind it. -/
  behind : Readers
  edit : Edit
  /-- How many tokens the first reading does not take. -/
  left : Nat
  /-- How many lexemes more the second reading has to come at least. -/
  slack : Nat

/-- How trees of the first reading correspond to trees of the second one. -/
abbrev TreeRelation := List Tree → List Tree → Prop

/-- How lexemes to come correspond. -/
abbrev LexemeRelation := List Lexeme → List Lexeme → Prop

namespace Course

/-- Two places that correspond, with some relation between the lexemes to come. The second
    reading needs as many tokens more as it is ahead. -/
structure LinkedBy (c : Course) (R : LexemeRelation) (O : TreeRelation) (p p' : Place) : Prop where
  rest : R p.rest p'.rest
  pending : p'.pending = p.pending
  output : O p.output p'.output
  depth : p'.depth = p.depth
  opened : p'.opened = p.opened
  fuel : p'.fuel + (kindsOf p.rest).length + c.left = p.fuel + (kindsOf p'.rest).length
  ahead : p.rest.length + c.slack ≤ p'.rest.length

/-- Two places that correspond. -/
abbrev Linked (c : Course) (O : TreeRelation) : Place → Place → Prop :=
  c.LinkedBy (Spliced c.edit) O

/-- Trees as they are altered. -/
abbrev Trees (c : Course) (items : Bool) : TreeRelation := Altered c.edit items

end Course

/-- A relation between trees that leaves tokens alone. -/
def Peels (O : TreeRelation) : Prop :=
  ∀ (ts : List Tree) (ls : List Lexeme) (us : List Tree), O (ts ++ ls.map .token) us →
    ∃ vs, us = vs ++ ls.map .token ∧ O ts vs

theorem peels_trees (c : Course) (items : Bool) : Peels (c.Trees items) :=
  fun _ _ _ h => h.append_tokens

/-- The second reader gets from a corresponding place to wherever the first one gets. Of `i`
    open delimiters it makes `j`. How the places correspond behind may depend on the answer. -/
def Retraces {α : Type} (i j : Nat) (L : Place → Place → Prop) (M : α → Place → Place → Prop)
    (x y : Reader α) : Prop :=
  ∀ (p q : Place) (a : α), i ≤ p.opened → x p = some (a, q) →
    q.opened + i = p.opened + j ∧ ∀ q', M a q q' → ∃ p', L p p' ∧ y p' = some (a, q')

namespace Retraces

variable {α β : Type} {i j k : Nat} {L L' : Place → Place → Prop} {M : α → Place → Place → Prop}
variable {N : β → Place → Place → Prop}

theorem pure (a : α) : Retraces i i (M a) M (fun p => some (a, p)) fun p => some (a, p) := by
  intro p q b _ h
  cases h
  exact ⟨rfl, fun q' hq => ⟨q', hq, rfl⟩⟩

theorem bind {x y : Reader α} {f g : α → Reader β} (hx : Retraces i j L M x y)
    (hf : ∀ a, Retraces j k (M a) N (f a) (g a)) :
    Retraces i k L N (fun p => (x p).bind fun r => f r.1 r.2)
      fun p => (y p).bind fun r => g r.1 r.2 := by
  intro p q b hi h
  rcases Option.bind_eq_some_iff.mp h with ⟨⟨a, r⟩, hfirst, hnext⟩
  rcases hx p r a hi hfirst with ⟨hopened, hback⟩
  rcases hf a r q b (by omega) hnext with ⟨hopened', hback'⟩
  refine ⟨by omega, fun q' hq => ?_⟩
  rcases hback' q' hq with ⟨r', hr, hnext'⟩
  rcases hback r' hr with ⟨p', hp, hfirst'⟩
  exact ⟨p', hp, by dsimp only; rw [hfirst']; exact hnext'⟩

theorem rounds {σ : Type} {step step' : σ → Reader (Bool × σ)}
    (h : ∀ x, Retraces i i L (fun r => if r.1 then L else L') (step x) (step' x)) (n : Nat) (x : σ) :
    Retraces i i L (fun _ => L') (rounds step n x) (Grammar.rounds step' n x) := by
  induction n generalizing x with
  | zero => exact fun _ _ _ _ h => nomatch h
  | succ n ih =>
      refine bind (h x) (f := fun r p => if r.1 then Grammar.rounds step n r.2 p else some (r.2, p))
        (g := fun r p => if r.1 then Grammar.rounds step' n r.2 p else some (r.2, p)) fun r => ?_
      rcases r with ⟨again, y⟩
      cases again with
      | true => exact ih y
      | false => exact pure y

end Retraces

/-- A script can be carried over. -/
def Follows (c : Course) {α : Type} (i j : Nat) (L L' : Place → Place → Prop) (x : Script α) :
    Prop :=
  Retraces i j L (fun _ => L') (x.read c.limit c.before) (x.read c.limit c.behind)

/-- The token to come is no trivia once trivia is set aside. -/
theorem Place.head_skip (p : Place) {l : Lexeme} (h : p.skip.rest.head? = some l) :
    l.isTrivia = false := by
  have hhead := List.head?_dropWhile_not Lexeme.isTrivia p.rest
  rw [show p.rest.dropWhile Lexeme.isTrivia = p.skip.rest from rfl, h] at hhead
  simpa using hhead

/-- Behind trivia that was set aside stands the same token as before. -/
theorem skip_trivia {trivia ls : List Lexeme} (htrivia : ∀ l ∈ trivia, l.isTrivia = true)
    (hls : ∀ l, ls.head? = some l → l.isTrivia = false) :
    (trivia ++ ls).takeWhile Lexeme.isTrivia = trivia ∧
      (trivia ++ ls).dropWhile Lexeme.isTrivia = ls := by
  have hnext : ls.takeWhile Lexeme.isTrivia = [] ∧ ls.dropWhile Lexeme.isTrivia = ls := by
    cases ls with
    | nil => exact ⟨rfl, rfl⟩
    | cons l ls =>
        have hl := hls l rfl
        have hno : ¬l.isTrivia = true := by rw [hl]; exact Bool.false_ne_true
        exact ⟨List.takeWhile_cons_of_neg hno, List.dropWhile_cons_of_neg hno⟩
  constructor
  · rw [List.takeWhile_append_of_pos htrivia, hnext.1, List.append_nil]
  · rw [List.dropWhile_append_of_pos htrivia, hnext.2]

namespace Course.LinkedBy

variable {c : Course} {R : LexemeRelation} {O O' : TreeRelation} {p q' : Place}

/-- What has been collected may be exchanged on both sides. -/
theorem collect (h : c.LinkedBy R O p q') {ts us : List Tree} (hout : O' ts us) :
    c.LinkedBy R O' { p with output := ts } { q' with output := us } :=
  ⟨h.rest, h.pending, hout, h.depth, h.opened, h.fuel, h.ahead⟩

/-- Trivia that was set aside is taken back on both sides. -/
theorem unskip {R' : LexemeRelation}
    (hR : ∀ trivia, (∀ l ∈ trivia, l.isTrivia = true) → R p.skip.rest q'.rest →
      R' (trivia ++ p.skip.rest) (trivia ++ q'.rest))
    (hnext : ∀ l, q'.rest.head? = some l → l.isTrivia = false) (h : c.LinkedBy R O p.skip q') :
    ∃ p', c.LinkedBy R' O p p' ∧ p'.skip = q' := by
  have htrivia : ∀ l ∈ p.rest.takeWhile Lexeme.isTrivia, l.isTrivia = true :=
    List.all_eq_true.mp List.all_takeWhile
  have hsplit : p.rest.takeWhile Lexeme.isTrivia ++ p.skip.rest = p.rest :=
    List.takeWhile_append_dropWhile
  have hskip := skip_trivia htrivia hnext
  refine ⟨{ q' with rest := p.rest.takeWhile Lexeme.isTrivia ++ q'.rest, pending := p.pending },
    ⟨?_, rfl, h.output, h.depth, h.opened, ?_, ?_⟩, ?_⟩
  · have hrest := hR _ htrivia h.rest
    rwa [hsplit] at hrest
  · have hkinds : kindsOf p.rest = kindsOf p.skip.rest := by
      rw [← hsplit, kindsOf_append, kindsOf_trivia htrivia, List.nil_append]
    dsimp only
    rw [hkinds, kindsOf_append, kindsOf_trivia htrivia, List.nil_append]
    exact h.fuel
  · have hahead := h.ahead
    have hlength := congrArg List.length hsplit
    rw [List.length_append] at hlength
    rw [List.length_append]
    omega
  · rw [Place.skip]
    dsimp only
    rw [hskip.1, hskip.2, ← show q'.pending = p.pending ++ _ from h.pending]

/-- Trivia that was collected is given back on both sides. -/
theorem unflush (hO : Peels O) (h : c.LinkedBy R O p.flush q') :
    ∃ p', c.LinkedBy R O p p' ∧ p'.flush = q' := by
  rcases hO _ _ _ h.output with ⟨vs, hvs, hout⟩
  refine ⟨{ q' with output := vs, pending := p.pending },
    ⟨h.rest, rfl, hout, h.depth, h.opened, h.fuel, h.ahead⟩, ?_⟩
  rw [Place.flush]
  dsimp only
  rw [← hvs, ← show q'.pending = [] from h.pending]

/-- A token that was taken is given back on both sides. -/
theorem untake {R' : LexemeRelation} {l : Lexeme} {ls : List Lexeme} {n : Nat} (hO : Peels O)
    (hR : ∀ ms, R' ls ms → R (l :: ls) (l :: ms)) (hrest : p.rest = l :: ls)
    (hfuel : p.fuel = n + 1)
    (h : c.LinkedBy R' O
      { p.flush with rest := ls, output := p.flush.output ++ [.token l], fuel := n } q') :
    ∃ p', c.LinkedBy R O p p' ∧ p'.rest = l :: q'.rest ∧ p'.fuel = q'.fuel + 1 ∧
      { p'.flush with
        rest := q'.rest, output := p'.flush.output ++ [.token l], fuel := q'.fuel } = q' := by
  rcases hO _ [l] _ h.output with ⟨vs, hvs, hout⟩
  have hcount := h.fuel
  have hahead := h.ahead
  dsimp only at hcount hahead
  have hflush : c.LinkedBy R O p.flush
      { q' with rest := l :: q'.rest, output := vs, fuel := q'.fuel + 1 } := by
    refine ⟨?_, h.pending, hout, h.depth, h.opened, ?_, ?_⟩
    · rw [show p.flush.rest = l :: ls from hrest]
      exact hR _ h.rest
    · rw [show p.flush.rest = l :: ls from hrest, show p.flush.fuel = n + 1 from hfuel]
      cases hl : l.isTrivia with
      | true =>
          rw [kindsOf_cons_trivia hl, kindsOf_cons_trivia hl]
          dsimp only
          omega
      | false =>
          rw [kindsOf_cons hl, kindsOf_cons hl, List.length_cons, List.length_cons]
          dsimp only
          omega
    · rw [show p.flush.rest = l :: ls from hrest, List.length_cons, List.length_cons]
      omega
  rcases hflush.unflush hO with ⟨p', hp, hp'⟩
  refine ⟨p', hp, congrArg Place.rest hp', congrArg Place.fuel hp', ?_⟩
  rw [hp']
  dsimp only
  rw [← show q'.output = vs ++ [.token l] from hvs]

end Course.LinkedBy

namespace Course.Linked

variable {c : Course} {O : TreeRelation} {p q' : Place}

/-- Trivia that was set aside is taken back on both sides. -/
theorem unskip (h : c.Linked O p.skip q') : ∃ p', c.Linked O p p' ∧ p'.skip = q' := by
  refine LinkedBy.unskip (fun _ _ hrest => hrest.prepend _) ?_ h
  rw [h.rest.head]
  exact fun l hl => p.head_skip hl

theorem next? (h : c.Linked O p q') : q'.next? = p.next? := by
  rw [Place.next?, h.rest.head, Place.next?]

theorem isEmpty (h : c.Linked O p q') : q'.rest.isEmpty = p.rest.isEmpty := by
  have hhead := h.rest.head
  cases hrest : p.rest with
  | nil =>
      rw [hrest] at hhead
      rw [List.head?_eq_none_iff.mp hhead]
  | cons l ls =>
      rw [hrest] at hhead
      rcases List.head?_eq_some_iff.mp hhead with ⟨ms, hms⟩
      rw [hms]
      rfl

end Course.Linked

/-- One script after another, perhaps with other scripts behind the extraction. -/
theorem Retraces.scripts {limit : Option Nat} {before behind : Readers} {α β : Type} {i j k : Nat}
    {L : Place → Place → Prop} {M : α → Place → Place → Prop} {N : β → Place → Place → Prop}
    {x y : Script α} {f g : α → Script β}
    (hx : Retraces i j L M (x.read limit before) (y.read limit behind))
    (hf : ∀ a, Retraces j k (M a) N ((f a).read limit before) ((g a).read limit behind)) :
    Retraces i k L N ((x >>= f).read limit before) ((y >>= g).read limit behind) := by
  intro p q b hi h
  rw [read_bind] at h
  rcases Retraces.bind hx hf p q b hi h with ⟨hopened, hback⟩
  refine ⟨hopened, fun q' hq => ?_⟩
  rcases hback q' hq with ⟨p', hp, hread⟩
  exact ⟨p', hp, by rw [read_bind]; exact hread⟩

/-- A loop goes on for as many rounds, perhaps with another body behind the extraction. -/
theorem Retraces.loop {c : Course} {α σ : Type} {i j : Nat} {L M N : Place → Place → Prop}
    {body body' : σ → Script (Bool × σ)} {start : σ} {next next' : σ → Script α}
    (hbody : ∀ x, Retraces i i L (fun r => if r.1 then L else M)
      ((body x).read c.limit c.before) ((body' x).read c.limit c.behind))
    (hlength : ∀ {p p'}, L p p' → p.rest.length ≤ p'.rest.length)
    (hnext : ∀ x, Retraces i j M (fun _ => N) ((next x).read c.limit c.before)
      ((next' x).read c.limit c.behind)) :
    Retraces i j L (fun _ => N) ((Script.loop body start next).read c.limit c.before)
      ((Script.loop body' start next').read c.limit c.behind) := by
  intro p q a hi h
  rcases Option.bind_eq_some_iff.mp h with ⟨⟨x, r⟩, hloop, hrest⟩
  rcases Retraces.rounds hbody _ _ p r x hi hloop with ⟨hopened, hback⟩
  rcases hnext x r q a (by omega) hrest with ⟨hopened', hback'⟩
  refine ⟨by omega, fun q' hq => ?_⟩
  rcases hback' q' hq with ⟨r', hr, hread⟩
  rcases hback r' hr with ⟨p', hp, hrounds⟩
  refine ⟨p', hp, ?_⟩
  have hmore := rounds_mono (Nat.add_le_add_right (hlength hp) 2) hrounds
  rw [Script.read]
  exact (congrArg (Option.bind · _) hmore).trans hread

namespace Follows

variable {c : Course} {α β : Type} {i j k : Nat} {L M N : Place → Place → Prop}
variable {R : LexemeRelation} {O O' : TreeRelation}

theorem pure (a : α) : Follows c i i L L (pure a) := by
  intro p q b _ h
  cases h
  exact ⟨rfl, fun q' hq => ⟨q', hq, rfl⟩⟩

/-- One script after another, where the answer of the first may matter. -/
theorem bind_by {M : α → Place → Place → Prop} {x : Script α} {f : α → Script β}
    (hx : Retraces i j L M (x.read c.limit c.before) (x.read c.limit c.behind))
    (hf : ∀ a, Follows c j k (M a) N (f a)) : Follows c i k L N (x >>= f) :=
  Retraces.scripts hx hf

/-- One script after another. -/
theorem bind {x : Script α} {f : α → Script β} (hx : Follows c i j L M x)
    (hf : ∀ a, Follows c j k M N (f a)) : Follows c i k L N (x >>= f) :=
  bind_by hx hf

theorem ite {b : Prop} [Decidable b] {x y : Script α} (hx : b → Follows c i j L M x)
    (hy : ¬b → Follows c i j L M y) : Follows c i j L M (if b then x else y) := by
  split
  · next h => exact hx h
  · next h => exact hy h

theorem call {q : Production} (h : Retraces i i L (fun _ => L) (c.before q) (c.behind q)) :
    Follows c i i L L (Script.call q) := by
  intro p r a hi hread
  rw [read_call] at hread
  rcases h p r a hi hread with ⟨hopened, hback⟩
  refine ⟨hopened, fun q' hq => ?_⟩
  rcases hback q' hq with ⟨p', hp, hread'⟩
  exact ⟨p', hp, by rw [read_call]; exact hread'⟩

/-- What reports something is no part of a reading. -/
theorem report (kind : Diagnostic.Kind) (detail : Option String) :
    Follows c i j L M (Script.report kind detail) := by
  intro p q a _ h
  cases h

theorem reportUnclosed (kind : Diagnostic.Kind) :
    Follows c (i + 1) j L M (Script.perform (.reportUnclosed kind)) := by
  intro p q a hi h
  rw [read_perform, Op.read] at h
  split at h
  · next hopened => omega
  · cases h

/-- An operation that steps over trivia, with an answer that both readings agree on. -/
theorem skipping {op : Op} (answer : Place → op.Answer)
    (hop : ∀ p, op.read c.limit p = some (answer p.skip, p.skip))
    (hanswer : ∀ {p p'}, c.Linked O p p' → answer p' = answer p) :
    Follows c i i (c.Linked O) (c.Linked O) (Script.perform op) := by
  intro p q a _ h
  rw [read_perform, hop] at h
  cases h
  refine ⟨rfl, fun q' hq => ?_⟩
  rcases hq.unskip with ⟨p', hp, hskip⟩
  refine ⟨p', hp, ?_⟩
  rw [read_perform, hop, hskip, hanswer hq]

theorem look : Follows c i i (c.Linked O) (c.Linked O) Script.look :=
  skipping Place.next? (fun _ => rfl) fun h => h.next?

theorem word : Follows c i i (c.Linked O) (c.Linked O) Script.word :=
  skipping (fun p => (p.rest.head?.map Lexeme.text).getD "") (fun _ => rfl) fun h => by
    rw [h.rest.head]

theorem atEnd : Follows c i i (c.Linked O) (c.Linked O) Script.atEnd :=
  skipping (fun p => p.rest.isEmpty) (fun _ => rfl) fun h => h.isEmpty

theorem skipTrivia : Follows c i i (c.Linked O) (c.Linked O) (Script.perform .skipTrivia) :=
  skipping (fun _ => ()) (fun _ => rfl) fun _ => rfl

theorem keepTrivia (hO : Peels O) :
    Follows c i i (c.Linked O) (c.Linked O) (Script.perform .keepTrivia) := by
  intro p q a _ h
  rw [read_perform] at h
  cases h
  refine ⟨rfl, fun q' hq => ?_⟩
  rcases hq.unflush hO with ⟨r', hr, hflush⟩
  rcases Course.Linked.unskip hr with ⟨p', hp, hskip⟩
  refine ⟨p', hp, ?_⟩
  rw [read_perform, Op.read, hskip, hflush]

theorem require (kind : Kind) :
    Follows c i i (c.Linked O) (c.Linked O) (Script.perform (.require kind)) := by
  intro p q a _ h
  rw [read_perform, Op.read] at h
  split at h
  · next hkind =>
      cases h
      refine ⟨rfl, fun q' hq => ?_⟩
      rcases hq.unskip with ⟨p', hp, hskip⟩
      refine ⟨p', hp, ?_⟩
      rw [read_perform, Op.read, hskip, if_pos (hq.next?.trans hkind)]
  · cases h

theorem openDelimiter :
    Follows c i (i + 1) (c.Linked O) (c.Linked O) (Script.perform .openDelimiter) := by
  intro p q a _ h
  rw [read_perform] at h
  cases h
  refine ⟨(Nat.add_right_comm p.opened 1 i).trans (Nat.add_assoc p.opened i 1), fun q' hq => ?_⟩
  have hskip : c.Linked O p.skip { q' with opened := p.opened } :=
    ⟨hq.rest, hq.pending, hq.output, hq.depth, rfl, hq.fuel, hq.ahead⟩
  rcases hskip.unskip with ⟨p', hp, hskip⟩
  refine ⟨p', hp, ?_⟩
  rw [read_perform, Op.read, hskip, hp.opened, ← show q'.opened = p.opened + 1 from hq.opened]

theorem closeDelimiter :
    Follows c (i + 1) i (c.LinkedBy R O) (c.LinkedBy R O) (Script.perform .closeDelimiter) := by
  intro p q a hi h
  rw [read_perform] at h
  cases h
  refine ⟨by dsimp only; omega, fun q' hq => ?_⟩
  refine ⟨{ q' with opened := p.opened },
    ⟨hq.rest, hq.pending, hq.output, hq.depth, rfl, hq.fuel, hq.ahead⟩, ?_⟩
  rw [read_perform, Op.read, ← show q'.opened = p.opened - 1 from hq.opened]

theorem enter : Follows c i i (c.Linked O) (c.Linked O) Script.enter := by
  intro p q a _ h
  rw [Script.enter, read_perform, Op.read] at h
  split at h
  · cases h
  · next hdeep =>
      cases h
      refine ⟨rfl, fun q' hq => ?_⟩
      refine ⟨{ q' with depth := p.depth },
        ⟨hq.rest, hq.pending, hq.output, rfl, hq.opened, hq.fuel, hq.ahead⟩, ?_⟩
      rw [Script.enter, read_perform, Op.read, if_neg hdeep,
        ← show q'.depth = p.depth + 1 from hq.depth]

theorem leave : Follows c i i (c.Linked O) (c.Linked O) (Script.perform .leave) := by
  intro p q a _ h
  rw [read_perform] at h
  cases h
  refine ⟨rfl, fun q' hq => ?_⟩
  refine ⟨{ q' with depth := p.depth },
    ⟨hq.rest, hq.pending, hq.output, rfl, hq.opened, hq.fuel, hq.ahead⟩, ?_⟩
  rw [read_perform, Op.read, ← show q'.depth = p.depth - 1 from hq.depth]

/-- A token that was taken is given back on both sides. -/
theorem take (hO : Peels O) : Follows c i i (c.Linked O) (c.Linked O) Script.take := by
  intro p q a _ h
  rw [Script.take, read_perform, Op.read] at h
  split at h
  · next l ls n hrest hfuel =>
      cases h
      refine ⟨rfl, fun q' hq => ?_⟩
      rcases hq.untake hO (fun _ => Spliced.cons l) hrest hfuel with ⟨p', hp, hrest', hfuel', hq'⟩
      refine ⟨p', hp, ?_⟩
      rw [Script.take, read_perform, Op.read, hrest', hfuel']
      dsimp only
      rw [hq']
  · cases h

/-- A script without a reading is carried over. -/
theorem of_none {x : Script α} (h : ∀ p, x.read c.limit c.before p = none) :
    Follows c i j L M x := by
  intro p q a _ hread
  rw [h p] at hread
  cases hread

theorem report_bind (kind : Diagnostic.Kind) (detail : Option String) (f : Unit → Script α) :
    Follows c i j L M (Script.report kind detail >>= f) :=
  of_none fun _ => rfl

/-! ### Groups -/

/-- A group that makes a node of its own, perhaps of another kind behind the extraction. -/
theorem group_node {kind kind' : Kind} {x y : Script α} (hO : Peels O)
    (hpeel : ∀ ts cs us, O (ts ++ [.node kind cs]) us →
      ∃ vs ds, us = vs ++ [.node kind' ds] ∧ O ts vs ∧ O' cs ds)
    (hstart : ∀ us, O' [] us → us = [])
    (hx : Retraces i i (c.Linked O') (fun _ => c.Linked O') (x.read c.limit c.before)
      (y.read c.limit c.behind)) :
    Retraces i i (c.Linked O) (fun _ => c.Linked O) ((Script.node kind x).read c.limit c.before)
      ((Script.node kind' y).read c.limit c.behind) := by
  intro p q a hi h
  rcases Option.bind_eq_some_iff.mp h with ⟨⟨b, r⟩, hbody, hdone⟩
  cases hdone
  rcases hx _ r b (show i ≤ ((Grouping.node kind).enter p).opened from hi) hbody
    with ⟨hopened, hback⟩
  refine ⟨hopened, fun q' hq => ?_⟩
  rcases hpeel _ _ _ hq.output with ⟨vs, ds, hout, hvs, hds⟩
  rcases hback { q' with output := ds } (hq.collect hds)
    with ⟨r', hr, hread⟩
  rcases hO _ _ _ hvs with ⟨ws, rfl, hws⟩
  refine ⟨{ r' with output := ws, pending := p.pending },
    ⟨hr.rest, rfl, hws, hr.depth, hr.opened, hr.fuel, hr.ahead⟩, ?_⟩
  have henter : (Grouping.node kind').enter { r' with output := ws, pending := p.pending } = r' := by
    rw [Grouping.enter, Place.flush, ← hstart _ hr.output, ← show r'.pending = [] from hr.pending]
  rw [Script.node, Script.read, henter, hread]
  simp only [Option.bind_some, Script.read, Grouping.leave, Place.flush, ← hout]

/-- The kinds of nodes that the change is about: what gets a name, and what gets a class behind
    it or below it. -/
def isConcerned (kind : Kind) : Bool :=
  kind == .anonObjectCreation || kind == .typeDecl || kind == .namespaceDecl

theorem not_concerned {kind : Kind} (h : isConcerned kind = false) :
    (kind == .anonObjectCreation) = false ∧ (kind == .typeDecl) = false ∧
      (kind == .namespaceDecl) = false := by
  rw [isConcerned, Bool.or_eq_false_iff, Bool.or_eq_false_iff] at h
  exact ⟨h.1.1, h.1.2, h.2⟩

/-- A node that is no item with more behind it. -/
theorem node_of {kind : Kind} {items : Bool} {x : Script α}
    (hcreation : (kind == .anonObjectCreation) = false) (htype : (kind == .typeDecl) = false)
    (hx : Follows c i i (c.Linked (c.Trees (items && kind == .namespaceDecl)))
      (c.Linked (c.Trees (items && kind == .namespaceDecl))) x) :
    Follows c i i (c.Linked (c.Trees items)) (c.Linked (c.Trees items)) (Script.node kind x) := by
  refine group_node (peels_trees c items) ?_ ?_ hx
  · intro ts cs us h
    rcases h.append with ⟨vs, ws, rfl, hvs, hws⟩
    rcases hws.single_plain hcreation (by rw [htype, Bool.and_false]) with ⟨ds, rfl, hds⟩
    exact ⟨vs, ds, rfl, hvs, hds⟩
  · exact fun us h => h.of_nil

theorem node {kind : Kind} {items : Bool} {x : Script α} (hkind : isConcerned kind = false)
    (hx : Follows c i i (c.Linked (c.Trees false)) (c.Linked (c.Trees false)) x) :
    Follows c i i (c.Linked (c.Trees items)) (c.Linked (c.Trees items)) (Script.node kind x) := by
  rcases not_concerned hkind with ⟨hcreation, htype, hspace⟩
  exact node_of hcreation htype (by rw [hspace, Bool.and_false]; exact hx)

/-- A group that is only a place to return to. Its body starts with nothing collected or set
    aside. -/
theorem frame_fresh {items : Bool} {x : Script α}
    (hx : ∀ (p q : Place) (a : α), p.output = [] → p.pending = [] → i ≤ p.opened →
      x.read c.limit c.before p = some (a, q) → q.opened + i = p.opened + j ∧
        ∀ q', c.LinkedBy R (c.Trees items) q q' → ∃ p', c.Linked (c.Trees items) p p' ∧
          x.read c.limit c.behind p' = some (a, q')) :
    Follows c i j (c.Linked (c.Trees items)) (c.LinkedBy R (c.Trees items)) (Script.frame x) := by
  intro p q a hi h
  rcases Option.bind_eq_some_iff.mp h with ⟨⟨b, r⟩, hbody, hdone⟩
  cases hdone
  rcases hx (Grouping.frame.enter p) r b rfl rfl hi hbody with ⟨hopened, hback⟩
  refine ⟨hopened, fun q' hq => ?_⟩
  rcases hq.output.append with ⟨vs, ds, hout, hvs, hds⟩
  rcases hback { q' with output := ds } (hq.collect hds)
    with ⟨r', hr, hread⟩
  rcases hvs.append_tokens with ⟨ws, rfl, hws⟩
  refine ⟨{ r' with output := ws, pending := p.pending },
    ⟨hr.rest, rfl, hws, hr.depth, hr.opened, hr.fuel, hr.ahead⟩, ?_⟩
  have hnil : r'.output = [] := Altered.of_nil hr.output
  have henter : Grouping.frame.enter { r' with output := ws, pending := p.pending } = r' := by
    rw [Grouping.enter, Place.flush, ← hnil, ← show r'.pending = [] from hr.pending]
  rw [Script.frame, Script.read, henter, hread]
  simp only [Option.bind_some, Script.read, Grouping.leave, Place.flush, ← hout]

theorem frame {items : Bool} {x : Script α}
    (hx : Follows c i j (c.Linked (c.Trees items)) (c.LinkedBy R (c.Trees items)) x) :
    Follows c i j (c.Linked (c.Trees items)) (c.LinkedBy R (c.Trees items)) (Script.frame x) :=
  frame_fresh fun p q a _ _ hi h => hx p q a hi h

/-- A group that wraps what was collected before it. The lexemes behind it may correspond in a
    way of their own. -/
theorem group_enclose {kind : Kind} {x : Script α}
    (hx : Follows c i j (c.Linked O') (c.LinkedBy R O') x)
    (hpeel : ∀ cs us, O [.node kind cs] us → ∃ ds, us = [.node kind ds] ∧ O' cs ds)
    (hmono : ∀ ts us, O' ts us → O ts us) :
    Follows c i j (c.Linked O) (c.LinkedBy R O) (Script.enclose kind x) := by
  intro p q a hi h
  rcases Option.bind_eq_some_iff.mp h with ⟨⟨b, r⟩, hbody, hdone⟩
  cases hdone
  rcases hx _ r b hi hbody with ⟨hopened, hback⟩
  refine ⟨hopened, fun q' hq => ?_⟩
  rcases hpeel _ _ hq.output with ⟨ds, hout, hds⟩
  rcases hback { q' with output := ds } (hq.collect hds)
    with ⟨p', hp, hread⟩
  refine ⟨p', hp.collect (hmono _ _ hp.output), ?_⟩
  have henter : (Grouping.enclose kind).enter p' = p' := rfl
  rw [Script.enclose, Script.read, henter, hread]
  simp only [Option.bind_some, Script.read, Grouping.leave, ← hout]

theorem enclose {kind : Kind} {items : Bool} {x : Script α} (hkind : isConcerned kind = false)
    (hx : Follows c i i (c.Linked (c.Trees false)) (c.Linked (c.Trees false)) x) :
    Follows c i i (c.Linked (c.Trees items)) (c.Linked (c.Trees items))
      (Script.enclose kind x) := by
  rcases not_concerned hkind with ⟨hcreation, htype, hspace⟩
  refine group_enclose hx (fun cs us h => ?_) fun _ _ h => h.mono
  rcases h.single_plain hcreation (by rw [htype, Bool.and_false]) with ⟨ds, rfl, hds⟩
  rw [hspace, Bool.and_false] at hds
  exact ⟨ds, rfl, hds⟩

/-! ### Loops -/

/-- A loop goes on for as many rounds. -/
theorem loop {σ : Type} {body : σ → Script (Bool × σ)} {start : σ} {next : σ → Script α}
    (hbody : ∀ x, Follows c i i (c.Linked O) (c.Linked O) (body x))
    (hnext : ∀ x, Follows c i j (c.Linked O) M (next x)) :
    Follows c i j (c.Linked O) M (.loop body start next) := by
  have hround : ∀ x, Retraces i i (c.Linked O)
      (fun r => if r.1 then c.Linked O else c.Linked O) ((body x).read c.limit c.before)
      ((body x).read c.limit c.behind) := fun x => by
    simp only [ite_self]
    exact hbody x
  exact Retraces.loop hround (fun hp => Nat.le_of_add_right_le hp.ahead) hnext

theorem repeatWhile {body : Script Bool}
    (hbody : Follows c i i (c.Linked O) (c.Linked O) body) :
    Follows c i i (c.Linked O) (c.Linked O) (Script.repeatWhile body) :=
  loop (fun _ => bind hbody fun _ => pure _) fun _ => pure _

theorem whileTrue {condition : Script Bool} {body : Script Unit}
    (hcondition : Follows c i i (c.Linked O) (c.Linked O) condition)
    (hbody : Follows c i i (c.Linked O) (c.Linked O) body) :
    Follows c i i (c.Linked O) (c.Linked O) (Script.whileTrue condition body) :=
  repeatWhile (bind hcondition fun _ => ite (fun _ => bind hbody fun _ => pure _) fun _ => pure _)

/-! ### Scripts that collect tokens only -/

section Tokens

theorem isAt (k : Kind) : Follows c i i (c.Linked O) (c.Linked O) (Script.isAt k) :=
  bind look fun _ => pure _

theorem isAtOneOf (ks : KindSet) : Follows c i i (c.Linked O) (c.Linked O) (Script.isAtOneOf ks) :=
  bind look fun _ => pure _

theorem isBefore (k : Kind) : Follows c i i (c.Linked O) (c.Linked O) (Script.isBefore k) :=
  bind atEnd fun _ => ite (fun _ => pure _) fun _ => bind (isAt k) fun _ => pure _

variable (hO : Peels O)

include hO

theorem eat (k : Kind) : Follows c i i (c.Linked O) (c.Linked O) (Script.eat k) :=
  bind (isAt k) fun _ => ite (fun _ => bind (take hO) fun _ => pure _) fun _ => pure _

theorem expect (k : Kind) (what : String) :
    Follows c i i (c.Linked O) (c.Linked O) (Script.expect k what) :=
  bind (eat hO k) fun _ => ite (fun _ => pure _) fun _ => report _ _

theorem expectName (what : String) :
    Follows c i i (c.Linked O) (c.Linked O) (Script.expectName what) :=
  bind (eat hO .id) fun _ => ite (fun _ => pure _) fun _ => report_bind _ _ _

theorem expectSemicolon : Follows c i i (c.Linked O) (c.Linked O) Script.expectSemicolon :=
  bind (eat hO .semicolon) fun _ => ite (fun _ => pure _) fun _ => of_none fun _ => rfl

theorem takeOpening : Follows c i (i + 1) (c.Linked O) (c.Linked O) Script.takeOpening :=
  bind openDelimiter fun _ => take hO

theorem expectClosing (k : Kind) (unclosed : Diagnostic.Kind) :
    Follows c (i + 1) i (c.Linked O) (c.Linked O) (Script.expectClosing k unclosed) :=
  bind (eat hO k) fun _ => ite (fun _ => closeDelimiter) fun _ => reportUnclosed unclosed

end Tokens

theorem reportAndTake (kind : Diagnostic.Kind) :
    Follows c i j L M (Script.reportAndTake kind) :=
  report_bind _ _ _

theorem recover {items : Bool} (kind : Diagnostic.Kind) (recovery : KindSet) :
    Follows c i i (c.Linked (c.Trees items)) (c.Linked (c.Trees items))
      (Script.recover kind recovery) := by
  refine bind (bind (isAtOneOf recovery) fun _ => ite (fun _ => pure _) fun _ => atEnd) fun _ => ?_
  exact ite (fun _ => report _ _) fun _ => node rfl (report_bind _ _ _)

/-- One level deeper the same is carried over. -/
theorem deeper {items : Bool} {x : Script Unit}
    (hx : Follows c i i (c.Linked (c.Trees items)) (c.Linked (c.Trees items)) x) :
    Follows c i i (c.Linked (c.Trees items)) (c.Linked (c.Trees items)) (Script.deeper x) :=
  bind enter fun _ => ite (fun _ => bind hx fun _ => leave) fun _ => node rfl (pure _)

end Follows

/-- The productions that are referred to can be carried over. Members of a type are no items. -/
def Course.IsFollowed (c : Course) : Prop :=
  ∀ (q : Production) (slack i : Nat) (items : Bool), (q = .member → items = false) →
    Retraces i i ({ c with slack := slack }.Linked (c.Trees items))
      (fun _ => { c with slack := slack }.Linked (c.Trees items)) (c.before q) (c.behind q)

end Grammar

end Nominal
