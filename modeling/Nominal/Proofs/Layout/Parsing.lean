import Nominal.Proofs.Limited

/-!
# Parsing Does Not Depend on Layout

Two sources with the same tokens are parsed in the same way, whatever trivia stands between
the tokens. No script can ask for trivia or for an offset, so two watched runs of it from
states that are alike get the same answers and go the same way. What they collect is the same
apart from trivia, and what they use up is the same.

Reports are made at offsets, and a report is left out where the last one was made. Which ones
these are does depend on layout. But nothing is left out before something has been reported,
so whether there is any report does not.

## Main definitions

* `State.Alike`: Two states are the same apart from layout.
* `Outcome.Alike`: Two outcomes are, unless one of them is a fault.

## Theorems

* `run_alike`: An operation does the same to states that are alike.
* `watch_alike`: So does a script.
* `parseLexemes_alike`: Lexemes with the same tokens are parsed with the same outcome.
-/

namespace Nominal

namespace Grammar

open Syntax (Kind Lexeme Tree)

/-- Two states are the same apart from layout. -/
structure State.Alike (s s' : State) : Prop where
  rest : Lexeme.bare s.rest = Lexeme.bare s'.rest
  output : Tree.bareOf s.output = Tree.bareOf s'.output
  pending : Lexeme.bare s.pending = [] ∧ Lexeme.bare s'.pending = []
  depth : s.depth = s'.depth
  lost : s.lost = s'.lost
  fuel : s.fuel = s'.fuel
  looks : s.looks = s'.looks
  delimiters : s.delimiters.length = s'.delimiters.length
  diagnostics : s.diagnostics = [] ↔ s'.diagnostics = []
  /-- Nothing can be left out before something has been reported. -/
  reported : (s.reportedAt.isSome → s.diagnostics ≠ []) ∧ (s'.reportedAt.isSome → s'.diagnostics ≠ [])

/-- Two outcomes are the same apart from layout, unless one of them is a fault. -/
def Outcome.Alike {α : Type} : Outcome α → Outcome α → Prop
  | .broken _, _ | _, .broken _ => True
  | .ok a s, .ok a' s' => a = a' ∧ s.Alike s'
  | .stuck, .stuck => True
  | _, _ => False

namespace Outcome.Alike

variable {α β : Type}

theorem broken_right (o : Outcome α) (fault : Fault) : o.Alike (.broken fault) := by
  cases o <;> trivial

theorem andThen {o o' : Outcome α} {f f' : α → State → Outcome β} (ho : o.Alike o')
    (hf : ∀ a s s', s.Alike s' → (f a s).Alike (f' a s')) : (o.andThen f).Alike (o'.andThen f') := by
  cases o with
  | broken fault => trivial
  | stuck =>
      cases o' with
      | ok a s => exact ho.elim
      | stuck => trivial
      | broken fault => trivial
  | ok a s =>
      cases o' with
      | stuck => exact ho.elim
      | broken fault => exact broken_right _ fault
      | ok a' s' =>
          rcases ho with ⟨rfl, hs⟩
          exact hf a s s' hs

/-- Loops are cut off at different times, but to be cut off is a fault. -/
theorem iterate {σ : Type} {step step' : σ → State → Outcome (Bool × σ)}
    (hstep : ∀ x s s', s.Alike s' → (step x s).Alike (step' x s')) (n m : Nat) (x : σ)
    {s s' : State} (hs : s.Alike s') :
    (Grammar.iterate step n x s).Alike (Grammar.iterate step' m x s') := by
  induction n generalizing m x s s' with
  | zero => trivial
  | succ n ih =>
      cases m with
      | zero => exact broken_right _ _
      | succ m =>
          refine (hstep x s s' hs).andThen fun r t t' ht => ?_
          split
          · exact ih m r.2 ht
          · exact ⟨rfl, ht⟩

end Outcome.Alike

/-! ### Looking ahead -/

/-- A report changes nothing but what has been reported. -/
theorem reportAt_eq (s : State) (offset : Nat) (d : Diagnostic) :
    s.reportAt offset d =
      { s with
        reportedAt := (s.reportAt offset d).reportedAt
        diagnostics := (s.reportAt offset d).diagnostics } := by
  unfold State.reportAt
  split <;> rfl

theorem nth?_eq (n : Nat) (ls : List Lexeme) :
    State.nth? n ls = (Lexeme.bare ls)[n]?.map Lexeme.kind := by
  induction ls generalizing n with
  | nil => cases n <;> rfl
  | cons l ls ih =>
      cases hl : l.isTrivia with
      | true =>
          rw [Lexeme.bare_cons_trivia hl, ← ih]
          cases n <;> exact if_pos hl
      | false =>
          have hnot : ¬l.isTrivia = true := by rw [hl]; exact Bool.false_ne_true
          rw [Lexeme.bare_cons_token hl]
          cases n with
          | zero => exact if_neg hnot
          | succ n => exact (if_neg hnot).trans (ih n)

/-- Where the next token has been reached, it comes first. -/
theorem State.IsSettled.head?_bare {s : State} (h : s.IsSettled) :
    s.rest.head? = (Lexeme.bare s.rest).head? := by
  cases hrest : s.rest with
  | nil => rfl
  | cons l ls =>
      have hl : l.isTrivia = false := h l (by rw [hrest]; rfl)
      rw [Lexeme.bare_cons_token hl]
      rfl

theorem head?_skipTrivia (s : State) : s.skipTrivia.rest.head? = (Lexeme.bare s.rest).head? := by
  rw [(isSettled_skipTrivia s).head?_bare, bare_skipTrivia]

namespace State.Alike

variable {s s' : State}

theorem symm (h : s.Alike s') : s'.Alike s where
  rest := h.rest.symm
  output := h.output.symm
  pending := h.pending.symm
  depth := h.depth.symm
  lost := h.lost.symm
  fuel := h.fuel.symm
  looks := h.looks.symm
  delimiters := h.delimiters.symm
  diagnostics := h.diagnostics.symm
  reported := h.reported.symm

/-- Trivia may be set aside on one side alone. -/
theorem skip (h : s.Alike s') : s.skipTrivia.Alike s' where
  rest := (bare_skipTrivia s).trans h.rest
  output := h.output
  pending := by
    refine ⟨?_, h.pending.2⟩
    have htrivia : Lexeme.bare (s.rest.takeWhile Lexeme.isTrivia) = [] :=
      Lexeme.bare_eq_nil (List.all_eq_true.mp List.all_takeWhile)
    rw [State.skipTrivia, Lexeme.bare_append, h.pending.1, htrivia, List.append_nil]
  depth := h.depth
  lost := h.lost
  fuel := h.fuel
  looks := h.looks
  delimiters := h.delimiters
  diagnostics := h.diagnostics
  reported := h.reported

theorem skipTrivia (h : s.Alike s') : s.skipTrivia.Alike s'.skipTrivia := h.skip.symm.skip.symm

theorem flush (h : s.Alike s') : s.flush.Alike s'.flush where
  rest := h.rest
  output := by
    simp only [State.flush, Tree.bareOf_append, Tree.bareOf_map_token, h.pending.1, h.pending.2,
      h.output]
  pending := ⟨rfl, rfl⟩
  depth := h.depth
  lost := h.lost
  fuel := h.fuel
  looks := h.looks
  delimiters := h.delimiters
  diagnostics := h.diagnostics
  reported := h.reported

theorem head? (h : s.Alike s') : s.skipTrivia.rest.head? = s'.skipTrivia.rest.head? := by
  rw [head?_skipTrivia, head?_skipTrivia, h.rest]

theorem next? (h : s.Alike s') : s.skipTrivia.next? = s'.skipTrivia.next? := by
  rw [State.next?, State.next?, h.head?]

theorem isEmpty (h : s.Alike s') : s.skipTrivia.rest.isEmpty = s'.skipTrivia.rest.isEmpty := by
  have hhead := h.head?
  cases hrest : s.skipTrivia.rest <;> cases hrest' : s'.skipTrivia.rest <;>
    rw [hrest, hrest'] at hhead <;> first | rfl | cases hhead

/-- Behind a report there is one on both sides. -/
theorem reportAt (h : s.Alike s') (offset offset' : Nat) (d d' : Diagnostic) :
    (s.reportAt offset d).Alike (s'.reportAt offset' d') := by
  have hreports : ∀ {t : State} (o : Nat) (e : Diagnostic),
      (t.reportedAt.isSome → t.diagnostics ≠ []) → (t.reportAt o e).diagnostics ≠ [] := by
    intro t o e ht
    rw [State.reportAt]
    split
    · next hsame => exact ht (by rw [hsame]; rfl)
    · exact List.append_ne_nil_of_right_ne_nil _ (List.cons_ne_nil _ _)
  have hleft := hreports offset d h.reported.1
  have hright := hreports offset' d' h.reported.2
  rw [reportAt_eq s, reportAt_eq s']
  exact {
    rest := h.rest
    output := h.output
    pending := h.pending
    depth := h.depth
    lost := h.lost
    fuel := h.fuel
    looks := h.looks
    delimiters := h.delimiters
    diagnostics := ⟨fun hnil => absurd hnil hleft, fun hnil => absurd hnil hright⟩
    reported := ⟨fun _ => hleft, fun _ => hright⟩ }

theorem spend (h : s.Alike s') : s.spend.Alike s'.spend := by
  have hfuel' := h.fuel
  cases hfuel : s.fuel with
  | none =>
      rw [hfuel] at hfuel'
      simp only [State.spend, hfuel, ← hfuel']
      exact h
  | some n =>
      rw [hfuel] at hfuel'
      cases n with
      | zero =>
          simp only [State.spend, hfuel, ← hfuel']
          exact { h with lost := by simp only [h.lost], fuel := rfl }
      | succ n =>
          simp only [State.spend, hfuel, ← hfuel']
          exact { h with fuel := rfl }

/-- The same token is taken on both sides. -/
theorem takeLexeme (h : s.Alike s') {l : Lexeme} {ls ls' : List Lexeme}
    (hls : Lexeme.bare ls = Lexeme.bare ls') :
    (s.takeLexeme l ls).Alike (s'.takeLexeme l ls') := by
  have hflush := h.spend.flush
  exact { hflush with
    rest := hls
    output := by
      simp only [State.takeLexeme, Tree.bareOf_append, hflush.output]
    looks := rfl }

theorem begin (h : s.Alike s') (g : Grouping) : (g.begin s).Alike (g.begin s') := by
  cases g with
  | node kind | frame => exact { h.flush with output := rfl }
  | enclose kind => exact h

theorem finish {t t' : State} (h : s.Alike s') (ht : t.Alike t') (g : Grouping) :
    (g.finish s t).Alike (g.finish s' t') := by
  have hflush := h.flush.output
  cases g with
  | node kind =>
      refine { ht with output := ?_ }
      simp only [Grouping.finish, Tree.bareOf_append, Tree.bareOf_node, hflush, ht.output]
  | frame =>
      refine { ht with output := ?_ }
      simp only [Grouping.finish, Tree.bareOf_append, hflush, ht.output]
  | enclose kind =>
      refine { ht with output := ?_ }
      simp only [Grouping.finish, Tree.bareOf_node, ht.output]

end State.Alike

variable {setting setting' : Setting}

/-- Only tokens are taken, and they are the same. -/
theorem take_alike {s s' : State} (h : s.Alike s') :
    (Op.take.watch setting s).Alike (Op.take.watch setting' s') := by
  cases hleft : Op.take.watch setting s with
  | broken fault => trivial
  | stuck =>
      rw [Op.watch] at hleft
      split at hleft
      · cases hleft
      · simp only [Op.run] at hleft
        split at hleft <;> cases hleft
  | ok u t =>
      rcases watch_take_ok hleft with ⟨l, ls, hrest, hl, rfl⟩
      have hbare := h.rest
      rw [hrest, Lexeme.bare_cons_token hl] at hbare
      rw [Op.watch]
      split
      · exact Outcome.Alike.broken_right _ _
      · next hsettled =>
          simp only [Op.run]
          cases hrest' : s'.rest with
          | nil => exact Outcome.Alike.broken_right _ _
          | cons l' ls' =>
              have hl' : l'.isTrivia = false := by
                rw [hrest'] at hsettled
                exact Bool.eq_false_iff.mpr hsettled
              rw [hrest', Lexeme.bare_cons_token hl', List.cons.injEq] at hbare
              rcases hbare with ⟨rfl, hls⟩
              exact ⟨rfl, h.takeLexeme hls⟩

/-- An operation does the same to states that are alike. -/
theorem run_alike (hdepth : setting.depthLimit = setting'.depthLimit) (op : Op) {s s' : State}
    (h : s.Alike s') : (op.watch setting s).Alike (op.watch setting' s') := by
  have hskip := h.skipTrivia
  cases op with
  | look =>
      simp only [Op.watch, Op.run, h.next?, hskip.looks]
      cases hlooks : s'.skipTrivia.looks with
      | zero => trivial
      | succ n => exact ⟨rfl, { hskip with looks := rfl }⟩
  | ahead n =>
      simp only [Op.watch, Op.run, nth?_eq, hskip.rest]
      exact ⟨rfl, hskip⟩
  | upcoming =>
      have hupcoming : s.skipTrivia.upcoming = s'.skipTrivia.upcoming :=
        congrArg (List.map Lexeme.kind) hskip.rest
      simp only [Op.watch, Op.run, hupcoming]
      exact ⟨rfl, hskip⟩
  | word =>
      simp only [Op.watch, Op.run, h.head?]
      exact ⟨rfl, hskip⟩
  | atEnd =>
      simp only [Op.watch, Op.run, h.isEmpty, hskip.lost]
      exact ⟨rfl, hskip⟩
  | exhausted =>
      simp only [Op.watch, Op.run, h.isEmpty]
      exact ⟨rfl, hskip⟩
  | skipTrivia => exact ⟨rfl, hskip⟩
  | keepTrivia => exact ⟨rfl, hskip.flush⟩
  | take => exact take_alike h
  | require kind =>
      simp only [Op.watch, Op.run, h.next?, hskip.looks]
      cases hlooks : s'.skipTrivia.looks with
      | zero => trivial
      | succ n =>
          by_cases hkind : s'.skipTrivia.next? = some kind
          · simp only [if_pos hkind]
            exact ⟨rfl, { hskip with looks := rfl }⟩
          · simp only [if_neg hkind]
            trivial
  | report kind detail =>
      simp only [Op.watch, Op.run]
      split
      · trivial
      · split
        · exact Outcome.Alike.broken_right _ _
        · exact ⟨rfl, hskip.reportAt _ _ _ _⟩
  | reportSemicolon =>
      -- Trivia may be set aside on one side alone, if no token has been taken there yet.
      simp only [Op.watch, Op.run]
      cases s.lastEnd with
      | some offset =>
          cases s'.lastEnd with
          | some offset' => exact ⟨rfl, h.reportAt _ _ _ _⟩
          | none => exact ⟨rfl, h.symm.skip.symm.reportAt _ _ _ _⟩
      | none =>
          cases s'.lastEnd with
          | some offset' => exact ⟨rfl, h.skip.reportAt _ _ _ _⟩
          | none => exact ⟨rfl, hskip.reportAt _ _ _ _⟩
  | openDelimiter =>
      refine ⟨rfl, { hskip with delimiters := ?_ }⟩
      simp only [List.length_cons, hskip.delimiters]
  | closeDelimiter =>
      refine ⟨rfl, { h with delimiters := ?_ }⟩
      simp only [List.length_tail, h.delimiters]
  | reportUnclosed kind =>
      have hlength := h.delimiters
      simp only [Op.watch, Op.run]
      cases hs : s.delimiters with
      | nil =>
          rw [hs, List.length_nil, eq_comm, List.length_eq_zero_iff] at hlength
          simp only [hlength]
          exact ⟨rfl, h⟩
      | cons opening delimiters =>
          cases hs' : s'.delimiters with
          | nil =>
              rw [hs, hs'] at hlength
              cases hlength
          | cons opening' delimiters' =>
              rw [hs, hs', List.length_cons, List.length_cons, Nat.add_right_cancel_iff] at hlength
              have hpop : State.Alike { s with delimiters := delimiters }
                  { s' with delimiters := delimiters' } := { h with delimiters := hlength }
              dsimp only
              split
              · trivial
              · split
                · exact Outcome.Alike.broken_right _ _
                · exact ⟨rfl, hpop.skipTrivia.reportAt _ _ _ _⟩
  | enter =>
      simp only [Op.watch, Op.run, hdepth, h.depth]
      split
      · exact ⟨rfl, { h with depth := rfl, lost := by simp only [h.lost] }⟩
      · exact ⟨rfl, { h with depth := rfl, looks := rfl }⟩
  | leave => exact ⟨rfl, { h with depth := by simp only [h.depth], looks := rfl }⟩

/-- Watching a round is the same on both sides, or finds a fault on one of them. -/
theorem watchRound_alike {σ : Type} {s s' : State} {o o' : Outcome (Bool × σ)} (h : o.Alike o') :
    (o.andThen (watchRound s)).Alike (o'.andThen (watchRound s')) := by
  refine h.andThen fun r t t' ht => ?_
  rw [watchRound, watchRound]
  split
  · trivial
  · split
    · exact Outcome.Alike.broken_right _ _
    · exact ⟨rfl, ht⟩

/-- A script does the same to states that are alike. -/
theorem watch_alike (hdepth : setting.depthLimit = setting'.depthLimit)
    {watched watched' : Productions}
    (hp : ∀ p s s', s.Alike s' → (watched p s).Alike (watched' p s')) {α : Type} (x : Script α)
    {s s' : State} (h : s.Alike s') :
    (x.watch setting watched s).Alike (x.watch setting' watched' s') := by
  induction x generalizing s s' with
  | done a => exact ⟨rfl, h⟩
  | step op next ih => exact (run_alike hdepth op h).andThen fun a t t' ht => ih a ht
  | group g body next ihBody ih =>
      exact (ihBody (h.begin g)).andThen fun b t t' ht => ih b (h.finish ht g)
  | loop body start next ihBody ih =>
      refine Outcome.Alike.andThen ?_ fun y t t' ht => ih y ht
      exact .iterate (fun y t t' ht => watchRound_alike (ihBody y ht)) _ _ start h
  | invoke p next ih => exact (hp p s s' h).andThen fun a t t' ht => ih a ht

/-- So does a production, however long the chains of references may be. -/
theorem watchProduction_alike (hdepth : setting.depthLimit = setting'.depthLimit) (n m : Nat)
    (p : Production) (s s' : State) (h : s.Alike s') :
    (watchProduction setting n p s).Alike (watchProduction setting' m p s') := by
  induction n generalizing m p s s' with
  | zero => trivial
  | succ n ih =>
      cases m with
      | zero => exact Outcome.Alike.broken_right _ _
      | succ m => exact watch_alike hdepth (ih m) p.script h

theorem alike_initial (limits : Limits) {ls ls' : List Lexeme}
    (h : Lexeme.bare ls = Lexeme.bare ls') :
    (State.initial limits ls).Alike (State.initial limits ls') where
  rest := h
  output := rfl
  pending := ⟨rfl, rfl⟩
  depth := rfl
  lost := rfl
  fuel := rfl
  looks := rfl
  delimiters := rfl
  diagnostics := Iff.rfl
  reported := ⟨nofun, nofun⟩

theorem watchFile_alike (limits : Limits) {ls ls' : List Lexeme}
    (h : Lexeme.bare ls = Lexeme.bare ls') :
    (watchFile limits ls).Alike (watchFile limits ls') := by
  have hdepth : Setting.depthLimit ⟨limits.depth, Lexeme.widthOf ls⟩
      = Setting.depthLimit ⟨limits.depth, Lexeme.widthOf ls'⟩ := rfl
  exact watch_alike hdepth (watchProduction_alike hdepth _ _) fileScript (alike_initial limits h)

/-- Two results of parsing are the same apart from layout. -/
def AlikeResults : Except ParseFailure Parsed → Except ParseFailure Parsed → Prop
  | .ok parsed, .ok parsed' => parsed.tree.bare = parsed'.tree.bare ∧
    (parsed.diagnostics = [] ↔ parsed'.diagnostics = []) ∧ parsed.taken = parsed'.taken
  | .error failure, .error failure' => failure = failure'
  | _, _ => False

theorem result_alike (limits : Limits) {s s' : State} (h : s.Alike s') :
    AlikeResults (s.result limits) (s'.result limits) := by
  rw [State.result, State.result, ← h.lost]
  cases s.lost with
  | some limit => rfl
  | none =>
      refine ⟨?_, h.diagnostics, ?_⟩
      · simp only [Tree.bare, h.output]
      · simp only [h.fuel]

/-- Lexemes with the same tokens are parsed with the same outcome. -/
theorem parseLexemes_alike (limits : Limits) {ls ls' : List Lexeme}
    (h : Lexeme.bare ls = Lexeme.bare ls') :
    AlikeResults (parseLexemes limits ls) (parseLexemes limits ls') := by
  have halike := watchFile_alike limits h
  have hleft := watchFile_not_broken limits ls
  have hright := watchFile_not_broken limits ls'
  rw [parseLexemes_eq_watch, parseLexemes_eq_watch]
  cases hrun : watchFile limits ls with
  | broken fault => exact absurd hrun (hleft fault)
  | stuck =>
      cases hrun' : watchFile limits ls' with
      | broken fault => exact absurd hrun' (hright fault)
      | stuck => rfl
      | ok u s' =>
          rw [hrun, hrun'] at halike
          exact halike.elim
  | ok u s =>
      cases hrun' : watchFile limits ls' with
      | broken fault => exact absurd hrun' (hright fault)
      | stuck =>
          rw [hrun, hrun'] at halike
          exact halike.elim
      | ok u' s' =>
          rw [hrun, hrun'] at halike
          exact result_alike limits halike.2

end Grammar

end Nominal
