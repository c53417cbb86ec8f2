import Nominal.Proofs.Defined

/-!
# Limits Decide Only Whether There Is a Tree

No script can ask how many tokens may still be taken or how deep it is. So the limits of a run
show nowhere in what it reads and reports: they only make it lost. A run that is not lost goes
the same way with any looser limits, and the number of tokens that may still be taken is all
that tells the two apart.

That number goes down by one with each token, and nothing else ever changes it. A watched run
takes tokens only, each of them once, and all of them if it is not lost; so what has been
counted in the end is how many tokens there are. And where a token is taken that may not be
taken any more, there are more of them than the limit allows.

## Main definitions

* `Loosens`: One limit is at least as loose as another.
* `Limits.Loosen`: So are both limits of a run.
* `State.Counted`: What may still be taken and the tokens to come make up what was allowed.

## Theorems

* `exec_loosened`: A run that is not lost goes the same way with looser limits.
* `keeps_counted`: No run takes anything that is not counted.
* `parse_loosened`: The tree of a source does not depend on the limits.
-/

namespace Nominal

namespace Grammar

open Syntax (Kind Lexeme Tree)

/-- A limit is at least as loose as another one: it is larger, or there is none. -/
def Loosens : Option Nat → Option Nat → Prop
  | _, none => True
  | none, some _ => False
  | some m, some n => m ≤ n

/-- What a looser limit does not allow, no limit that is less loose allows. -/
theorem Loosens.any_le {tight loose : Option Nat} (h : Loosens tight loose) {n : Nat}
    (hn : loose.any (· ≤ n) = true) : tight.any (· ≤ n) = true := by
  cases loose with
  | none => cases hn
  | some m =>
      cases tight with
      | none => exact h.elim
      | some k =>
          rw [Option.any_some, decide_eq_true_iff] at hn ⊢
          exact Nat.le_trans h hn

/-- Both limits are at least as loose as others. -/
structure Limits.Loosen (tight loose : Limits) : Prop where
  tokens : Loosens tight.tokens loose.tokens
  depth : Loosens tight.depth loose.depth

/-! ### The same run with looser limits -/

/-- The same state, with another number of tokens that may still be taken. -/
def State.refuel (s : State) (fuel : Option Nat) : State := { s with fuel := fuel }

namespace State

variable (s : State) (fuel : Option Nat)

@[simp]
theorem rest_refuel : (s.refuel fuel).rest = s.rest := rfl

@[simp]
theorem looks_refuel : (s.refuel fuel).looks = s.looks := rfl

@[simp]
theorem next?_refuel : (s.refuel fuel).next? = s.next? := rfl

@[simp]
theorem lastEnd_refuel : (s.refuel fuel).lastEnd = s.lastEnd := rfl

@[simp]
theorem delimiters_refuel : (s.refuel fuel).delimiters = s.delimiters := rfl

@[simp]
theorem depth_refuel : (s.refuel fuel).depth = s.depth := rfl

@[simp]
theorem lost_refuel : (s.refuel fuel).lost = s.lost := rfl

end State

variable {setting loose : Setting} {productions loosened : Productions}

/-- The depth limit of a setting is at least as loose as that of another one. -/
structure Setting.Loosen (setting loose : Setting) : Prop where
  depth : Loosens setting.depthLimit loose.depthLimit
  length : loose.length = setting.length

theorem nextSpan_refuel (h : setting.Loosen loose) (s : State) (fuel : Option Nat) :
    (s.refuel fuel).nextSpan loose = s.nextSpan setting := by
  rw [State.nextSpan, State.nextSpan, h.length]
  rfl

theorem suppression_refuel (h : setting.Loosen loose) (s : State) (fuel : Option Nat)
    (span : Text.Span) :
    (s.refuel fuel).suppression loose span = s.suppression setting span := by
  rw [State.suppression, State.suppression, h.length]
  rfl

theorem reportAt_refuel (s : State) (fuel : Option Nat) (offset : Nat) (d : Diagnostic) :
    (s.refuel fuel).reportAt offset d = (s.reportAt offset d).refuel fuel := by
  rw [State.reportAt, State.reportAt]
  by_cases h : s.reportedAt = some offset
  · rw [if_pos h, if_pos (show (s.refuel fuel).reportedAt = some offset from h)]
  · rw [if_neg h, if_neg (show (s.refuel fuel).reportedAt ≠ some offset from h)]
    rfl

theorem fuel_reportAt (s : State) (offset : Nat) (d : Diagnostic) :
    (s.reportAt offset d).fuel = s.fuel := by
  unfold State.reportAt
  split <;> rfl

/-- What becomes of the tokens that may still be taken. -/
theorem spend_cases (s : State) :
    (s.fuel = none ∧ s.spend = s) ∨
      (s.fuel = some 0 ∧ s.spend = { s with lost := s.lost <|> some .tokens }) ∨
      ∃ n, s.fuel = some (n + 1) ∧ s.spend = { s with fuel := some n } := by
  rw [State.spend]
  cases hfuel : s.fuel with
  | none => exact .inl ⟨rfl, rfl⟩
  | some n =>
      cases n with
      | zero => exact .inr (.inl ⟨rfl, rfl⟩)
      | succ n => exact .inr (.inr ⟨n, rfl, rfl⟩)

/-- What one run may still spend, a run with more to spend may spend as well. -/
theorem spend_refuel {s : State} {fuel : Option Nat} (hfuel : Loosens s.fuel fuel)
    (hlost : s.spend.lost = none) :
    ∃ fuel', Loosens s.spend.fuel fuel' ∧ (s.refuel fuel).spend = s.spend.refuel fuel' := by
  cases hs : s.fuel with
  | none =>
      cases fuel with
      | none => exact ⟨none, trivial, by simp only [State.spend, State.refuel, hs]⟩
      | some n =>
          rw [hs] at hfuel
          exact hfuel.elim
  | some m =>
      cases m with
      | zero =>
          have hmet := isSome_or_met s.lost .tokens
          have hspend : s.spend.lost = (s.lost <|> some .tokens) := by rw [State.spend, hs]
          rw [← hspend, hlost] at hmet
          cases hmet
      | succ m =>
          cases fuel with
          | none => exact ⟨none, trivial, by simp only [State.spend, State.refuel, hs]⟩
          | some n =>
              rw [hs] at hfuel
              obtain ⟨k, rfl⟩ : ∃ k, n = k + 1 := ⟨n - 1, by simp only [Loosens] at hfuel; omega⟩
              refine ⟨some k, ?_, by simp only [State.spend, State.refuel, hs]⟩
              simp only [State.spend, hs]
              exact Nat.le_of_succ_le_succ hfuel

/-- An outcome is the same as another one, apart from the number of tokens that may still be
    taken, unless the run is lost. -/
def Outcome.Follows {α : Type} (o o' : Outcome α) : Prop :=
  ∀ a t, o = .ok a t → t.lost = none → ∃ fuel, Loosens t.fuel fuel ∧ o' = .ok a (t.refuel fuel)

theorem Outcome.Follows.ok {α : Type} {a : α} {s : State} {fuel : Option Nat}
    (h : Loosens s.fuel fuel) : (Outcome.ok a s).Follows (.ok a (s.refuel fuel)) := by
  intro b t hok _
  cases hok
  exact ⟨fuel, h, rfl⟩

/-- An operation does the same with looser limits. -/
theorem run_loosened (hloose : setting.Loosen loose) (op : Op) (s : State) (fuel : Option Nat)
    (hfuel : Loosens s.fuel fuel) :
    (op.run setting s).Follows (op.run loose (s.refuel fuel)) := by
  intro a t h hlost
  have hskip : (s.refuel fuel).skipTrivia = s.skipTrivia.refuel fuel := rfl
  cases op with
  | look =>
      simp only [Op.run, hskip, State.looks_refuel] at h ⊢
      cases hlooks : s.skipTrivia.looks with
      | zero =>
          rw [hlooks] at h
          cases h
      | succ n =>
          rw [hlooks] at h
          cases h
          exact ⟨fuel, hfuel, rfl⟩
  | require kind =>
      simp only [Op.run, hskip, State.looks_refuel, State.next?_refuel] at h ⊢
      cases hlooks : s.skipTrivia.looks with
      | zero =>
          rw [hlooks] at h
          cases h
      | succ n =>
          simp only [hlooks] at h
          by_cases hkind : s.skipTrivia.next? = some kind
          · rw [if_pos hkind] at h
            cases h
            exact ⟨fuel, hfuel, if_pos hkind⟩
          · rw [if_neg hkind] at h
            cases h
  | take =>
      simp only [Op.run, State.rest_refuel] at h ⊢
      cases hrest : s.rest with
      | nil =>
          rw [hrest] at h
          cases h
      | cons l ls =>
          rw [hrest] at h
          cases h
          rcases spend_refuel hfuel hlost with ⟨fuel', hfuel', hspend⟩
          refine ⟨fuel', hfuel', ?_⟩
          simp only [State.takeLexeme, hspend]
          rfl
  | report kind detail =>
      simp only [Op.run, hskip, nextSpan_refuel hloose, suppression_refuel hloose,
        reportAt_refuel] at h ⊢
      split at h
      · cases h
      · next hspan =>
          cases h
          exact ⟨fuel, by rwa [fuel_reportAt], if_neg hspan⟩
  | reportSemicolon =>
      simp only [Op.run, hskip, State.lastEnd_refuel, nextSpan_refuel hloose, reportAt_refuel] at h ⊢
      cases hend : s.lastEnd with
      | none =>
          rw [hend] at h
          cases h
          exact ⟨fuel, by rwa [fuel_reportAt], rfl⟩
      | some offset =>
          rw [hend] at h
          cases h
          exact ⟨fuel, by rwa [fuel_reportAt], rfl⟩
  | reportUnclosed kind =>
      simp only [Op.run, State.delimiters_refuel] at h ⊢
      cases hdelimiters : s.delimiters with
      | nil =>
          rw [hdelimiters] at h
          cases h
          exact ⟨fuel, hfuel, rfl⟩
      | cons opening delimiters =>
          have hpop : ({ s.refuel fuel with delimiters := delimiters } : State).skipTrivia
              = ({ s with delimiters := delimiters } : State).skipTrivia.refuel fuel := rfl
          simp only [hdelimiters] at h
          simp only [hpop, nextSpan_refuel hloose, reportAt_refuel]
          split at h
          · cases h
          · next hspan =>
              cases h
              exact ⟨fuel, by rwa [fuel_reportAt], if_neg hspan⟩
  | openDelimiter =>
      cases h
      refine ⟨fuel, hfuel, ?_⟩
      simp only [Op.run, hskip, nextSpan_refuel hloose]
      rfl
  | enter =>
      simp only [Op.run, State.depth_refuel] at h ⊢
      by_cases hdeep : setting.depthLimit.any (· ≤ s.depth) = true
      · rw [if_pos hdeep] at h
        cases h
        have hmet := isSome_or_met s.lost .depth
        rw [show (s.lost <|> some .depth) = none from hlost] at hmet
        cases hmet
      · rw [if_neg hdeep] at h
        cases h
        exact ⟨fuel, hfuel, if_neg fun hdeep' => hdeep (hloose.depth.any_le hdeep')⟩
  | _ =>
      cases h
      exact ⟨fuel, hfuel, rfl⟩

/-- No step makes a lost run go on as if nothing had happened. -/
def StaysLost {α β : Type} (f : α → State → Outcome β) : Prop :=
  ∀ {a s b t}, f a s = .ok b t → s.lost.isSome → t.lost.isSome

theorem StaysLost.running {α β : Type} {f : α → State → Outcome β} (hf : StaysLost f) {a : α}
    {s t : State} {b : β} (h : f a s = .ok b t) (ht : t.lost = none) : s.lost = none := by
  cases hs : s.lost with
  | none => rfl
  | some limit =>
      have hlost := hf h (by rw [hs]; rfl)
      rw [ht] at hlost
      cases hlost

theorem StaysLost.iterate {σ : Type} {step : σ → State → Outcome (Bool × σ)}
    (hstep : StaysLost step) {n : Nat} {x y : σ} {s t : State}
    (h : Grammar.iterate step n x s = .ok y t) (hs : s.lost.isSome) : t.lost.isSome := by
  refine iterate_chain (R := fun s t => s.lost.isSome → t.lost.isSome) ?_ hstep h hs
  intro r s t hrs hst hr
  exact hst (hrs hr)

namespace Outcome.Follows

variable {α β : Type}

theorem andThen {o o' : Outcome α} {f f' : α → State → Outcome β} (ho : o.Follows o')
    (hlost : StaysLost f)
    (hf : ∀ a t fuel, Loosens t.fuel fuel → (f a t).Follows (f' a (t.refuel fuel))) :
    (o.andThen f).Follows (o'.andThen f') := by
  intro b t h ht
  rcases Outcome.andThen_eq_ok h with ⟨a, r, hfirst, hnext⟩
  rcases ho a r hfirst (hlost.running hnext ht) with ⟨fuel, hfuel, rfl⟩
  exact hf a r fuel hfuel b t hnext ht

theorem iterate {σ : Type} {step step' : σ → State → Outcome (Bool × σ)} (hlost : StaysLost step)
    (hstep : ∀ x s fuel, Loosens s.fuel fuel → (step x s).Follows (step' x (s.refuel fuel)))
    (n : Nat) (x : σ) (s : State) (fuel : Option Nat) (hfuel : Loosens s.fuel fuel) :
    (Grammar.iterate step n x s).Follows (Grammar.iterate step' n x (s.refuel fuel)) := by
  induction n generalizing x s fuel with
  | zero => exact fun _ _ h => nomatch h
  | succ n ih =>
      refine (hstep x s fuel hfuel).andThen ?_ fun r t fuel' hfuel' => ?_
      · intro r s b t h hs
        dsimp only at h
        split at h
        · exact hlost.iterate h hs
        · cases h
          exact hs
      · split
        · exact ih r.2 t fuel' hfuel'
        · exact .ok hfuel'

end Outcome.Follows

/-- A run that is not lost goes the same way with looser limits. -/
theorem exec_loosened (hloose : setting.Loosen loose)
    (hlost : ∀ {p s a t}, productions p s = .ok a t → s.lost.isSome → t.lost.isSome)
    (hp : ∀ p s fuel, Loosens s.fuel fuel → (productions p s).Follows (loosened p (s.refuel fuel)))
    {α : Type} (x : Script α) (s : State) (fuel : Option Nat) (hfuel : Loosens s.fuel fuel) :
    (x.exec setting productions s).Follows (x.exec loose loosened (s.refuel fuel)) := by
  have hstays : ∀ {β γ : Type} (f : β → Script γ),
      StaysLost fun b s => (f b).exec setting productions s :=
    fun f _ _ _ _ h => (relation_lost setting).exec hlost h
  induction x generalizing s fuel with
  | done a => exact .ok hfuel
  | step op next ih =>
      exact (run_loosened hloose op s fuel hfuel).andThen (hstays next) fun b t => ih b t
  | group g body next ihBody ih =>
      have hbegin : g.begin (s.refuel fuel) = (g.begin s).refuel fuel := by cases g <;> rfl
      have hfinish : ∀ t fuel', g.finish (s.refuel fuel) (t.refuel fuel')
          = (g.finish s t).refuel fuel' := by
        intro t fuel'
        cases g <;> rfl
      rw [Script.exec, Script.exec, hbegin]
      refine (ihBody (g.begin s) fuel (by cases g <;> exact hfuel)).andThen ?_ ?_
      · intro b t c u h ht
        exact hstays next h (by cases g <;> exact ht)
      · intro b t fuel' hfuel'
        rw [hfinish]
        exact ih b (g.finish s t) fuel' (by cases g <;> exact hfuel')
  | loop body start next ihBody ih =>
      refine Outcome.Follows.andThen ?_ (hstays next) fun y t => ih y t
      exact .iterate (hstays body) (fun y t => ihBody y t) _ start s fuel hfuel
  | invoke p next ih => exact (hp p s fuel hfuel).andThen (hstays next) fun b t => ih b t

theorem runProduction_loosened (hloose : setting.Loosen loose) (n : Nat) (p : Production)
    (s : State) (fuel : Option Nat) (hfuel : Loosens s.fuel fuel) :
    (runProduction setting n p s).Follows (runProduction loose n p (s.refuel fuel)) := by
  induction n generalizing p s fuel with
  | zero => exact fun _ _ h => nomatch h
  | succ n ih =>
      exact exec_loosened hloose ((relation_lost setting).runProduction ·) ih p.script s fuel hfuel

/-- Where there is a tree, a run has ended that was not lost. -/
theorem runFile_of_ok {limits : Limits} {lexemes : List Lexeme} {parsed : Parsed}
    (h : parseLexemes limits lexemes = .ok parsed) :
    ∃ s, runFile limits lexemes = .ok () s ∧ s.lost = none ∧ s.result limits = .ok parsed := by
  rw [parseLexemes_eq] at h
  cases hrun : runFile limits lexemes with
  | ok u s =>
      rw [hrun] at h
      refine ⟨s, rfl, ?_, h⟩
      cases hlost : s.lost with
      | none => rfl
      | some limit =>
          rw [Outcome.result, State.result, hlost] at h
          cases h
  | stuck =>
      rw [hrun] at h
      cases h
  | broken fault =>
      rw [hrun] at h
      cases h

/-- Where a limit is said to be met, a run has ended that was lost. -/
theorem runFile_of_exceeded {limits : Limits} {lexemes : List Lexeme} {limit : LimitError}
    (h : parseLexemes limits lexemes = .error (.exceeded limit)) :
    ∃ s, runFile limits lexemes = .ok () s ∧ s.lost = some limit := by
  rw [parseLexemes_eq] at h
  cases hrun : runFile limits lexemes with
  | ok u s =>
      rw [hrun, Outcome.result, State.result] at h
      cases hlost : s.lost with
      | none =>
          rw [hlost] at h
          cases h
      | some met =>
          rw [hlost] at h
          cases h
          exact ⟨s, rfl, hlost⟩
  | stuck =>
      rw [hrun] at h
      cases h
  | broken fault =>
      rw [hrun] at h
      cases h

/-- Looser limits make no difference to a tree that there is. -/
theorem parseLexemes_loosened {tight loose : Limits} (h : tight.Loosen loose)
    {lexemes : List Lexeme} {parsed : Parsed} (hparsed : parseLexemes tight lexemes = .ok parsed) :
    ∃ parsed', parseLexemes loose lexemes = .ok parsed' ∧ parsed'.tree = parsed.tree ∧
      parsed'.diagnostics = parsed.diagnostics := by
  rcases runFile_of_ok hparsed with ⟨t, hrun, hlost, hresult⟩
  have hsetting : Setting.Loosen ⟨tight.depth, Lexeme.widthOf lexemes⟩
      ⟨loose.depth, Lexeme.widthOf lexemes⟩ := ⟨h.depth, rfl⟩
  have hfollows := exec_loosened hsetting ((relation_lost _).runProduction ·)
    (runProduction_loosened hsetting _) fileScript (State.initial tight lexemes) loose.tokens
    h.tokens () t hrun hlost
  rcases hfollows with ⟨fuel, -, hloose⟩
  have hinitial : (State.initial tight lexemes).refuel loose.tokens
      = State.initial loose lexemes := rfl
  rw [hinitial] at hloose
  rw [State.result, hlost] at hresult
  cases hresult
  simp only [parseLexemes, hloose, State.result, State.lost_refuel, hlost]
  exact ⟨_, rfl, rfl, rfl⟩

/-! ### Counting tokens -/

/-- How many tokens have been taken of `total`. -/
def State.taken (total : Nat) (s : State) : Nat := total - s.tokensLeft

/-- What may still be taken and what has been taken make up the limit, and where more than
    that has been taken the run is lost. It is lost for that reason only then. -/
structure State.Counted (limit : Option Nat) (total : Nat) (s : State) : Prop where
  tokens : s.tokensLeft ≤ total
  fuel : s.fuel = limit.map (· - s.taken total)
  within : s.lost = none → ∀ n ∈ limit, s.taken total ≤ n
  beyond : s.lost = some .tokens → ∃ n ∈ limit, n < s.taken total

namespace State.Counted

variable {limit : Option Nat} {total : Nat} {s t : State}

/-- Counting depends on the tokens to come, on how many may be taken, and on whether the run
    is lost. -/
theorem of_eq (h : s.Counted limit total) (htokens : t.tokensLeft = s.tokensLeft)
    (hfuel : t.fuel = s.fuel) (hlost : t.lost = s.lost) : t.Counted limit total := by
  have htaken : t.taken total = s.taken total := by rw [State.taken, State.taken, htokens]
  exact {
    tokens := htokens ▸ h.tokens
    fuel := by rw [hfuel, htaken, h.fuel]
    within := by
      rw [hlost, htaken]
      exact h.within
    beyond := by
      rw [hlost, htaken]
      exact h.beyond }

/-- A token that is taken is counted. -/
theorem takeLexeme (h : s.Counted limit total) {l : Lexeme} {ls : List Lexeme}
    (hrest : s.rest = l :: ls) (hl : l.isTrivia = false) :
    (s.takeLexeme l ls).Counted limit total := by
  have htokens := tokensLeft_takeLexeme hrest hl
  have htotal := h.tokens
  have htaken : (s.takeLexeme l ls).taken total = s.taken total + 1 := by
    rw [State.taken, State.taken, htokens]
    omega
  have hfuel : (s.takeLexeme l ls).fuel = s.spend.fuel := rfl
  have hlost : (s.takeLexeme l ls).lost = s.spend.lost := rfl
  have hleft := h.fuel
  rcases spend_cases s with ⟨hnone, hspend⟩ | ⟨hzero, hspend⟩ | ⟨m, hsucc, hspend⟩
  · -- Nothing is counted where there is no limit.
    rw [hnone, eq_comm, Option.map_eq_none_iff] at hleft
    subst hleft
    exact {
      tokens := by omega
      fuel := by rw [hfuel, hspend, hnone, Option.map_none]
      within := fun _ _ hn => nomatch hn
      beyond := by
        rw [hlost, hspend]
        intro hmet
        rcases h.beyond hmet with ⟨n, hn, _⟩
        cases hn }
  · -- As many tokens have been taken as may be taken.
    rw [hzero, eq_comm, Option.map_eq_some_iff] at hleft
    rcases hleft with ⟨n, rfl, hn⟩
    exact {
      tokens := by omega
      fuel := by
        rw [hfuel, hspend, htaken, Option.map_some]
        exact hzero.trans (congrArg some (by omega))
      within := by
        rw [hlost, hspend]
        intro hnone
        have hmet := isSome_or_met s.lost .tokens
        rw [show (s.lost <|> some .tokens) = none from hnone] at hmet
        cases hmet
      beyond := fun _ => ⟨n, rfl, by omega⟩ }
  · rw [hsucc, eq_comm, Option.map_eq_some_iff] at hleft
    rcases hleft with ⟨n, rfl, hn⟩
    exact {
      tokens := by omega
      fuel := by
        rw [hfuel, hspend, htaken, Option.map_some]
        exact congrArg some (by omega)
      within := by
        rintro _ k ⟨⟩
        omega
      beyond := by
        rw [hlost, hspend, htaken]
        intro hmet
        rcases h.beyond hmet with ⟨k, hk, hlt⟩
        exact ⟨k, hk, by omega⟩ }

/-- A level of nesting is not counted as a token. -/
theorem enter (h : s.Counted limit total) {b : Bool} (hrun : Op.enter.run setting s = .ok b t) :
    t.Counted limit total := by
  simp only [Op.run] at hrun
  split at hrun
  · cases hrun
    refine ⟨h.tokens, h.fuel, fun hnone => ?_, fun hmet => ?_⟩
    · have hmet := isSome_or_met s.lost .depth
      rw [show (s.lost <|> some .depth) = none from hnone] at hmet
      cases hmet
    · refine h.beyond ?_
      change (s.lost <|> some .depth) = some .tokens at hmet
      cases hs : s.lost with
      | none =>
          rw [hs] at hmet
          cases hmet
      | some limit =>
          rw [hs] at hmet
          exact hmet
  · cases hrun
    exact h.of_eq rfl rfl rfl

end State.Counted

theorem tokensLeft_reportAt (s : State) (offset : Nat) (d : Diagnostic) :
    (s.reportAt offset d).tokensLeft = s.tokensLeft := by
  unfold State.reportAt
  split <;> rfl

/-- No other operation takes anything. -/
theorem run_counts_nothing {op : Op} (htake : op ≠ .take) (henter : op ≠ .enter) {s t : State}
    {a : op.Answer} (h : op.run setting s = .ok a t) :
    t.tokensLeft = s.tokensLeft ∧ t.fuel = s.fuel ∧ t.lost = s.lost := by
  have hskip : s.skipTrivia.tokensLeft = s.tokensLeft := by
    rw [State.tokensLeft, upcoming_skipTrivia]
    rfl
  cases acts_run h with
  | take => exact absurd rfl htake
  | tooDeep | deeper => exact absurd rfl henter
  | report | semicolonAhead | unclosed =>
      exact ⟨(tokensLeft_reportAt _ _ _).trans hskip, fuel_reportAt _ _ _, lost_reportAt _ _ _⟩
  | semicolonBehind => exact ⟨tokensLeft_reportAt _ _ _, fuel_reportAt _ _ _, lost_reportAt _ _ _⟩
  | closing | noneOpen | back => exact ⟨rfl, rfl, rfl⟩
  | glance | keep | opening => exact ⟨hskip, rfl, rfl⟩

/-- No watched run takes anything that is not counted. -/
theorem keeps_counted (limit : Option Nat) (total : Nat) :
    Keeps setting (State.Counted limit total) where
  op op s t a h hs := by
    by_cases htake : op = .take
    · subst htake
      rcases watch_take_ok h with ⟨l, ls, hrest, hl, rfl⟩
      exact hs.takeLexeme hrest hl
    by_cases henter : op = .enter
    · subst henter
      exact hs.enter (run_of_watch h)
    rcases run_counts_nothing htake henter (run_of_watch h) with ⟨htokens, hfuel, hlost⟩
    exact hs.of_eq htokens hfuel hlost
  begin g s h := by cases g <;> exact h.of_eq rfl rfl rfl
  finish g outer inner h := by cases g <;> exact h.of_eq rfl rfl rfl

/-- At the start nothing has been taken. -/
theorem counted_initial (limits : Limits) (lexemes : List Lexeme) :
    (State.initial limits lexemes).Counted limits.tokens
      (State.initial limits lexemes).tokensLeft where
  tokens := Nat.le_refl _
  fuel := by
    rw [State.taken, Nat.sub_self]
    exact Option.map_id'.symm
  within _ n _ := by
    rw [State.taken, Nat.sub_self]
    exact Nat.zero_le n
  beyond h := nomatch h

/-- The run of a whole file takes nothing that is not counted. -/
theorem counted_runFile {limits : Limits} {lexemes : List Lexeme} {s : State}
    (h : runFile limits lexemes = .ok () s) :
    s.Counted limits.tokens (Lexeme.bare lexemes).length := by
  have htotal : (State.initial limits lexemes).tokensLeft = (Lexeme.bare lexemes).length :=
    List.length_map _
  have hinitial := counted_initial limits lexemes
  rw [htotal] at hinitial
  rw [runFile_eq_watchFile] at h
  exact (keeps_counted _ _).watch ((keeps_counted _ _).watchProduction · ·) h hinitial

/-- If it is not lost, it has taken all tokens in the end. -/
theorem taken_runFile {limits : Limits} {lexemes : List Lexeme} {s : State} (total : Nat)
    (h : runFile limits lexemes = .ok () s) (hlost : s.lost = none) : s.taken total = total := by
  have hall := exec_fileScript h hlost
  have hkept := (relation_material _).exec ((relation_material _).runProduction ·) h
  rw [← hall, State.material, List.append_assoc, List.append_right_eq_self,
    List.append_eq_nil_iff] at hkept
  rw [State.taken, State.tokensLeft, State.upcoming, hkept.2]
  exact Nat.sub_zero total

/-- Limits decide only whether there is a tree. A source that has a tree has the same one, with
    the same diagnostics, under all looser limits. What was counted then is the number of its
    tokens, which is within the limit. And the limit on tokens is met only if there are more of
    them. -/
theorem parse_loosened (limits : Limits) (source : String) :
    (∀ parsed, parseWith limits source = .ok parsed →
      (∀ loose, limits.Loosen loose → ∃ parsed', parseWith loose source = .ok parsed' ∧
        parsed'.tree = parsed.tree ∧ parsed'.diagnostics = parsed.diagnostics) ∧
      ∀ fuel ∈ limits.tokens, parsed.taken = (Lexeme.bare (Syntax.lex source)).length ∧
        parsed.taken ≤ fuel) ∧
    (parseWith limits source = .error (.exceeded .tokens) →
      ∃ fuel ∈ limits.tokens, fuel < (Lexeme.bare (Syntax.lex source)).length) := by
  constructor
  · intro parsed hparsed
    refine ⟨fun loose hloose => parseLexemes_loosened hloose hparsed, ?_⟩
    rcases runFile_of_ok hparsed with ⟨s, hrun, hlost, hresult⟩
    have hcounted := counted_runFile hrun
    have htaken := taken_runFile (Lexeme.bare (Syntax.lex source)).length hrun hlost
    intro fuel hfuel
    have hwithin := hcounted.within hlost fuel hfuel
    have hleft := hcounted.fuel
    rw [Option.mem_def.mp hfuel, Option.map_some] at hleft
    rw [State.result, hlost] at hresult
    simp only [Option.mem_def.mp hfuel, hleft] at hresult
    cases hresult
    dsimp only
    omega
  · intro hexceeded
    rcases runFile_of_exceeded hexceeded with ⟨s, hrun, hlost⟩
    rcases (counted_runFile hrun).beyond hlost with ⟨fuel, hfuel, hlt⟩
    exact ⟨fuel, hfuel, Nat.lt_of_lt_of_le hlt (Nat.sub_le _ _)⟩

/-- Three tokens are counted where four may be taken, and are too many where two may be. -/
theorem parse_loosened_sum :
    (∃ parsed parsed', parseWith ⟨some 4, some 8⟩ "x + 1" = .ok parsed ∧
      parsed.taken = (Lexeme.bare (Syntax.lex "x + 1")).length ∧
      parseWith ⟨none, none⟩ "x + 1" = .ok parsed' ∧ parsed'.tree = parsed.tree) ∧
    ∃ fuel ∈ some 2, fuel < (Lexeme.bare (Syntax.lex "x + 1")).length := by
  have hok : (parseWith ⟨some 4, some 8⟩ "x + 1").isOk = true := by decide +kernel
  have hexceeded : (match parseWith ⟨some 2, some 8⟩ "x + 1" with
      | .error (.exceeded .tokens) => true
      | _ => false) = true := by decide +kernel
  constructor
  · cases hparse : parseWith ⟨some 4, some 8⟩ "x + 1" with
    | error failure =>
        rw [hparse] at hok
        cases hok
    | ok parsed =>
        have hparsed := (parse_loosened ⟨some 4, some 8⟩ "x + 1").1 parsed hparse
        rcases hparsed.1 ⟨none, none⟩ ⟨trivial, trivial⟩ with ⟨parsed', hloose, htree, -⟩
        exact ⟨parsed, parsed', rfl, (hparsed.2 4 rfl).1, hloose, htree⟩
  · refine (parse_loosened ⟨some 2, some 8⟩ "x + 1").2 ?_
    split at hexceeded
    · assumption
    · cases hexceeded

end Grammar

end Nominal
