import Nominal.Proofs.Anchors
import Nominal.Proofs.Keys.Spaced

/-!
# How Scripts Keep Empty Variables Apart

A run is followed that takes tokens only. For the current group it is kept in mind whether a token
has been come by since the last empty variable, wherever it was taken: in the group, in a group
that it contains, or in one around it. So the groups of a script make no difference, except that a
group for a variable may remain empty.

Most scripts are only asked to keep apart what they collect themselves. It is types that have to
show a token behind them.

## Main definitions

* `State.Spaced`: What has been collected is spaced, and whether there is a token behind it.
* `Spaces`: How a script gets from one such state to another.

## Theorems

* `Spaces.node`, `Spaces.frame`, `Spaces.enclose`: How groups are collected.
* `Spaces.loop`: A loop keeps what each round keeps.
-/

namespace Nominal

namespace Grammar

open Syntax (Kind KindSet Lexeme Tree)

/-- The trees of the current group are spaced, given whether there is a token in front of the
    group. If `last` says so, there is one behind them. -/
def State.Spaced (first last : Bool) (s : State) : Prop :=
  ∃ final, Tree.Spaced first s.output final ∧ (last = true → final = true)

/-- Whether there is a token behind what a script has collected, given whether there is one in
    front of that. -/
def Spaces (setting : Setting) (watched : Productions) {α : Type} (x : Script α) (last : Bool)
    (lasts : α → Bool) : Prop :=
  ∀ (first : Bool) (s t : State) (a : α), s.Spaced first last →
    x.watch setting watched s = .ok a t → t.Spaced first (lasts a)

namespace State.Spaced

variable {first last last' : Bool} {s t : State}

theorem weaken (h : s.Spaced first last) (hlast : last' = true → last = true) :
    s.Spaced first last' :=
  h.imp fun _ hs => ⟨hs.1, fun h => hs.2 (hlast h)⟩

/-- What is collected behind spaced trees may rely on the token behind them. -/
theorem append (h : s.Spaced first last) {us : List Tree} {final : Bool}
    (hus : Tree.Spaced last us final) (hfinal : last' = true → final = true)
    (ht : t.output = s.output ++ us) : t.Spaced first last' := by
  rcases h with ⟨mid, hs, hmid⟩
  unfold State.Spaced
  rw [ht]
  cases last with
  | true => exact ⟨final, hs.append (hmid rfl ▸ hus), hfinal⟩
  | false =>
      cases mid with
      | false => exact ⟨final, hs.append hus, hfinal⟩
      | true =>
          -- There is a token although nobody relies on it.
          rcases hus.mono with ⟨final', hus', hfinal'⟩
          exact ⟨final', hs.append hus', fun h => hfinal' (hfinal h)⟩

theorem tokens (h : s.Spaced first last) (ls : List Lexeme)
    (ht : t.output = s.output ++ ls.map .token) : t.Spaced first last := by
  rcases Tree.Spaced.tokens last ls with ⟨final, hls, hfinal⟩
  exact h.append hls hfinal ht

/-- A group starts behind what has been collected before it. -/
theorem start (last : Bool) (h : s.output = []) : s.Spaced last last := by
  unfold State.Spaced
  rw [h]
  exact ⟨last, .nil last, id⟩

end State.Spaced

namespace Spaces

variable {setting : Setting} {watched : Productions} {α β : Type}
variable {last : Bool} {lasts : α → Bool}

theorem weaken {x : Script α} {lasts' : α → Bool} (h : Spaces setting watched x last lasts)
    (hlasts : ∀ a, lasts' a = true → lasts a = true) : Spaces setting watched x last lasts' :=
  fun first s t a hs hx => (h first s t a hs hx).weaken (hlasts a)

/-- A script that needs no token in front of it. -/
theorem pre {x : Script α} (h : Spaces setting watched x false lasts) :
    Spaces setting watched x last lasts :=
  fun first s t a hs hx => h first s t a (hs.weaken nofun) hx

/-- Whether there is a token behind a script may be of no interest. -/
theorem loose {x : Script α} (h : Spaces setting watched x last lasts) :
    Spaces setting watched x last fun _ => false := h.weaken fun _ => nofun

/-- A script that is over with the answer `a` has to meet what is asked of that answer. -/
theorem done {a : α} (h : lasts a = true → last = true) :
    Spaces setting watched (Pure.pure a) last lasts := by
  intro first s t b hs hx
  cases hx
  exact hs.weaken h

theorem pure (a : α) : Spaces setting watched (Pure.pure a) last fun _ => last := done id

/-- One script after another. -/
theorem bind {x : Script β} {f : β → Script α} {mid : β → Bool}
    (hx : Spaces setting watched x last mid)
    (hf : ∀ b, Spaces setting watched (f b) (mid b) lasts) :
    Spaces setting watched (x >>= f) last lasts := by
  intro first s t a hs h
  rw [watch_bind] at h
  rcases Outcome.andThen_eq_ok h with ⟨b, r, hfirst, hnext⟩
  exact hf b first r t a (hx first s r b hs hfirst) hnext

theorem ite {c : Prop} [Decidable c] {x y : Script α} (hx : Spaces setting watched x last lasts)
    (hy : Spaces setting watched y last lasts) :
    Spaces setting watched (if c then x else y) last lasts := by
  split
  · exact hx
  · exact hy

theorem perform (op : Op) : Spaces setting watched (Script.perform op) last fun _ => last := by
  intro first s t a hs h
  rw [watch_perform] at h
  rcases output_run (run_of_watch h) with ⟨ls, ho⟩
  exact hs.tokens ls ho

/-- Behind a token that is taken there is a token. -/
theorem take : Spaces setting watched Script.take last fun _ => true := by
  intro first s t u hs h
  rw [Script.take, watch_perform] at h
  rcases watch_take_ok h with ⟨l, ls, -, hl, rfl⟩
  have hflush : s.flush.Spaced first last := hs.tokens s.pending rfl
  refine hflush.append (.token hl (.nil true)) id ?_
  simp only [State.takeLexeme, State.flush, output_spend, pending_spend]

/-- A group that makes a node of its own, which is no variable and no parameter. -/
theorem node {x : Script α} {k : Kind} (hx : Spaces setting watched x last lasts)
    (hk : [Kind.varDeclarator, .lambdaParam].contains k = false) :
    Spaces setting watched (Script.node k x) last lasts := by
  intro first s t a hs h
  rcases Outcome.andThen_eq_ok h with ⟨_, r, hbody, hdone⟩
  cases hdone
  rcases hx last _ r a (.start last rfl) hbody with ⟨final, hr, hfinal⟩
  have hflush : s.flush.Spaced first last := hs.tokens s.pending rfl
  refine hflush.append (.node ?_ ?_ hr (.nil final)) hfinal rfl
  · rintro rfl
    cases hk
  · rintro rfl
    cases hk

/-- A group that is only a place to return to. -/
theorem frame {x : Script α} (hx : Spaces setting watched x last lasts) :
    Spaces setting watched (Script.frame x) last lasts := by
  intro first s t a hs h
  rcases Outcome.andThen_eq_ok h with ⟨_, r, hbody, hdone⟩
  cases hdone
  rcases hx last _ r a (.start last rfl) hbody with ⟨final, hr, hfinal⟩
  have hflush : s.flush.Spaced first last := hs.tokens s.pending rfl
  exact hflush.append hr hfinal rfl

/-- A group that wraps what was collected before it. -/
theorem enclose {x : Script α} {k : Kind} (hx : Spaces setting watched x last lasts)
    (hk : [Kind.varDeclarator, .lambdaParam].contains k = false) :
    Spaces setting watched (Script.enclose k x) last lasts := by
  intro first s t a hs h
  rcases Outcome.andThen_eq_ok h with ⟨_, r, hbody, hdone⟩
  cases hdone
  rcases hx first s r a hs hbody with ⟨final, hr, hfinal⟩
  refine ⟨final, .node ?_ ?_ hr (.nil final), hfinal⟩
  · rintro rfl
    cases hk
  · rintro rfl
    cases hk

/-- A loop keeps what each round keeps. -/
theorem loop {σ : Type} {body : σ → Script (Bool × σ)} {start : σ} {next : σ → Script α}
    (hbody : ∀ x, Spaces setting watched (body x) last fun _ => last)
    (hnext : ∀ x, Spaces setting watched (next x) last lasts) :
    Spaces setting watched (.loop body start next) last lasts := by
  intro first s t a hs h
  rcases Outcome.andThen_eq_ok h with ⟨y, r, hloop, hrest⟩
  refine hnext y first r t a (Keeps.iterate (I := State.Spaced first last) ?_ hloop hs) hrest
  intro x p b q hround hp
  rcases Outcome.andThen_eq_ok hround with ⟨c, u, hwatch, hanswer⟩
  rw [watchRound] at hanswer
  split at hanswer
  · cases hanswer
  · cases hanswer
    exact hbody x first p _ _ hp hwatch

theorem repeatWhile {body : Script Bool} (hbody : Spaces setting watched body last fun _ => last) :
    Spaces setting watched (Script.repeatWhile body) last fun _ => last :=
  loop (fun _ => bind hbody fun _ => pure _) fun _ => pure _

/-- What a loop does may rely on what its condition has come by. -/
theorem whileTrue {condition : Script Bool} {body : Script Unit} {mid : Bool → Bool}
    (hcondition : Spaces setting watched condition last mid)
    (hbody : Spaces setting watched body (mid true) fun _ => last)
    (hend : last = true → mid false = true) :
    Spaces setting watched (Script.whileTrue condition body) last fun _ => last := by
  refine repeatWhile (bind hcondition fun goes => ?_)
  cases goes with
  | true => exact bind hbody fun _ => pure _
  | false => exact done hend

/-- Rounds that need no token in front of them. -/
theorem repeats {body : Script Bool} (hbody : Spaces setting watched body false fun _ => false) :
    Spaces setting watched (Script.repeatWhile body) last fun _ => false := (repeatWhile hbody).pre

theorem whiles {condition : Script Bool} {body : Script Unit}
    (hcondition : Spaces setting watched condition false fun _ => false)
    (hbody : Spaces setting watched body false fun _ => false) :
    Spaces setting watched (Script.whileTrue condition body) last fun _ => false :=
  (whileTrue hcondition hbody nofun).pre

/-! ### Scripts that collect tokens only -/

section Tokens

theorem isAt (k : Kind) : Spaces setting watched (Script.isAt k) last fun _ => last :=
  bind (perform .look) fun _ => pure _

theorem isAtOneOf (ks : KindSet) :
    Spaces setting watched (Script.isAtOneOf ks) last fun _ => last :=
  bind (perform .look) fun _ => pure _

theorem nextIs (k : Kind) : Spaces setting watched (Script.nextIs k) last fun _ => last :=
  bind (perform (.ahead 1)) fun _ => pure _

theorem isAtPair (j k : Kind) : Spaces setting watched (Script.isAtPair j k) last fun _ => last :=
  bind (isAt j) fun _ => ite (nextIs k) (pure _)

/-- If a token is taken, there is one. -/
theorem eats (k : Kind) : Spaces setting watched (Script.eat k) last fun taken => last || taken :=
  bind (isAt k) fun _ => ite (bind take fun _ => done fun _ => rfl)
    (done fun h => by rwa [Bool.or_false] at h)

theorem eat (k : Kind) : Spaces setting watched (Script.eat k) last fun _ => last :=
  (eats k).weaken fun _ => Bool.or_inl

theorem expect (k : Kind) (what : String) :
    Spaces setting watched (Script.expect k what) last fun _ => last :=
  bind (eat k) fun _ => ite (pure _) (perform (.report _ _))

theorem expectsName (what : String) :
    Spaces setting watched (Script.expectName what) last fun named => last || named := by
  refine bind (eats .id) fun taken => ?_
  cases taken with
  | true => exact done id
  | false => exact bind (perform (.report _ _)) fun _ => done id

theorem expectName (what : String) :
    Spaces setting watched (Script.expectName what) last fun _ => last :=
  (expectsName what).weaken fun _ => Bool.or_inl

theorem expectSemicolon : Spaces setting watched Script.expectSemicolon last fun _ => last :=
  bind (eat .semicolon) fun _ => ite (pure _) (bind (perform .reportSemicolon) fun _ => pure _)

theorem isBefore (k : Kind) : Spaces setting watched (Script.isBefore k) last fun _ => last :=
  bind (perform .atEnd) fun _ => ite (pure _) (bind (isAt k) fun _ => pure _)

theorem takeOpening : Spaces setting watched Script.takeOpening last fun _ => true :=
  bind (perform .openDelimiter) fun _ => take

theorem expectClosing (k : Kind) (unclosed : Diagnostic.Kind) :
    Spaces setting watched (Script.expectClosing k unclosed) last fun _ => last :=
  bind (eat k) fun _ => ite (perform .closeDelimiter) (perform (.reportUnclosed unclosed))

theorem reportAndTake (kind : Diagnostic.Kind) :
    Spaces setting watched (Script.reportAndTake kind) last fun _ => last :=
  bind (perform (.report _ _)) fun _ => bind (perform .exhausted) fun _ =>
    ite (pure _) ((node take rfl).weaken fun _ _ => rfl)

theorem recover (kind : Diagnostic.Kind) (recovery : KindSet) :
    Spaces setting watched (Script.recover kind recovery) last fun _ => last := by
  have hstops : Spaces setting watched
      (do if ← Script.isAtOneOf recovery then return true else Script.atEnd : Script Bool) last
      fun _ => last := bind (isAtOneOf _) fun _ => ite (pure _) (perform .atEnd)
  have hskip : Spaces setting watched
      (do Script.report kind
          Script.whileTrue (do return !(← (do
            if ← Script.isAtOneOf recovery then return true else Script.atEnd : Script Bool)))
            Script.take : Script Unit) last fun _ => last :=
    bind (perform (.report _ _)) fun _ =>
      whileTrue (bind hstops fun _ => pure _) (take.weaken fun _ _ => rfl) id
  exact bind hstops fun _ => ite (perform (.report _ _)) (node hskip rfl)

end Tokens

/-- One level deeper the same is collected, or nothing where that is too deep. -/
theorem deeper {x : Script Unit} (hx : Spaces setting watched x last fun _ => false) :
    Spaces setting watched (Script.deeper x) last fun _ => false :=
  bind (perform .enter) fun _ =>
    ite (bind hx fun _ => perform .leave) (node (done nofun) rfl)

end Spaces

end Grammar

end Nominal
