import Nominal.Proofs.Derived.Spelling

/-!
# Nodes That Start and End with a Token

Trivia goes to whatever group is collecting when a token behind it is taken, or when a group
starts behind it. So a node starts with a token if the trivia in front of it has been set aside
before its group starts, and it ends with a token if nothing that would collect trivia comes after
its last token. What would do so is a group that remains empty.

How these things change is followed from place to place while a script is read without mistakes.
`Place.Tidy` says whether the current group started in front of a token, whether the next token is
known to come at once, and whether anything has been collected. A token is only taken where it
comes at once, and so are groups only started there, with the exception of the parameters of a
method: trivia in front of them belongs to them.

## Main definitions

* `Tree.StartsWithToken`, `Tree.EndsWithToken`: What trees start and end with, apart from nodes.
* `Tree.IsTight`: A tree with nodes that start and end with a token.
* `Place.Tidy`: What is known of the nodes that have been collected, and of what is being collected.
* `Steps`: How a reading gets from one such assertion to another.

## Theorems

* `Steps.node`, `Steps.frame`, `Steps.enclose`: How groups are collected.
* `Steps.repeatWhile`: What is known behind a loop.
-/

namespace Nominal

namespace Syntax

namespace Tree

/-- Trees whose first leaf is a token and no trivia. -/
def StartsWithToken (ts : List Tree) : Prop :=
  ∃ l, (leavesOf ts).head? = some l ∧ l.isTrivia = false

/-- Trees whose last leaf is a token and no trivia. -/
def EndsWithToken (ts : List Tree) : Prop :=
  ∃ l, (leavesOf ts).getLast? = some l ∧ l.isTrivia = false

/-- A tree in which every node starts and ends with a token, apart from trivia in front of the
    parameters of a method. -/
inductive IsTight : Tree → Prop where
  | token (l : Lexeme) : IsTight (token l)
  | node {kind : Kind} {children : List Tree} : (kind ≠ .paramList → StartsWithToken children) →
    EndsWithToken children → (∀ t ∈ children, IsTight t) → IsTight (node kind children)

variable {ts us : List Tree}

theorem StartsWithToken.append (h : StartsWithToken ts) (us : List Tree) :
    StartsWithToken (ts ++ us) := by
  rcases h with ⟨l, hhead, hl⟩
  refine ⟨l, ?_, hl⟩
  rw [leavesOf_append, List.head?_append, hhead, Option.some_or]

/-- What has no leaves in front of it starts all. -/
theorem StartsWithToken.behind (h : StartsWithToken us) (hts : leavesOf ts = []) :
    StartsWithToken (ts ++ us) := by
  unfold StartsWithToken
  rwa [leavesOf_append, hts, List.nil_append]

theorem EndsWithToken.behind (ts : List Tree) (h : EndsWithToken us) :
    EndsWithToken (ts ++ us) := by
  rcases h with ⟨l, hlast, hl⟩
  refine ⟨l, ?_, hl⟩
  rw [leavesOf_append, List.getLast?_append, hlast, Option.some_or]

theorem EndsWithToken.ne_nil (h : EndsWithToken ts) : leavesOf ts ≠ [] := by
  rcases h with ⟨l, hlast, _⟩
  intro hnil
  rw [hnil] at hlast
  cases hlast

theorem startsWithToken_singleton {l : Lexeme} (h : l.isTrivia = false) :
    StartsWithToken [token l] := ⟨l, rfl, h⟩

theorem endsWithToken_singleton {l : Lexeme} (h : l.isTrivia = false) :
    EndsWithToken [token l] := ⟨l, rfl, h⟩

/-- A node starts with what its children start with. -/
theorem StartsWithToken.node (h : StartsWithToken ts) (kind : Kind) :
    StartsWithToken [node kind ts] := by
  unfold StartsWithToken
  rwa [leavesOf, leavesOf, List.append_nil, leaves]

theorem EndsWithToken.node (h : EndsWithToken ts) (kind : Kind) :
    EndsWithToken [node kind ts] := by
  unfold EndsWithToken
  rwa [leavesOf, leavesOf, List.append_nil, leaves]

end Tree

end Syntax

namespace Grammar

open Syntax (Kind KindSet Lexeme Tree)
open Syntax.Tree (StartsWithToken EndsWithToken)

/-- What has been collected is tight and ends with a token. If the group has `begun` in front of a
    token, it starts with a token as well. If the place is `settled`, the next token comes at once,
    and if the group is `filled`, something has been collected. -/
structure Place.Tidy (begun settled filled : Bool) (p : Place) : Prop where
  tight : ∀ t ∈ p.output, t.IsTight
  starts : begun = true →
    StartsWithToken p.output ∨ Tree.leavesOf p.output = [] ∧ p.pending = [] ∧ p.IsSettled
  ends : EndsWithToken p.output ∨ filled = false ∧ Tree.leavesOf p.output = []
  settled : settled = true → p.IsSettled

namespace Place.Tidy

variable {begun settled filled : Bool} {p q : Place}

/-- Less may be said. -/
theorem weaken {settled' filled' : Bool} (h : p.Tidy begun settled filled)
    (hsettled : settled' = true → settled = true) (hfilled : filled' = true → filled = true) :
    p.Tidy begun settled' filled' where
  tight := h.tight
  starts := h.starts
  ends := by
    refine h.ends.imp_right fun ⟨hempty, hleaves⟩ => ⟨?_, hleaves⟩
    cases filled' with
    | true => rw [hfilled rfl] at hempty; cases hempty
    | false => rfl
  settled hs := h.settled (hsettled hs)

/-- What is collected stays if nothing but trivia is set aside. -/
theorem skip (h : p.Tidy begun settled filled) : p.skip.Tidy begun true filled where
  tight := h.tight
  starts hbegun := by
    rcases h.starts hbegun with hstarts | ⟨hleaves, hpending, hsettled⟩
    · exact .inl hstarts
    · rw [hsettled.skip_eq]
      exact .inr ⟨hleaves, hpending, hsettled⟩
  ends := h.ends
  settled _ := isSettled_skip p

/-- Only what is to come, what was set aside and what is collected counts. -/
theorem of_eq (h : p.Tidy begun settled filled) (hrest : q.rest = p.rest)
    (hpending : q.pending = p.pending) (houtput : q.output = p.output) :
    q.Tidy begun settled filled where
  tight := houtput ▸ h.tight
  starts hbegun := by
    unfold Place.IsSettled
    rw [houtput, hpending, hrest]
    exact h.starts hbegun
  ends := houtput ▸ h.ends
  settled hs := by
    unfold Place.IsSettled
    rw [hrest]
    exact h.settled hs

/-- A group starts in front of a token if the next token comes at once. -/
theorem fresh (h : p.Tidy begun true filled) :
    Place.Tidy true true false { p.flush with output := [] } where
  tight := List.forall_mem_nil _
  starts _ := .inr ⟨rfl, rfl, h.settled rfl⟩
  ends := .inr ⟨rfl, rfl⟩
  settled _ := h.settled rfl

/-- Nothing need be known of the next token where a group starts that may start with trivia. -/
theorem unsettled (p : Place) : Place.Tidy false false false { p.flush with output := [] } where
  tight := List.forall_mem_nil _
  starts := nofun
  ends := .inr ⟨rfl, rfl⟩
  settled := nofun

/-- The trees of a group behind those around it. -/
theorem behind {ts : List Tree} {around : Bool} (h : p.Tidy begun around filled)
    (hq : ∀ t ∈ ts, t.IsTight) (hsettled : settled = true → q.IsSettled) (hends : EndsWithToken ts)
    (hstarts : StartsWithToken ts ∨ filled = true) :
    Place.Tidy begun settled true { q with output := p.flush.output ++ ts } where
  tight := by
    refine List.forall_mem_append.mpr ⟨List.forall_mem_append.mpr ⟨h.tight, fun t ht => ?_⟩, hq⟩
    rcases List.mem_map.mp ht with ⟨l, _, rfl⟩
    exact .token l
  starts hbegun := by
    refine .inl ?_
    rcases h.starts hbegun with hfirst | ⟨hleaves, hpending, _⟩
    · exact (hfirst.append _).append _
    · rcases hstarts with hstarts | hfilled
      · refine hstarts.behind ?_
        rw [Place.flush, hpending, List.map_nil, List.append_nil]
        exact hleaves
      · -- Something has been collected, and there are leaves then.
        rcases h.ends with hends | ⟨hempty, _⟩
        · exact absurd hleaves hends.ne_nil
        · rw [hfilled] at hempty
          cases hempty
  ends := .inl (hends.behind _)
  settled := hsettled

/-- What has been collected, if anything has, ends with a token. -/
theorem endsWithToken (h : p.Tidy begun settled true) : EndsWithToken p.output :=
  h.ends.resolve_right fun hempty => Bool.noConfusion hempty.1

theorem startsWithToken (h : p.Tidy true settled true) : StartsWithToken p.output := by
  rcases h.starts rfl with hstarts | ⟨hleaves, _⟩
  · exact hstarts
  · exact absurd hleaves h.endsWithToken.ne_nil

end Place.Tidy

/-- A reading from a tidy place ends at a tidy place; what is known there may depend on the
    answer. -/
def Steps (limit : Option Nat) (readers : Readers) (begun settled filled : Bool) {α : Type}
    (x : Script α) (settled' filled' : α → Bool) : Prop :=
  Leads limit readers (Place.Tidy begun settled filled) x
    fun a => Place.Tidy begun (settled' a) (filled' a)

namespace Steps

variable {limit : Option Nat} {readers : Readers} {α β : Type} {begun settled filled : Bool}
variable {settled' filled' : α → Bool}

/-- More may be known before, and less need be known afterwards. -/
theorem weaken {s f : Bool} {s' f' : α → Bool} {x : Script α}
    (h : Steps limit readers begun s f x s' f')
    (hs : s = true → settled = true) (hf : f = true → filled = true)
    (hs' : ∀ a, settled' a = true → s' a = true) (hf' : ∀ a, filled' a = true → f' a = true) :
    Steps limit readers begun settled filled x settled' filled' :=
  (h.pre fun _ hp => hp.weaken hs hf).post fun a _ hp => hp.weaken (hs' a) (hf' a)

/-- Once something has been collected, nothing more need be said in the end. -/
theorem loose {s' : α → Bool} {x : Script α}
    (h : Steps limit readers begun settled filled x s' fun _ => true) :
    Steps limit readers begun settled filled x (fun _ => false) filled' :=
  h.weaken id id (fun _ => nofun) fun _ _ => rfl

/-- A script that is over. -/
theorem done {a : α} (hs : settled' a = true → settled = true)
    (hf : filled' a = true → filled = true) :
    Steps limit readers begun settled filled (pure a) settled' filled' :=
  Leads.pure fun _ hp => hp.weaken hs hf

theorem bind {x : Script β} {g : β → Script α} {s f : β → Bool}
    (hx : Steps limit readers begun settled filled x s f)
    (hg : ∀ b, Steps limit readers begun (s b) (f b) (g b) settled' filled') :
    Steps limit readers begun settled filled (x >>= g) settled' filled' :=
  Leads.bind hx hg

theorem ite {c : Prop} [Decidable c] {x y : Script α}
    (hx : Steps limit readers begun settled filled x settled' filled')
    (hy : Steps limit readers begun settled filled y settled' filled') :
    Steps limit readers begun settled filled (if c then x else y) settled' filled' :=
  Leads.ite (fun _ => hx) fun _ => hy

/-- A script that goes on in one of two ways. -/
theorem cond {x : Script Bool} {y z : Script α} {s f : Bool → Bool}
    (hx : Steps limit readers begun settled filled x s f)
    (hy : Steps limit readers begun (s true) (f true) y settled' filled')
    (hz : Steps limit readers begun (s false) (f false) z settled' filled') :
    Steps limit readers begun settled filled (x >>= fun b => if b then y else z) settled' filled' :=
  Leads.cond hx hy hz

theorem report (kind : Diagnostic.Kind) (detail : Option String) {s f : Unit → Bool} :
    Steps limit readers begun settled filled (Script.report kind detail) s f :=
  Leads.report kind detail

theorem reportBind {kind : Diagnostic.Kind} {detail : Option String} {g : Unit → Script α} :
    Steps limit readers begun settled filled (Script.report kind detail >>= g) settled' filled' :=
  Leads.reportBind

theorem reportAndTake (kind : Diagnostic.Kind) :
    Steps limit readers begun settled filled (Script.reportAndTake kind) (fun _ => false)
      fun _ => true := reportBind

/-! ### Asking and taking -/

/-- An operation that does nothing but set trivia aside. -/
theorem skipping {op : Op} (h : ∀ p q a, op.read limit p = some (a, q) →
      q.rest = p.skip.rest ∧ q.pending = p.skip.pending ∧ q.output = p.output) :
    Steps limit readers begun settled filled (Script.perform op) (fun _ => true) fun _ => filled :=
  Leads.perform fun p q a hp hop =>
    hp.skip.of_eq (h p q a hop).1 (h p q a hop).2.1 (h p q a hop).2.2

theorem look : Steps limit readers begun settled filled Script.look (fun _ => true)
    fun _ => filled :=
  skipping fun _ _ _ h => by cases h; exact ⟨rfl, rfl, rfl⟩

theorem ahead (i : Nat) : Steps limit readers begun settled filled (Script.ahead i)
    (fun _ => true) fun _ => filled :=
  skipping fun _ _ _ h => by cases h; exact ⟨rfl, rfl, rfl⟩

theorem upcoming : Steps limit readers begun settled filled Script.upcoming (fun _ => true)
    fun _ => filled :=
  skipping fun _ _ _ h => by cases h; exact ⟨rfl, rfl, rfl⟩

theorem word : Steps limit readers begun settled filled Script.word (fun _ => true)
    fun _ => filled :=
  skipping fun _ _ _ h => by cases h; exact ⟨rfl, rfl, rfl⟩

theorem atEnd : Steps limit readers begun settled filled Script.atEnd (fun _ => true)
    fun _ => filled :=
  skipping fun _ _ _ h => by cases h; exact ⟨rfl, rfl, rfl⟩

theorem skipTrivia : Steps limit readers begun settled filled (Script.perform .skipTrivia)
    (fun _ => true) fun _ => filled :=
  skipping fun _ _ _ h => by cases h; exact ⟨rfl, rfl, rfl⟩

theorem require (kind : Kind) : Steps limit readers begun settled filled
    (Script.perform (.require kind)) (fun _ => true) fun _ => filled := by
  refine skipping fun p q a h => ?_
  simp only [Op.read] at h
  split at h
  · cases h
    exact ⟨rfl, rfl, rfl⟩
  · cases h

/-- An answer that is worked out from what comes next. -/
theorem asks {x : Script β} (g : β → α)
    (hx : Steps limit readers begun settled filled x (fun _ => true) fun _ => filled) :
    Steps limit readers begun settled filled (x >>= fun b => pure (g b)) (fun _ => true)
      fun _ => filled :=
  hx.bind fun _ => done (fun _ => rfl) id

theorem isAt (k : Kind) : Steps limit readers begun settled filled (Script.isAt k)
    (fun _ => true) fun _ => filled := asks _ look

theorem isAtOneOf (ks : KindSet) : Steps limit readers begun settled filled (Script.isAtOneOf ks)
    (fun _ => true) fun _ => filled := asks _ look

theorem nextIs (k : Kind) : Steps limit readers begun settled filled (Script.nextIs k)
    (fun _ => true) fun _ => filled := asks _ (ahead 1)

theorem isAtPair (j k : Kind) : Steps limit readers begun settled filled (Script.isAtPair j k)
    (fun _ => true) fun _ => filled :=
  (isAt j).cond (nextIs k) (done (fun _ => rfl) id)

theorem isBefore (k : Kind) : Steps limit readers begun settled filled (Script.isBefore k)
    (fun _ => true) fun _ => filled :=
  atEnd.cond (done (fun _ => rfl) id) (asks _ (isAt k))

/-- A token is taken where it comes at once. -/
theorem take : Steps limit readers begun true filled Script.take (fun _ => false)
    fun _ => true := by
  refine Leads.perform fun p q a hp h => ?_
  simp only [Op.read] at h
  split at h
  · next l ls i hrest hfuel =>
      cases h
      have hl : l.isTrivia = false := hp.settled rfl l (by rw [hrest]; rfl)
      have hnone : false = true → Place.IsSettled { p.flush with rest := ls, fuel := i } :=
        fun h => absurd h Bool.false_ne_true
      exact hp.behind (List.forall_mem_singleton.mpr (.token l)) hnone
        (Tree.endsWithToken_singleton hl) (.inl (Tree.startsWithToken_singleton hl))
  · cases h

/-- Something has been collected if a token was there. -/
theorem eats (k : Kind) : Steps limit readers begun settled filled (Script.eat k) (fun b => !b)
    fun b => b || filled :=
  (isAt k).cond (take.bind fun _ => done nofun fun _ => rfl) (done (fun _ => rfl) id)

/-- Whether a token is there or not, something has been collected. -/
theorem eat (k : Kind) : Steps limit readers begun settled true (Script.eat k) (fun b => !b)
    fun _ => true :=
  (isAt k).cond (take.bind fun _ => done nofun fun _ => rfl) (done (fun _ => rfl) id)

/-- A token that may be there is taken before going on. -/
theorem ifEat {k : Kind} {x y : Script α}
    (hx : Steps limit readers begun false true x settled' filled')
    (hy : Steps limit readers begun true filled y settled' filled') :
    Steps limit readers begun settled filled (Script.eat k >>= fun b => if b then x else y)
      settled' filled' :=
  (eats k).cond hx hy

theorem expect (k : Kind) (what : String) : Steps limit readers begun settled filled
    (Script.expect k what) (fun _ => false) fun _ => true :=
  ifEat (done nofun fun _ => rfl) (report _ _)

theorem expectName (what : String) : Steps limit readers begun settled filled
    (Script.expectName what) (fun _ => false) fun _ => true :=
  ifEat (done nofun fun _ => rfl) reportBind

theorem expectSemicolon : Steps limit readers begun settled filled Script.expectSemicolon
    (fun _ => false) fun _ => true := by
  refine ifEat (done nofun fun _ => rfl) (Leads.bind (R := fun _ _ => False) ?_ ?_)
  · exact Leads.perform fun _ _ _ _ h => nomatch h
  · exact fun _ _ _ _ h => h.elim

theorem takeOpening : Steps limit readers begun settled filled Script.takeOpening
    (fun _ => false) fun _ => true :=
  (skipping fun _ _ _ h => by cases h; exact ⟨rfl, rfl, rfl⟩).bind fun _ => take

/-- An operation that only counts. -/
theorem counting {op : Op} (h : ∀ p q a, op.read limit p = some (a, q) →
      q.rest = p.rest ∧ q.pending = p.pending ∧ q.output = p.output) :
    Steps limit readers begun settled filled (Script.perform op) (fun _ => settled)
      fun _ => filled :=
  Leads.perform fun p q a hp hop =>
    hp.of_eq (h p q a hop).1 (h p q a hop).2.1 (h p q a hop).2.2

theorem expectClosing (k : Kind) (unclosed : Diagnostic.Kind) :
    Steps limit readers begun settled true (Script.expectClosing k unclosed) (fun _ => false)
      fun _ => true := by
  have hunclosed : Steps limit readers begun true true
      (Script.perform (.reportUnclosed unclosed)) (fun _ => true) fun _ => true := by
    refine counting fun p q a h => ?_
    simp only [Op.read] at h
    split at h
    · cases h
      exact ⟨rfl, rfl, rfl⟩
    · cases h
  exact ifEat (counting fun _ _ _ h => by cases h; exact ⟨rfl, rfl, rfl⟩) hunclosed.loose

/-- One level deeper the same is collected. -/
theorem deeper {x : Script Unit} {s f : Unit → Bool}
    (hx : Steps limit readers begun settled filled x s f) :
    Steps limit readers begun settled filled (Script.deeper x) s f := by
  have henter : Leads limit readers (Place.Tidy begun settled filled) Script.enter
      fun deep p => deep = true ∧ p.Tidy begun settled filled := by
    refine .perform fun p q deep hp h => ?_
    simp only [Op.read] at h
    split at h
    · cases h
    · cases h
      exact ⟨rfl, hp.of_eq rfl rfl rfl⟩
  refine henter.cond ?_ fun p q _ hp _ => absurd hp.1 Bool.false_ne_true
  refine (hx.pre fun _ hp => hp.2).bind fun _ => ?_
  exact counting fun _ _ _ h => by cases h; exact ⟨rfl, rfl, rfl⟩

/-! ### Groups -/

/-- A node is made in front of a token. -/
theorem node {x : Script α} {k : Kind}
    (hx : Steps limit readers true true false x settled' fun _ => true) :
    Steps limit readers begun true filled (Script.node k x) settled' fun _ => true := by
  intro p q a hp h
  rcases Option.bind_eq_some_iff.mp h with ⟨⟨b, t⟩, hbody, hdone⟩
  cases hdone
  have ht := hx _ t b hp.fresh hbody
  have hstarts := ht.startsWithToken
  have hends := ht.endsWithToken
  refine hp.behind (List.forall_mem_singleton.mpr ?_) ht.settled (hends.node k)
    (.inl (hstarts.node k))
  exact .node (fun _ => hstarts) hends ht.tight

/-- The parameters of a method may have trivia in front of them. -/
theorem params {x : Script α}
    (hx : Steps limit readers false false false x settled' fun _ => true) :
    Steps limit readers begun settled true (Script.node .paramList x) settled' fun _ => true := by
  intro p q a hp h
  rcases Option.bind_eq_some_iff.mp h with ⟨⟨b, t⟩, hbody, hdone⟩
  cases hdone
  have ht := hx _ t b (.unsettled p) hbody
  have hends := ht.endsWithToken
  refine hp.behind (List.forall_mem_singleton.mpr ?_) ht.settled (hends.node .paramList) (.inr rfl)
  exact .node (fun hkind => absurd rfl hkind) hends ht.tight

/-- A group that is only a place to return to is made in front of a token, too. -/
theorem frame {x : Script α}
    (hx : Steps limit readers true true false x settled' fun _ => true) :
    Steps limit readers begun true filled (Script.frame x) settled' fun _ => true := by
  intro p q a hp h
  rcases Option.bind_eq_some_iff.mp h with ⟨⟨b, t⟩, hbody, hdone⟩
  cases hdone
  have ht := hx _ t b hp.fresh hbody
  exact hp.behind ht.tight ht.settled ht.endsWithToken (.inl ht.startsWithToken)

/-- A group that wraps all that was collected before it. -/
theorem enclose {x : Script α} {k : Kind}
    (hx : Steps limit readers true settled filled x settled' fun _ => true) :
    Steps limit readers true settled filled (Script.enclose k x) settled' fun _ => true := by
  intro p q a hp h
  rcases Option.bind_eq_some_iff.mp h with ⟨⟨b, t⟩, hbody, hdone⟩
  cases hdone
  have ht := hx p t b hp hbody
  have hstarts := ht.startsWithToken
  have hends := ht.endsWithToken
  exact ⟨List.forall_mem_singleton.mpr (.node (fun _ => hstarts) hends ht.tight),
    fun _ => .inl (hstarts.node k), .inl (hends.node k), ht.settled⟩

/-- What is skipped is reported first. -/
theorem recover (kind : Diagnostic.Kind) (recovery : KindSet) :
    Steps limit readers begun settled filled (Script.recover kind recovery) (fun _ => false)
      fun _ => true := by
  refine Leads.bind (R := fun _ _ => True) (fun _ _ _ _ _ => trivial) fun stops => ?_
  cases stops with
  | true => exact Leads.report kind none
  | false => exact fun p q a _ h => nomatch h

/-! ### Loops -/

/-- What is known behind a loop is what its last round finds out. -/
theorem loop {σ : Type} {body : σ → Script (Bool × σ)} {start : σ} {next : σ → Script α}
    {s : Bool → Bool}
    (hbody : ∀ x, Steps limit readers begun false filled (body x) (fun r => s r.1) fun _ => filled)
    (hnext : ∀ x, Steps limit readers begun (s false) filled (next x) settled' filled') :
    Steps limit readers begun settled filled (.loop body start next) settled' filled' := by
  have hrounds : ∀ (i : Nat) (x y : σ) (p q : Place), p.Tidy begun false filled →
      rounds (fun x p => (body x).read limit readers p) i x p = some (y, q) →
      q.Tidy begun (s false) filled := by
    intro i
    induction i with
    | zero => exact fun _ _ _ _ _ h => nomatch h
    | succ i ih =>
        intro x y p q hp h
        rcases Option.bind_eq_some_iff.mp h with ⟨⟨⟨again, z⟩, r⟩, hround, hrest⟩
        have hr := hbody x p r _ hp hround
        cases again with
        | true => exact ih z y r q (hr.weaken nofun id) hrest
        | false =>
            cases hrest
            exact hr
  intro p q a hp h
  rcases Option.bind_eq_some_iff.mp h with ⟨⟨y, r⟩, hloop, hrest⟩
  exact hnext y r q a (hrounds _ _ _ _ _ (hp.weaken nofun id) hloop) hrest

theorem repeatWhile {body : Script Bool} {s : Bool → Bool}
    (hbody : Steps limit readers begun false filled body s fun _ => filled) :
    Steps limit readers begun settled filled (Script.repeatWhile body) (fun _ => s false)
      fun _ => filled :=
  loop (fun _ => hbody.bind fun _ => done id id) fun _ => done id id

theorem whileTrue {condition : Script Bool} {body : Script Unit} {s : Bool → Bool}
    (hcondition : Steps limit readers begun false filled condition s fun _ => filled)
    (hbody : Steps limit readers begun (s true) filled body (fun _ => false) fun _ => filled) :
    Steps limit readers begun settled filled (Script.whileTrue condition body) (fun _ => s false)
      fun _ => filled := by
  have hround : Steps limit readers begun false filled
      (condition >>= fun b => if b then body >>= fun _ => pure true else pure false)
      (fun again => !again && s false) fun _ => filled :=
    hcondition.cond (hbody.bind fun _ => done nofun id) (done id id)
  exact (repeatWhile hround).weaken id id (fun _ hs => hs) fun _ hf => hf

end Steps

/-- How the productions that are referred to step. A member and an operation start in front of a
    token, and all others set trivia aside themselves. -/
structure Stepping (limit : Option Nat) (readers : Readers) : Prop where
  items (braced begun settled filled : Bool) : Steps limit readers begun settled filled
    (Script.call (.items braced)) (fun _ => false) fun _ => filled
  member (begun filled : Bool) : Steps limit readers begun true filled (Script.call .member)
    (fun _ => false) fun _ => true
  stmt (begun settled filled : Bool) : Steps limit readers begun settled filled
    (Script.call .stmt) (fun _ => false) fun _ => true
  expr (begun settled filled : Bool) : Steps limit readers begun settled filled
    (Script.call .expr) (fun _ => false) fun _ => true
  binary (power : Nat) (begun filled : Bool) : Steps limit readers begun true filled
    (Script.call (.binary power)) (fun _ => false) fun _ => true
  unary (begun settled filled : Bool) : Steps limit readers begun settled filled
    (Script.call .unary) (fun _ => false) fun _ => true
  type (begun settled filled : Bool) : Steps limit readers begun settled filled
    (Script.call .type) (fun _ => true) fun _ => true

end Grammar

end Nominal
