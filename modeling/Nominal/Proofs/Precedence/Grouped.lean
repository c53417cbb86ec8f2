import Nominal.Proofs.Derived.Spelling

/-!
# Trees Grouped by Precedence

How tight trees are bound. A tree is grouped at a level if its outermost operator binds at
least as tight as that, and if all operators in it have operands that are bound tight enough.
Below the conditional and the assignment, which bind loosest of all, stand the binary operators
with their powers; all other trees are as good as operands.

A reading collects one tree after another. So what is followed is whether the trees behind
those that were there already are grouped at a level. A script that never encloses what was
there before does not need to know what that is; where a script encloses, all trees of its
group have to be grouped well.

## Main definitions

* `Tree.IsGrouped`: A tree whose operators bind at least as tight as a level.
* `Script.Groups`: The scripts that collect trees grouped at a level.
* `Grouped`: The productions that are referred to collect such trees.

## Theorems

* `Script.Groups.leads`: What a script of this sort collects is grouped.
* `Script.Groups.bind`: One such script after another.
-/

namespace Nominal

namespace Syntax

open Grammar (bindingPower? rightPower)

/-- The level of operands: more than the power of any binary operator. -/
def operandLevel : Nat := 8

/-- The power that operators in the left operand need at least. -/
def leftPower (op : Kind) (power : Nat) : Nat :=
  if op = .questionQuestion then power + 1 else power

namespace Kind

/-- Whether nodes of a kind bind looser than all binary operators. -/
def isLoose : Kind → Bool
  | .assignExpr | .conditionalExpr | .lambda => true
  | _ => false

/-- The level that all trees below a node of a kind need. -/
def inner : Kind → Nat
  | .prefixExpr | .castExpr | .memberAccess | .call | .postfixExpr => operandLevel
  | _ => 0

/-- A node of a kind may be made of any trees of the level that it needs, and it is then
    grouped at a level. What stands left and right of a binary operator has levels of its own,
    and so has what stands before an index. -/
def GroupsAt (k : Kind) (level : Nat) : Prop :=
  k ≠ .binaryExpr ∧ k ≠ .indexExpr ∧ (k.isLoose = true → level = 0)

/-- Whether nodes of a kind may be made of any trees and bind tightest. -/
def isPlain (k : Kind) : Bool :=
  !k.isLoose && k.inner == 0 && k != .binaryExpr && k != .indexExpr

theorem groupsAt_of_isPlain {k : Kind} (hk : k.isPlain = true) {level : Nat} : k.GroupsAt level := by
  simp only [isPlain, Bool.and_eq_true, bne_iff_ne, Bool.not_eq_true'] at hk
  exact ⟨hk.1.2, hk.2, fun hloose => absurd (hk.1.1.1.symm.trans hloose) nofun⟩

theorem inner_of_isPlain {k : Kind} (hk : k.isPlain = true) : k.inner = 0 := by
  simp only [isPlain, Bool.and_eq_true, beq_iff_eq] at hk
  exact hk.1.1.2

end Kind

/-- A tree whose outermost operator binds at least as tight as a level, and in which all
    operators have operands that are bound tight enough. -/
inductive Tree.IsGrouped : Nat → Tree → Prop where
  | token (level : Nat) (l : Lexeme) : IsGrouped level (token l)
  | node {level : Nat} {k : Kind} {children : List Tree} : k.GroupsAt level →
    (∀ t ∈ children, IsGrouped k.inner t) → IsGrouped level (node k children)
  | index {level : Nat} {bracket : Lexeme} {us vs : List Tree} : bracket.kind = .bracketOpen →
    (∀ t ∈ us, IsGrouped operandLevel t) → (∀ t ∈ vs, IsGrouped 0 t) →
    IsGrouped level (node .indexExpr (us ++ token bracket :: vs))
  | binary {level power : Nat} {op : Lexeme} {us vs : List Tree} :
    bindingPower? op.kind = some power → level ≤ power →
    (∀ t ∈ us, IsGrouped (leftPower op.kind power) t) →
    (∀ t ∈ vs, IsGrouped (rightPower op.kind power) t) →
    IsGrouped level (node .binaryExpr (us ++ token op :: vs))

/-- What is bound tight is bound tight enough for less. -/
theorem Tree.IsGrouped.mono {m n : Nat} {t : Tree} (h : t.IsGrouped n) (hmn : m ≤ n) :
    t.IsGrouped m := by
  cases h with
  | token _ l => exact .token m l
  | node hk hchildren =>
      refine .node ⟨hk.1, hk.2.1, fun hloose => ?_⟩ hchildren
      exact Nat.le_zero.mp (hk.2.2 hloose ▸ hmn)
  | index hbracket hus hvs => exact .index hbracket hus hvs
  | binary hop hlevel hus hvs => exact .binary hop (Nat.le_trans hmn hlevel) hus hvs

end Syntax

namespace Grammar

open Syntax (Kind KindSet Lexeme Tree operandLevel)

/-- The trees of the current group are `us`, and behind them trees grouped at a level. -/
def Place.Groups (us : List Tree) (level : Nat) (p : Place) : Prop :=
  ∃ vs, p.output = us ++ vs ∧ ∀ t ∈ vs, t.IsGrouped level

namespace Place.Groups

variable {us : List Tree} {level : Nat} {p : Place}

theorem refl (p : Place) (level : Nat) : p.Groups p.output level :=
  ⟨[], (List.append_nil _).symm, nofun⟩

/-- All trees of the group are grouped at a level. -/
theorem all (h : p.Groups [] level) : ∀ t ∈ p.output, t.IsGrouped level := by
  rcases h with ⟨vs, houtput, hvs⟩
  rw [houtput]
  exact hvs

theorem of_all (h : ∀ t ∈ p.output, t.IsGrouped level) : p.Groups [] level := ⟨p.output, rfl, h⟩

theorem mono {m : Nat} (h : p.Groups us level) (hm : m ≤ level) : p.Groups us m := by
  rcases h with ⟨vs, houtput, hvs⟩
  exact ⟨vs, houtput, fun t ht => (hvs t ht).mono hm⟩

/-- More trees are collected. -/
theorem add (h : p.Groups us level) {ts : List Tree} (hts : ∀ t ∈ ts, t.IsGrouped level) {q : Place}
    (hq : q.output = p.output ++ ts) : q.Groups us level := by
  rcases h with ⟨vs, houtput, hvs⟩
  refine ⟨vs ++ ts, by rw [hq, houtput, List.append_assoc], ?_⟩
  exact List.forall_mem_append.mpr ⟨hvs, hts⟩

theorem flush (h : p.Groups us level) : p.flush.Groups us level :=
  h.add (fun t ht => by
    rcases List.mem_map.mp ht with ⟨l, _, rfl⟩
    exact .token level l) rfl

end Place.Groups

variable {limit : Option Nat} {readers : Readers} {α β σ : Type}
variable {us : List Tree} {level : Nat} {encloses : Bool}

/-- An operation collects tokens at most. -/
theorem groups_read {op : Op} {p q : Place} {a : op.Answer} (hp : p.Groups us level)
    (h : op.read limit p = some (a, q)) : q.Groups us level := by
  cases op with
  | take =>
      simp only [Op.read] at h
      split at h
      · next l ls n _ _ =>
          cases h
          refine hp.flush.add ?_ rfl
          exact List.forall_mem_singleton.mpr (.token level l)
      · cases h
  | keepTrivia =>
      cases h
      exact Place.Groups.flush (p := p.skip) hp
  | require | reportUnclosed | enter =>
      simp only [Op.read] at h
      split at h <;> cases h
      exact hp
  | report | reportSemicolon => cases h
  | _ =>
      cases h
      exact hp

/-- The levels at which a production collects trees. -/
def Production.Groups : Production → Nat → Prop
  | .expr, level => level = 0
  | .binary power, level => level ≤ power ∧ level ≤ operandLevel
  | .unary, level => level ≤ operandLevel
  | _, _ => True

/-- The productions that are referred to collect trees grouped at their levels. -/
def Grouped (readers : Readers) : Prop :=
  ∀ (q : Production) (us : List Tree) (level : Nat), q.Groups level → ∀ (p r : Place) (a : q.Answer),
    p.Groups us level → readers q p = some (a, r) → r.Groups us level

namespace Script

/-- The scripts that collect trees grouped at a level, whatever they refer to. Where a script
    encloses what its group has collected, that has to be grouped as well. -/
def Groups (encloses : Bool) (level : Nat) {α : Type} : Script α → Prop
  | .done _ => True
  | .step _ next => ∀ a, (next a).Groups encloses level
  | .group (.node k) body next =>
    k.GroupsAt level ∧ body.Groups true k.inner ∧ ∀ b, (next b).Groups encloses level
  | .group .frame body next =>
    body.Groups true level ∧ ∀ b, (next b).Groups encloses level
  | .group (.enclose k) body next =>
    encloses = true ∧ k.GroupsAt level ∧ k.inner ≤ level ∧ body.Groups true k.inner ∧
      ∀ b, (next b).Groups encloses level
  | .loop body _ next =>
    (∀ x, (body x).Groups encloses level) ∧ ∀ x, (next x).Groups encloses level
  | .invoke q next => q.Groups level ∧ ∀ a, (next a).Groups encloses level

namespace Groups

/-- A node of trees that are grouped is grouped. -/
theorem node_add {k : Kind} (hk : k.GroupsAt level) {p q : Place} (hp : p.Groups us level)
    (hq : q.Groups [] k.inner) {r : Place} (hr : r.output = p.output ++ [.node k q.output]) :
    r.Groups us level :=
  hp.add (List.forall_mem_singleton.mpr (.node hk hq.all)) hr

/-- What a script collects is grouped if what it refers to collects grouped trees. -/
theorem leads (hreaders : Grouped readers) {x : Script α} (hx : x.Groups encloses level)
    (hencloses : encloses = true → us = []) :
    Leads limit readers (Place.Groups us level) x fun _ => Place.Groups us level := by
  induction x generalizing us level encloses with
  | done a =>
      intro p q b hp h
      cases h
      exact hp
  | step op next ih =>
      intro p q b hp h
      rcases Option.bind_eq_some_iff.mp h with ⟨⟨a, r⟩, hop, hnext⟩
      exact ih a (hx a) hencloses r q b (groups_read hp hop) hnext
  | group g body next ihBody ih =>
      intro p q b hp h
      rcases Option.bind_eq_some_iff.mp h with ⟨⟨a, r⟩, hbody, hnext⟩
      cases g with
      | node k =>
          rcases hx with ⟨hk, hinner, hrest⟩
          have hr := ihBody hinner (fun _ => rfl) _ r a (.of_all (List.forall_mem_nil _)) hbody
          exact ih a (hrest a) hencloses _ q b (node_add hk hp.flush hr rfl) hnext
      | frame =>
          rcases hx with ⟨hinner, hrest⟩
          have hr := ihBody hinner (fun _ => rfl) _ r a (.of_all (List.forall_mem_nil _)) hbody
          exact ih a (hrest a) hencloses _ q b (hp.flush.add hr.all rfl) hnext
      | enclose k =>
          rcases hx with ⟨hyes, hk, hlevel, hinner, hrest⟩
          cases hencloses hyes
          have hr := ihBody hinner (fun _ => rfl) p r a (hp.mono hlevel) hbody
          refine ih a (hrest a) hencloses _ q b (.of_all ?_) hnext
          exact List.forall_mem_singleton.mpr (.node hk hr.all)
  | loop body start next ihBody ih =>
      exact .loop (fun x => ihBody x (hx.1 x) hencloses) fun x => ih x (hx.2 x) hencloses
  | invoke q next ih =>
      intro p r b hp h
      rcases Option.bind_eq_some_iff.mp h with ⟨⟨a, s⟩, hq, hnext⟩
      exact ih a (hx.2 a) hencloses s r b (hreaders q us level hx.1 p s a hp hq) hnext

/-- A script that never encloses what was there before may follow any trees. -/
theorem behind (hreaders : Grouped readers) {x : Script α} (hx : x.Groups false level) :
    Leads limit readers (Place.Groups us level) x fun _ => Place.Groups us level :=
  hx.leads hreaders nofun

/-- What a whole group collects is grouped. -/
theorem whole (hreaders : Grouped readers) {x : Script α} (hx : x.Groups true level) :
    Leads limit readers (Place.Groups [] level) x fun _ => Place.Groups [] level :=
  hx.leads hreaders fun _ => rfl

/-! ### How scripts are put together -/

theorem andThen {x : Script β} {f : β → Script α} (hx : x.Groups encloses level)
    (hf : ∀ b, (f b).Groups encloses level) : (x.andThen f).Groups encloses level := by
  induction x with
  | done a => exact hf a
  | step op next ih => exact fun a => ih a (hx a) hf
  | group g body next _ ih =>
      cases g with
      | node k => exact ⟨hx.1, hx.2.1, fun b => ih b (hx.2.2 b) hf⟩
      | frame => exact ⟨hx.1, fun b => ih b (hx.2 b) hf⟩
      | enclose k => exact ⟨hx.1, hx.2.1, hx.2.2.1, hx.2.2.2.1, fun b => ih b (hx.2.2.2.2 b) hf⟩
  | loop body start next _ ih => exact ⟨hx.1, fun y => ih y (hx.2 y) hf⟩
  | invoke q next ih => exact ⟨hx.1, fun a => ih a (hx.2 a) hf⟩

/-- One script after another. -/
theorem bind {x : Script β} {f : β → Script α} (hx : x.Groups encloses level)
    (hf : ∀ b, (f b).Groups encloses level) : (x >>= f).Groups encloses level := hx.andThen hf

theorem pure (a : α) : (Pure.pure a : Script α).Groups encloses level := trivial

theorem perform (op : Op) : (Script.perform op).Groups encloses level := fun _ => trivial

theorem call {q : Production} (hq : q.Groups level) : (Script.call q).Groups encloses level :=
  ⟨hq, fun _ => trivial⟩

theorem node {k : Kind} {x : Script α} (hk : k.GroupsAt level) (hx : x.Groups true k.inner) :
    (Script.node k x).Groups encloses level := ⟨hk, hx, fun _ => trivial⟩

/-- Most nodes may be made of any trees and are grouped at any level. -/
theorem plain {k : Kind} {x : Script α} (hk : k.isPlain = true) (hx : x.Groups true 0) :
    (Script.node k x).Groups encloses level :=
  node (Kind.groupsAt_of_isPlain hk) (Kind.inner_of_isPlain hk ▸ hx)

theorem frame {x : Script α} (hx : x.Groups true level) : (Script.frame x).Groups encloses level :=
  ⟨hx, fun _ => trivial⟩

theorem enclose {k : Kind} {x : Script α} (hk : k.isPlain = true) (hx : x.Groups true 0) :
    (Script.enclose k x).Groups true level := by
  have hinner := Kind.inner_of_isPlain hk
  refine ⟨rfl, Kind.groupsAt_of_isPlain hk, ?_, hinner ▸ hx, fun _ => trivial⟩
  rw [hinner]
  exact Nat.zero_le level

/-- What binds loosest encloses any trees. -/
theorem encloseLoose {k : Kind} {x : Script α} (hk : k.isLoose = true) (hx : x.Groups true 0) :
    (Script.enclose k x).Groups true 0 := by
  cases k with
  | assignExpr | conditionalExpr | lambda =>
      exact ⟨rfl, ⟨nofun, nofun, fun _ => rfl⟩, Nat.le_refl 0, hx, fun _ => trivial⟩
  | _ => cases hk

theorem ite {c : Prop} [Decidable c] {x y : Script α} (hx : x.Groups encloses level)
    (hy : y.Groups encloses level) : (if c then x else y).Groups encloses level := by
  split
  · exact hx
  · exact hy

theorem loop {body : σ → Script (Bool × σ)} {next : σ → Script α} {start : σ}
    (hbody : ∀ x, (body x).Groups encloses level) (hnext : ∀ x, (next x).Groups encloses level) :
    (Script.loop body start next).Groups encloses level := ⟨hbody, hnext⟩

theorem repeatWhile {body : Script Bool} (hbody : body.Groups encloses level) :
    (Script.repeatWhile body).Groups encloses level :=
  loop (fun _ => hbody.andThen fun _ => trivial) fun _ => trivial

theorem whileTrue {condition : Script Bool} {body : Script Unit}
    (hcondition : condition.Groups encloses level) (hbody : body.Groups encloses level) :
    (Script.whileTrue condition body).Groups encloses level :=
  repeatWhile (bind hcondition fun _ => ite (bind hbody fun _ => pure _) (pure _))

theorem whenever {c : Bool} {body : Script Unit} (hbody : body.Groups encloses level) :
    (Script.whenever c body).Groups encloses level := ite hbody (pure _)

/-! ### Scripts that make no node -/

theorem look : Script.look.Groups encloses level := perform _

theorem take : Script.take.Groups encloses level := perform _

theorem report (kind : Diagnostic.Kind) (detail : Option String) :
    (Script.report kind detail).Groups encloses level := perform _

theorem reportExpected (kind : Diagnostic.Kind) (what : String) :
    (Script.reportExpected kind what).Groups encloses level := perform _

theorem isAt (k : Kind) : (Script.isAt k).Groups encloses level := bind look fun _ => pure _

theorem isAtOneOf (ks : KindSet) : (Script.isAtOneOf ks).Groups encloses level :=
  bind look fun _ => pure _

theorem nextIs (k : Kind) : (Script.nextIs k).Groups encloses level :=
  bind (perform _) fun _ => pure _

theorem isAtPair (j k : Kind) : (Script.isAtPair j k).Groups encloses level :=
  bind (isAt j) fun _ => ite (nextIs k) (pure _)

theorem eat (k : Kind) : (Script.eat k).Groups encloses level :=
  bind (isAt k) fun _ => ite (bind take fun _ => pure _) (pure _)

theorem expect (k : Kind) (what : String) : (Script.expect k what).Groups encloses level :=
  bind (eat k) fun _ => ite (pure _) (reportExpected _ _)

theorem expectName (what : String) : (Script.expectName what).Groups encloses level :=
  bind (eat .id) fun _ => ite (pure _) (bind (reportExpected _ _) fun _ => pure _)

theorem expectSemicolon : Script.expectSemicolon.Groups encloses level :=
  bind (eat .semicolon) fun _ => ite (pure _) (bind (perform .reportSemicolon) fun _ => pure _)

theorem isBefore (k : Kind) : (Script.isBefore k).Groups encloses level :=
  bind (perform .atEnd) fun _ => ite (pure _) (bind (isAt k) fun _ => pure _)

theorem takeOpening : Script.takeOpening.Groups encloses level :=
  bind (perform .openDelimiter) fun _ => take

theorem expectClosing (k : Kind) (unclosed : Diagnostic.Kind) :
    (Script.expectClosing k unclosed).Groups encloses level :=
  bind (eat k) fun _ => ite (perform .closeDelimiter) (perform (.reportUnclosed unclosed))

/-! ### Mistakes and levels -/

theorem reportAndTake (kind : Diagnostic.Kind) :
    (Script.reportAndTake kind).Groups encloses level :=
  bind (report _ _) fun _ => bind (perform .exhausted) fun _ => ite (pure _) (plain rfl take)

theorem recover (kind : Diagnostic.Kind) (recovery : KindSet) :
    (Script.recover kind recovery).Groups encloses level := by
  have hstops : ∀ {encloses level}, Groups encloses level
      (Script.isAtOneOf recovery >>= fun b => if b then Pure.pure true else Script.atEnd) :=
    bind (isAtOneOf recovery) fun _ => ite (pure _) (perform .atEnd)
  exact bind hstops fun _ => ite (report _ _) (plain rfl (bind (report _ _) fun _ =>
    whileTrue (bind hstops fun _ => pure _) take))

theorem deeper {body : Script Unit} (hbody : body.Groups encloses level) :
    (Script.deeper body).Groups encloses level :=
  bind (perform .enter) fun _ => ite (bind hbody fun _ => perform .leave) (plain rfl (pure _))

end Groups

end Script

end Grammar

end Nominal
