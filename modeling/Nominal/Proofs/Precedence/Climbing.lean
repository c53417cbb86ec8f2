import Nominal.Proofs.Carried.Creations
import Nominal.Proofs.Precedence.Productions

/-!
# Climbing by Precedence

The loop over binary operators wraps what it has read so far again and again. Two facts carry
it. The operand to the left is bound tight enough for whatever operator comes next: it was an
operand to begin with, and afterwards its outermost operator is the one before. And a right
operand ends only where no operator follows that binds as tight as it asked for, so the next
operator binds no tighter than the one before.

## Main definitions

* `Place.Ready`: The trees of a group are bound tight enough for the next operator.
* `Stops`: No operator follows that binds as tight as a power.

## Theorems

* `stops_binaryScript`: Where operands joined by operators end.
* `grouped_binaryOperation`: One operator and its right operand.
* `grouped_readProduction`: All productions collect grouped trees.
-/

namespace Nominal

namespace Grammar

open Syntax (Kind KindSet Lexeme Tree operandLevel leftPower)

variable {limit : Option Nat} {readers : Readers} {level power : Nat} {us : List Tree}

/-! ### Powers -/

theorem power_le {op : Kind} (h : bindingPower? op = some power) : 1 ≤ power ∧ power < operandLevel := by
  unfold bindingPower? at h
  split at h <;> cases h <;> decide

/-- Only `??` binds as loose as it does. -/
theorem eq_coalesce {op : Kind} (h : bindingPower? op = some 1) : op = .questionQuestion := by
  unfold bindingPower? at h
  split at h
  · rfl
  all_goals cases h

theorem leftPower_le {op : Kind} (h : bindingPower? op = some power) :
    leftPower op power ≤ operandLevel := by
  have hpower := power_le h
  unfold leftPower
  split <;> omega

theorem rightPower_le {op : Kind} (h : bindingPower? op = some power) :
    rightPower op power ≤ operandLevel := by
  have hpower := power_le h
  unfold rightPower
  split <;> omega

/-- To the left nothing looser may stand, and nothing as loose where operators group to the right. -/
theorem le_leftPower (op : Kind) (power : Nat) :
    power ≤ leftPower op power ∧ (op = .questionQuestion → power < leftPower op power) := by
  unfold leftPower
  split
  · exact ⟨Nat.le_succ power, fun _ => Nat.lt_succ_self power⟩
  · next hother => exact ⟨Nat.le_refl power, fun hcoalesce => absurd hcoalesce hother⟩

/-- To the right nothing as loose may stand, unless operators group to the right. -/
theorem le_rightPower (op : Kind) (power : Nat) :
    power ≤ rightPower op power ∧ (op ≠ .questionQuestion → power < rightPower op power) := by
  unfold rightPower
  split
  · next hcoalesce => exact ⟨Nat.le_refl power, fun hother => absurd hcoalesce hother⟩
  · exact ⟨Nat.le_succ power, fun _ => Nat.lt_succ_self power⟩

/-- What an operator binds is bound tight enough for an operator that may follow its right
    operand. -/
theorem leftPower_le_of_lt {op next : Kind} {m : Nat} (hop : bindingPower? op = some power)
    (hnext : bindingPower? next = some m) (h : m < rightPower op power) :
    leftPower next m ≤ power := by
  have hm := power_le hnext
  unfold rightPower at h
  unfold leftPower
  split at h
  · next hcoalesce =>
      -- Nothing binds looser than the operator that groups to the right.
      rw [hcoalesce] at hop
      cases hop
      omega
  · next hother =>
      split
      · next hcoalesce =>
          rw [hcoalesce] at hnext
          cases hnext
          have hne : power ≠ 1 := fun hone => hother (eq_coalesce (hone ▸ hop))
          have hpower := power_le hop
          omega
      · omega

/-! ### Where operands end -/

/-- No operator follows that binds at least as tight as a power. -/
def Stops (power : Nat) (p : Place) : Prop :=
  ∀ op m, p.upcoming.head? = some op → bindingPower? op = some m → m < power

/-- What a round over a binary operator does: it ends where none follows that binds tight
    enough, or it reads one and its right operand. -/
theorem binaryOperation_read {p q : Place} {again : Bool}
    (h : (binaryOperation power).read limit readers p = some (again, q)) :
    (again = false ∧ q = p.skip ∧ Stops power p) ∨
      ∃ op m r, again = true ∧ p.upcoming.head? = some op ∧ bindingPower? op = some m ∧ power ≤ m ∧
        q = { r with output := [.node .binaryExpr r.output] } ∧
        (Script.take >>= fun _ => Script.isAtOneOf KindSet.exprFirst >>= fun b =>
          if b then Script.call (.binary (rightPower op m))
          else Script.reportExpected .expectedExpression "right operand").read limit readers p.skip
            = some ((), r) := by
  rcases read_bind_some h with ⟨next, r, hlook, h⟩
  rcases read_look hlook with ⟨rfl, rfl⟩
  cases hnext : p.upcoming.head? with
  | none =>
      rw [hnext] at h
      cases h
      exact .inl ⟨rfl, rfl, fun op m hop => nomatch hnext.symm.trans hop⟩
  | some op =>
      rw [hnext] at h
      dsimp only at h
      split at h
      · next hnone =>
          cases h
          refine .inl ⟨rfl, rfl, fun op' m hop hm => ?_⟩
          cases hnext.symm.trans hop
          cases hnone.symm.trans hm
      · next m hm =>
          split at h
          · next hloose =>
              cases h
              refine .inl ⟨rfl, rfl, fun op' m' hop hm' => ?_⟩
              cases hnext.symm.trans hop
              cases hm.symm.trans hm'
              exact hloose
          · next htight =>
              rcases read_bind_some h with ⟨u, s, henclose, hdone⟩
              cases hdone
              rcases enclose_read_iff.mp henclose with ⟨r, hread, rfl⟩
              exact .inr ⟨op, m, r, rfl, rfl, hm, Nat.le_of_not_lt htight, rfl, hread⟩

theorem stops_binaryScript {p q : Place} {u : Unit}
    (h : (binaryScript power).read limit readers p = some (u, q)) : Stops power q := by
  rcases read_group h with ⟨p', q', hbody, _, hrest⟩
  rcases read_bind_some hbody with ⟨_, r, _, hloop⟩
  have hstops : ∀ {p r}, Repeats ((binaryOperation power).read limit readers) p r → Stops power r := by
    intro p r hrepeats
    induction hrepeats with
    | stop hstep =>
        rcases binaryOperation_read hstep with ⟨_, rfl, hstops⟩ | ⟨_, _, _, hagain, _⟩
        · rwa [Stops, upcoming_skip]
        · cases hagain
    | again _ _ ih => exact ih
  rw [Stops, upcoming_of_rest hrest]
  exact hstops (read_repeatWhile hloop)

/-- Wherever a production of operators ends, none follows that binds tight enough. -/
def Stopped (readers : Readers) : Prop :=
  ∀ (power : Nat) (p q : Place) (u : Unit), readers (.binary power) p = some (u, q) → Stops power q

theorem stopped_readProduction (n : Nat) : Stopped (readProduction limit n) := by
  intro power p q u h
  cases n with
  | zero => cases h
  | succ n => exact stops_binaryScript h

/-! ### Operators and their operands -/

/-- The trees of a group are grouped at a level and bound tight enough for the next operator. -/
structure Place.Ready (level : Nat) (p : Place) : Prop where
  all : ∀ t ∈ p.output, t.IsGrouped level
  left : ∀ op m, p.upcoming.head? = some op → bindingPower? op = some m →
    ∀ t ∈ p.output, t.IsGrouped (leftPower op m)

/-- Operands are ready for any operator. -/
theorem Place.Ready.of_operand {p : Place} (h : p.Groups [] operandLevel)
    (hlevel : level ≤ operandLevel) : p.Ready level :=
  ⟨fun t ht => (h.all t ht).mono hlevel,
    fun _ _ _ hm t ht => (h.all t ht).mono (leftPower_le hm)⟩

/-- A token is taken and something is read behind it. -/
theorem take_read {α : Type} {f : Unit → Script α} {p q : Place} {a : α}
    (h : (Script.take >>= f).read limit readers p.skip = some (a, q)) :
    ∃ l trivia r, p.upcoming.head? = some l.kind ∧
      r.output = p.output ++ List.map Tree.token trivia ++ [.token l] ∧
      (f ()).read limit readers r = some (a, q) := by
  rcases read_bind_some h with ⟨_, r, htake, hrest⟩
  rcases read_take_iff.mp htake with ⟨l, ls, n, hls, _, rfl⟩
  refine ⟨l, p.skip.pending, _, ?_, rfl, hrest⟩
  rw [← next?_skip, Place.next?, hls]
  rfl

/-- An operator and its right operand are read, and what is collected then is ready for the
    next operator. -/
theorem grouped_binaryOperation (hreaders : Grouped readers) (hstopped : Stopped readers)
    (hlevel : level ≤ power) :
    Leads limit readers (Place.Ready level) (binaryOperation power) fun _ => Place.Ready level := by
  intro p q again hp h
  rcases binaryOperation_read h with ⟨_, rfl, _⟩ | ⟨op, m, r, _, hnext, hm, hpower, rfl, hread⟩
  · refine ⟨hp.all, fun op m hop => hp.left op m ?_⟩
    rwa [upcoming_skip] at hop
  · rcases take_read hread with ⟨l, trivia, s, hhead, houtput, hright⟩
    cases hnext.symm.trans hhead
    rcases read_bind_some hright with ⟨b, t, hask, hright⟩
    have ht : t = s.skip := by
      rcases read_bind_some hask with ⟨_, _, hlook, hdone⟩
      rcases read_look hlook with ⟨_, rfl⟩
      cases hdone
      rfl
    cases b with
    | false => cases hright
    | true =>
        rw [if_pos rfl, read_call] at hright
        have hlevels : Production.Groups (.binary (rightPower l.kind m)) (rightPower l.kind m) :=
          ⟨Nat.le_refl _, rightPower_le hm⟩
        rcases hreaders _ t.output _ hlevels _ _ _ (.refl t _) hright with ⟨vs, hr, hvs⟩
        have hnode : ∀ n, n ≤ m → (Syntax.Tree.node .binaryExpr r.output).IsGrouped n := by
          intro n hn
          rw [hr, ht, show s.skip.output = s.output from rfl, houtput, List.append_assoc,
            List.singleton_append]
          refine .binary hm hn (List.forall_mem_append.mpr ⟨hp.left _ _ hhead hm, ?_⟩) hvs
          intro u hu
          rcases List.mem_map.mp hu with ⟨k, _, rfl⟩
          exact .token _ k
        refine ⟨List.forall_mem_singleton.mpr (hnode _ (Nat.le_trans hlevel hpower)), ?_⟩
        intro op m' hop hm'
        exact List.forall_mem_singleton.mpr (hnode _ (leftPower_le_of_lt hm hm'
          (hstopped _ _ _ _ hright op m' hop hm')))

theorem grouped_binaryScript (hreaders : Grouped readers) (hstopped : Stopped readers)
    (hlevel : Production.Groups (.binary power) level) :
    Leads limit readers (Place.Groups us level) (binaryScript power)
      fun _ => Place.Groups us level := by
  have hbody : Leads limit readers (Place.Groups [] operandLevel)
      (Script.call .unary >>= fun _ => Script.repeatWhile (binaryOperation power))
      fun _ => Place.Ready level := by
    have hunary : (Script.call .unary).Groups true operandLevel := .call (Nat.le_refl operandLevel)
    exact .bind ((hunary.whole hreaders).post fun _ _ hp => .of_operand hp hlevel.2) fun _ =>
      .repeatWhile (grouped_binaryOperation hreaders hstopped hlevel.1)
  intro p q u hp h
  rcases Option.bind_eq_some_iff.mp h with ⟨⟨b, r⟩, hread, hdone⟩
  cases hdone
  exact hp.flush.add (hbody _ r _ (.of_all (List.forall_mem_nil _)) hread).all rfl

/-! ### Operands -/

open Script.Groups in
/-- A form behind an operand takes what stands before it as an operand. -/
theorem grouped_postfixForm (hreaders : Grouped readers) :
    Leads limit readers (Place.Groups [] operandLevel) postfixForm
      fun _ => Place.Groups [] operandLevel := by
  have hencloses : ∀ {k : Kind} {x : Script Unit}, k.inner = operandLevel → k.GroupsAt operandLevel →
      x.Groups true operandLevel →
      (Script.enclose k x >>= fun _ => Pure.pure true).Groups true operandLevel := by
    intro k x hinner hk hx
    exact bind ⟨rfl, hk, Nat.le_of_eq hinner, hinner ▸ hx, fun _ => trivial⟩ fun _ => pure _
  intro p q again hp h
  rcases read_bind_some h with ⟨next, r, hlook, h⟩
  rcases read_look hlook with ⟨rfl, rfl⟩
  have hskip : p.skip.Groups [] operandLevel := hp
  split at h
  · exact (hencloses (k := .memberAccess) rfl ⟨by decide, by decide, by decide⟩ (bind take fun _ =>
      bind (expectName _) fun _ => pure _)).whole hreaders _ q _ hskip h
  · exact (hencloses (k := .call) rfl ⟨by decide, by decide, by decide⟩ groups_argumentList).whole hreaders
      _ q _ hskip h
  · next hbracket =>
      rcases read_bind_some h with ⟨_, s, henclose, hdone⟩
      cases hdone
      rcases enclose_read_iff.mp henclose with ⟨r, hread, rfl⟩
      -- Behind the bracket any expression may stand, so what stands before it is kept apart.
      have htake : ∃ l trivia s, p.upcoming.head? = some l.kind ∧
          s.output = p.output ++ List.map Tree.token trivia ++ [.token l] ∧
          (exprRequired "index" >>= fun _ => Script.expectClosing .bracketClose
            .unclosedBracket).read limit readers s = some ((), r) := by
        rcases read_bind_some hread with ⟨_, s, hopening, hrest⟩
        rcases read_bind_some hopening with ⟨_, t, hdelimiter, htake⟩
        rw [read_perform] at hdelimiter
        cases hdelimiter
        rcases read_take_iff.mp htake with ⟨l, ls, n, hls, _, rfl⟩
        refine ⟨l, p.skip.skip.pending, _, ?_, rfl, hrest⟩
        rw [← next?_skip, ← skip_skip, Place.next?, hls]
        rfl
      rcases htake with ⟨l, trivia, s, hhead, houtput, hindex⟩
      have hgroups : (exprRequired "index" >>= fun _ => Script.expectClosing .bracketClose
          .unclosedBracket).Groups false 0 :=
        bind (groups_exprRequired _) fun _ => expectClosing _ _
      rcases hgroups.behind hreaders _ _ _ (.refl s 0) hindex with ⟨vs, hr, hvs⟩
      refine .of_all (List.forall_mem_singleton.mpr ?_)
      rw [hr, houtput, List.append_assoc, List.singleton_append]
      refine .index (Option.some.inj (hhead.symm.trans hbracket))
        (List.forall_mem_append.mpr ⟨hp.all, ?_⟩) hvs
      intro u hu
      rcases List.mem_map.mp hu with ⟨k, _, rfl⟩
      exact .token _ k
  · exact (hencloses (k := .postfixExpr) rfl ⟨by decide, by decide, by decide⟩ take).whole hreaders _ q _ hskip h
  · exact (hencloses (k := .postfixExpr) rfl ⟨by decide, by decide, by decide⟩ take).whole hreaders _ q _ hskip h
  · cases h
    exact hskip

theorem grouped_operand (hreaders : Grouped readers) (hlevel : level ≤ operandLevel) :
    Leads limit readers (Place.Groups us level) operand fun _ => Place.Groups us level := by
  have hbody : Leads limit readers (Place.Groups [] operandLevel)
      (primary >>= fun b => if b then Script.repeatWhile postfixForm else pure ())
      fun _ => Place.Groups [] operandLevel := by
    exact .cond (groups_primary.whole hreaders) (.repeatWhile (grouped_postfixForm hreaders))
      (.pure fun _ hp => hp)
  intro p q u hp h
  rcases Option.bind_eq_some_iff.mp h with ⟨⟨b, r⟩, hread, hdone⟩
  cases hdone
  have hr := (hbody _ r _ (.of_all (List.forall_mem_nil _)) hread).mono hlevel
  exact hp.flush.add hr.all rfl

open Script.Groups in
/-- What stands before an operand takes an operand. -/
theorem grouped_unaryScript (hreaders : Grouped readers) (hlevel : level ≤ operandLevel) :
    Leads limit readers (Place.Groups us level) unaryScript fun _ => Place.Groups us level := by
  have hunary : ∀ {encloses}, (Script.call .unary).Groups encloses operandLevel :=
    call (Nat.le_refl operandLevel)
  have hsign : (Script.deeper (Script.node .prefixExpr do
      Script.take
      if ← Script.isAtOneOf KindSet.exprFirst then Script.call .unary
      else Script.reportExpected .expectedExpression "operand")).Groups false level :=
    deeper (node ⟨nofun, nofun, nofun⟩ (bind take fun _ => bind (isAtOneOf _) fun _ =>
      ite hunary (reportExpected _ _)))
  have hcast : (Script.node .castExpr do
      Script.take
      let _ ← readType
      Script.expect .parenClose "`)`"
      Script.call .unary).Groups false level :=
    node ⟨nofun, nofun, nofun⟩ (bind take fun _ => bind groups_readType fun _ =>
      bind (expect _ _) fun _ => hunary)
  have hasks : isAtCast.Groups false level :=
    bind (isAt _) fun _ => ite (bind (perform .upcoming) fun _ => pure _) (pure _)
  exact .cond ((isAtOneOf _).behind hreaders) (hsign.behind hreaders)
    (.cond (hasks.behind hreaders) (hcast.behind hreaders) (grouped_operand hreaders hlevel))

/-- All productions collect grouped trees. -/
theorem grouped_readProduction (n : Nat) : Grouped (readProduction limit n) := by
  induction n with
  | zero =>
      intro q us level _ p r a _ h
      cases h
  | succ n ih =>
      intro q us level hq p r a hp h
      cases q with
      | items braced =>
          exact (groups_itemsScript braced).behind ih p r a hp h
      | member => exact groups_memberScript.behind ih p r a hp h
      | stmt => exact groups_stmtScript.behind ih p r a hp h
      | expr =>
          cases show level = 0 from hq
          exact groups_exprScript.behind ih p r a hp h
      | binary power => exact grouped_binaryScript ih (stopped_readProduction n) hq p r a hp h
      | unary => exact grouped_unaryScript ih hq p r a hp h
      | type => exact groups_typeScript.behind ih p r a hp h

end Grammar

end Nominal
