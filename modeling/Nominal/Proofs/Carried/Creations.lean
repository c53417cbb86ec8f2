import Nominal.Proofs.Carried.Operands
import Nominal.Proofs.Carried.Types
import Nominal.Proofs.Naming

/-!
# Carrying Over Creations That Get a Name

A creation that gets a name is read by other productions than before: the name is read as a
type, and the braces hold members of an initializer. What is read in the braces corresponds
member by member, and one that brings its name has got it put before it.

## Main definitions

* `AtMember`: Lexemes to come where a member may get its name.
* `Initialized`: Members of a creation and those of an initializer made of them.

## Theorems

* `back_member`: A member of a creation is carried over to one of an initializer.
* `carries_newExpr`: What starts with `new`.
-/

namespace Nominal

open Syntax (Kind KindSet Lexeme Tree IsName)

/-- Lexemes to come where a member may get its name. -/
def AtMember (e : Edit) (ls ms : List Lexeme) : Prop :=
  Spliced e ls ms ∨ ∃ trivia next ls' ms' name, ls = trivia ++ next :: ls' ∧
    ms = trivia ++ (Edit.assignLexemes name ++ ms') ∧ (∀ t ∈ trivia, t.isTrivia = true) ∧
    next.isTrivia = false ∧ IsName name ∧ Spliced e (next :: ls') ms'

/-- Trees of a creation and those of an initializer made of them. -/
def Initialized (e : Edit) (ts us : List Tree) : Prop :=
  ∃ vs, Altered e false ts vs ∧ AreNameable vs ∧ us = vs.map asInitializer

namespace AtMember

variable {e : Edit} {ls ms : List Lexeme}

/-- Behind a brace or a comma a member may get its name. -/
theorem behind {l : Lexeme} (hl : l.kind = .braceOpen ∨ l.kind = .comma) (h : AtMember e ls ms) :
    Spliced e (l :: ls) (l :: ms) := by
  rcases h with h | ⟨trivia, next, ls', ms', name, rfl, rfl, htrivia, hnext, hname, h⟩
  · exact .cons l h
  · exact .assign hl htrivia hnext hname h

theorem prepend {trivia : List Lexeme} (htrivia : ∀ t ∈ trivia, t.isTrivia = true)
    (h : AtMember e ls ms) : AtMember e (trivia ++ ls) (trivia ++ ms) := by
  rcases h with h | ⟨more, next, ls', ms', name, rfl, rfl, hmore, hnext, hname, h⟩
  · exact .inl (h.prepend trivia)
  · refine .inr ⟨trivia ++ more, next, ls', ms', name, ?_, ?_, ?_, hnext, hname, h⟩
    · rw [List.append_assoc]
    · rw [List.append_assoc]
    · exact List.forall_mem_append.mpr ⟨htrivia, hmore⟩

end AtMember

/-- A member that brings its name gets it where no trivia stands before it. -/
theorem AtMember.assigned {e : Edit} {p : Grammar.Place} {ms : List Lexeme} {name : String}
    (hp : p.IsSettled) (hfirst : p.upcoming.head?.any KindSet.exprFirst.contains = true)
    (hname : IsName name) (h : Spliced e p.rest ms) :
    AtMember e p.rest (Edit.assignLexemes name ++ ms) := by
  cases hrest : p.rest with
  | nil =>
      rw [← hp.next?_eq, Grammar.Place.next?, hrest] at hfirst
      cases hfirst
  | cons l ls =>
      rw [hrest] at h
      exact .inr ⟨[], l, ls, ms, name, rfl, rfl, List.forall_mem_nil _,
        hp l (by rw [hrest]; rfl), hname, h⟩

theorem AreNameable.of_append {ts us : List Tree} (h : AreNameable (ts ++ us)) : AreNameable ts :=
  fun ms hms => h ms (List.mem_append_left us hms)

theorem peels_initialized (e : Edit) : Grammar.Peels (Initialized e) := by
  rintro ts ls us ⟨vs, hvs, hnameable, rfl⟩
  rcases hvs.append_tokens with ⟨ws, rfl, hws⟩
  refine ⟨ws.map asInitializer, ?_, ws, hws, hnameable.of_append, rfl⟩
  rw [List.map_append, List.map_map]
  rfl

/-- A member with its name written brings none. -/
theorem impliedName?_written {ts : List Tree} {name equals : Lexeme} (hname : .token name ∈ ts)
    (hid : name.kind = .id) (hequals : .token equals ∈ ts) (hkind : equals.kind = .equals) :
    impliedName? ts = none := by
  rw [impliedName?_eq, if_pos]
  refine ⟨List.find?_isSome.mpr ⟨equals, ?_, beq_iff_eq.mpr hkind⟩,
    List.find?_isSome.mpr ⟨name, ?_, beq_iff_eq.mpr hid⟩⟩
  · exact List.mem_filterMap.mpr ⟨.token equals, hequals, rfl⟩
  · exact List.mem_filterMap.mpr ⟨.token name, hname, rfl⟩

namespace Grammar

open Script

variable {c : Course} {i : Nat}

/-- The value of a member behind its name. -/
def namedValue : Script Unit := do
  take
  expect .equals "`=`"
  exprRequired "member value"

section Taking

variable {limit : Option Nat} {readers : Readers}

/-- What is expected is there and is taken. -/
theorem read_expect_iff {k : Kind} {what : String} {p q : Place} {u : Unit} :
    (expect k what).read limit readers p = some (u, q) ↔
      p.upcoming.head? = some k ∧ take.read limit readers p.skip = some (u, q) := by
  rw [expect, eat, read_bind, read_bind, isAt_read, Option.bind_some]
  dsimp only
  by_cases hhead : p.upcoming.head? = some k
  · rw [hhead, beq_self_eq_true, if_pos rfl, read_bind]
    cases take.read limit readers p.skip with
    | none => exact (and_iff_right rfl).symm
    | some r => exact (and_iff_right rfl).symm
  · rw [if_neg fun h => hhead (eq_of_beq h)]
    refine iff_of_false (fun h => ?_) fun h => hhead h.1
    cases h

theorem read_exprRequired_iff {what : String} {p q : Place} {u : Unit} :
    (exprRequired what).read limit readers p = some (u, q) ↔
      p.upcoming.head?.any KindSet.exprFirst.contains = true ∧
        readers .expr p.skip = some (u, q) := by
  rw [exprRequired, read_bind, isAtOneOf_read, Option.bind_some]
  dsimp only
  split
  · next hfirst => rw [read_call, hfirst, and_iff_right rfl]
  · next hfirst => exact ⟨nofun, fun h => absurd h.1 hfirst⟩

/-- The name and the equals sign of a member are among its trees. -/
theorem tokens_namedValue (hframed : IsFramed (readers .expr)) {p q : Place} {u : Unit}
    (hp : p.IsSettled) (hid : p.upcoming.head? = some .id)
    (h : namedValue.read limit readers p = some (u, q)) :
    ∃ name equals : Lexeme, .token name ∈ q.output ∧ name.kind = .id ∧ .token equals ∈ q.output ∧
      equals.kind = .equals := by
  rcases read_bind_some h with ⟨_, r, htake, h⟩
  rcases read_bind_some h with ⟨_, s, hexpect, h⟩
  rcases read_take_iff.mp htake with ⟨name, ls, n, hrest, _, rfl⟩
  rcases read_expect_iff.mp hexpect with ⟨hequals, htake'⟩
  rcases read_take_iff.mp htake' with ⟨equals, ls', n', hrest', _, rfl⟩
  rcases read_exprRequired_iff.mp h with ⟨_, hexpr⟩
  rw [hframed, Option.map_eq_some_iff] at hexpr
  rcases hexpr with ⟨⟨_, t⟩, _, hq⟩
  cases hq
  refine ⟨name, equals, ?_, ?_, ?_, ?_⟩
  · simp [Place.behind, Place.flush, Place.skip, Place.taken]
  · rw [← hp.next?_eq, Place.next?, hrest] at hid
    exact Option.some.inj hid
  · simp [Place.behind, Place.flush, Place.skip, Place.taken]
  · rw [← next?_skip, Place.next?, hrest'] at hequals
    exact Option.some.inj hequals

/-- A value is read behind a name that was put before it. -/
theorem read_namedValue (hframed : IsFramed (readers .expr)) {p q : Place} {name : String} {u : Unit}
    (hp : p.IsSettled) (hfirst : p.upcoming.head?.any KindSet.exprFirst.contains = true)
    (hpending : p.pending = []) (hout : p.output = []) (h : readers .expr p = some (u, q)) :
    namedValue.read limit readers
        { p with rest := Edit.assignLexemes name ++ p.rest, fuel := p.fuel + 2 }
      = some (u, q.behind (nameAssignment name)) := by
  rw [namedValue, read_bind, read_take_iff (u := ()) |>.mpr ⟨_, _, p.fuel + 1, rfl, rfl, rfl⟩,
    Option.bind_some, read_bind, read_expect_iff (u := ()) |>.mpr
      ⟨rfl, read_take_iff.mpr ⟨_, _, p.fuel, rfl, rfl, rfl⟩⟩,
    Option.bind_some, read_exprRequired_iff.mpr ⟨?_, ?_⟩]
  · exact hfirst
  · have hstep : ∀ r : Place, r.rest = ⟨.whitespace, " "⟩ :: p.rest → r.pending = [] →
        r.depth = p.depth → r.opened = p.opened → r.fuel = p.fuel →
        readers .expr r.skip = some (u, q.behind (r.output ++ [space])) := by
      intro r hrest hnone hdepth hopened hfuel
      have htrivia : p.rest.takeWhile Lexeme.isTrivia = [] ∧ p.skip.rest = p.rest := by
        rw [hp.skip_eq]
        have hskip := congrArg Place.pending hp.skip_eq
        rw [Place.skip] at hskip
        exact ⟨List.append_right_eq_self.mp hskip, rfl⟩
      have hfresh : r.skip.fresh = p := by
        have hdrop : r.rest.dropWhile Lexeme.isTrivia = p.rest := by
          rw [hrest]
          exact htrivia.2
        rw [Place.fresh, Place.flush, Place.skip]
        dsimp only
        rw [hdrop, hdepth, hopened, hfuel, ← hpending, ← hout]
      have hflush : r.skip.flush.output = r.output ++ [space] := by
        have htake : r.rest.takeWhile Lexeme.isTrivia = [⟨.whitespace, " "⟩] := by
          rw [hrest]
          exact congrArg (List.cons _) htrivia.1
        rw [Place.flush, Place.skip]
        dsimp only
        rw [htake, hnone]
        rfl
      rw [hframed, hfresh, hflush, h]
      rfl
    refine Eq.trans (hstep (Place.taken _ _ _ _) rfl rfl rfl rfl rfl) ?_
    simp only [Place.taken, Place.flush, Place.skip, hpending, hout]
    rfl

end Taking

/-- The body of a member of a creation. -/
def memberBody : Script Unit := do
  if ← isAtPair .id .equals then namedValue else call .expr

theorem initializerElement_read {limit : Option Nat} {readers : Readers} {p : Place}
    (hp : p.IsSettled) :
    initializerElement.read limit readers p =
      if startWith .id .equals p.upcoming then (node .memberInit namedValue).read limit readers p
      else readers .expr p := by
  have hdef : initializerElement
      = isAtPair .id .equals >>= fun b => if b then node .memberInit namedValue else call .expr := rfl
  rw [hdef, read_bind, isAtPair_read, Option.bind_some, hp.skip_eq]
  split
  · rfl
  · rw [read_call]

theorem memberBody_read {limit : Option Nat} {readers : Readers} {p : Place} (hp : p.IsSettled) :
    memberBody.read limit readers p =
      if startWith .id .equals p.upcoming then namedValue.read limit readers p
      else readers .expr p := by
  rw [memberBody, read_bind, isAtPair_read, Option.bind_some, hp.skip_eq]
  split
  · rfl
  · rw [read_call]

theorem carries_memberBody {items : Bool} (hc : c.IsFollowed) : c.Carries items memberBody :=
  .bind (fun _ => .isAtPair .id .equals rfl) fun _ => .ite
    (.bind .take fun _ => .bind (.expect _ _) fun _ => carries_exprRequired hc _)
    (carries_call hc .expr nofun)

/-- A node and the place behind it come from the body of the node. -/
theorem node_read_iff {kind : Kind} {x : Script Unit} {limit : Option Nat} {readers : Readers}
    {p q : Place} {u : Unit} :
    (node kind x).read limit readers p = some (u, q) ↔
      ∃ r, x.read limit readers p.fresh = some (u, r) ∧
        q = { r with output := p.flush.output ++ [.node kind r.output] } := by
  constructor
  · intro h
    rcases Option.bind_eq_some_iff.mp h with ⟨⟨b, r⟩, hbody, hdone⟩
    cases hdone
    exact ⟨r, hbody, rfl⟩
  · rintro ⟨r, hbody, rfl⟩
    have henter : (Grouping.node kind).enter p = p.fresh := rfl
    rw [node, Script.read, henter, hbody]
    rfl

/-- A member of a creation is carried over to one of an initializer. -/
theorem back_member (hc : c.IsFollowed) (hframed : IsFramed (c.behind .expr))
    (hnode : MakesNode (c.behind .expr)) {s t : Place} {u : Unit} (hs : s.IsSettled)
    (hi : i ≤ s.opened) (hfirst : s.upcoming.head?.any KindSet.exprFirst.contains = true)
    (h : anonymousMember.read c.limit c.before s = some (u, t)) :
    t.opened = s.opened ∧ ∀ t', c.Linked (Initialized c.edit) t t' →
      ∃ s', c.LinkedBy (AtMember c.edit) (Initialized c.edit) s s' ∧ s'.IsSettled ∧
        s'.upcoming.head?.any KindSet.exprFirst.contains = true ∧
        initializerElement.read c.limit c.behind s' = some (u, t') := by
  rcases node_read_iff.mp h with ⟨r, hbody, rfl⟩
  have hcarries : c.Carries false memberBody := carries_memberBody hc
  rcases hcarries i s.fresh r u hi hbody with ⟨hopened, hback⟩
  refine ⟨Nat.add_right_cancel hopened, fun t' ht => ?_⟩
  rcases ht.output with ⟨vs, hvs, hnameable, hout⟩
  rcases hvs.append with ⟨xs, ws, rfl, hxs, hws⟩
  rcases hws.single_plain rfl rfl with ⟨ds, rfl, hds⟩
  rcases hback { t' with output := ds } (ht.collect hds) with ⟨b', hb, hread⟩
  have hempty : b'.output = [] := Altered.of_nil hb.output
  have hpending : b'.pending = [] := hb.pending
  have hsettled : b'.IsSettled := fun l hl => hs l (hb.rest.head ▸ hl)
  have hhead : b'.upcoming.head? = s.upcoming.head? := hb.rest.foretold.head
  rcases peels_initialized c.edit _ _ _ ⟨xs, hxs, hnameable.of_append, rfl⟩
    with ⟨os, hos, hinitialized⟩
  -- The place before the member, where what was set aside is collected with the member.
  have hplace : ∀ (ls : List Lexeme) (n : Nat) (cs : List Tree),
      (∀ l, ls.head? = some l → l.isTrivia = false) → startWith .id .equals (kindsOf ls) = true →
      namedValue.read c.limit c.behind { b' with rest := ls, fuel := n }
          = some (u, { t' with output := cs }) →
        t'.output = xs.map asInitializer ++ [.node .memberInit cs] →
        initializerElement.read c.limit c.behind
          { b' with rest := ls, fuel := n, output := os, pending := s.pending } = some (u, t') := by
    intro ls n cs hls hpair hnamed hcs
    rw [initializerElement_read (p := { b' with
      rest := ls, fuel := n, output := os, pending := s.pending }) hls]
    refine (if_pos hpair).trans ?_
    refine node_read_iff.mpr ⟨{ t' with output := cs }, ?_, ?_⟩
    · rw [Place.fresh, Place.flush]
      dsimp only
      rw [← hempty, ← hpending]
      exact hnamed
    · rw [Place.flush]
      dsimp only
      rw [← hos, ← hcs]
  rw [memberBody_read hsettled] at hread
  rw [List.map_append] at hout
  split at hread
  · next hpair =>
      -- The name is written already.
      have hid : b'.upcoming.head? = some .id := by
        rw [startWith] at hpair
        split at hpair
        · next hid => exact eq_of_beq hid
        · cases hpair
      rcases tokens_namedValue hframed hsettled hid hread with ⟨name, equals, hname, hid, hequals, hkind⟩
      have himplied := impliedName?_written hname hid hequals hkind
      refine ⟨{ b' with output := os, pending := s.pending },
        ⟨.inl hb.rest, rfl, hinitialized, hb.depth, hb.opened, hb.fuel, hb.ahead⟩, hsettled, ?_, ?_⟩
      · rw [← hfirst, ← hhead]
        rfl
      · refine hplace b'.rest b'.fuel ds hsettled hpair hread ?_
        rw [hout, List.map_singleton, asInitializer, himplied]
        rfl
  · next hpair =>
      -- The value brings the name, which is put before it.
      rcases hnode _ _ _ hsettled hpending hread with ⟨kind, cs, hsingle⟩
      rw [hempty, List.nil_append] at hsingle
      rcases hnameable ds (List.mem_append_right _ (List.mem_singleton_self _))
        with ⟨l, hl, _⟩ | ⟨name, himplied, hname⟩
      · rw [show ds = _ from hsingle] at hl
        cases List.mem_singleton.mp hl
      · have hfirst' : b'.upcoming.head?.any KindSet.exprFirst.contains = true := by
          rw [hhead, hfirst]
        have hnamed : namedValue.read c.limit c.behind
            { b' with rest := Edit.assignLexemes name ++ b'.rest, fuel := b'.fuel + 2 } = _ :=
          read_namedValue hframed hsettled hfirst' hpending hempty hread
        refine ⟨{ b' with
            rest := Edit.assignLexemes name ++ b'.rest, fuel := b'.fuel + 2, output := os,
            pending := s.pending }, ⟨?_, rfl, hinitialized, hb.depth, hb.opened, ?_, ?_⟩, ?_, rfl, ?_⟩
        · exact AtMember.assigned hs hfirst hname hb.rest
        · have hfuel := hb.fuel
          have hfresh : s.fresh.rest = s.rest ∧ s.fresh.fuel = s.fuel := ⟨rfl, rfl⟩
          have hkinds : kindsOf (Edit.assignLexemes name) = [.id, .equals] := rfl
          rw [hfresh.1, hfresh.2] at hfuel
          rw [kindsOf_append, hkinds, List.length_append, List.length_cons, List.length_singleton]
          dsimp only
          omega
        · have hahead := hb.ahead
          rw [List.length_append]
          exact Nat.le_add_left_of_le hahead
        · intro l hl
          cases hl
          rfl
        · refine hplace _ _ _ ?_ rfl hnamed ?_
          · intro l hl
            cases hl
            rfl
          rw [hout, List.map_singleton, asInitializer, himplied]
          rfl

/-! ### Members in braces -/

section Lists

variable {limit : Option Nat} {readers : Readers}

/-- What ends a list where no item comes next. -/
def endsList (close : Kind) (next : Option Kind) : Bool :=
  next.all fun k => k == close || KindSet.listRecovery.contains k

theorem commaItem_read {close : Kind} {item : Script Unit}
    (hclose : KindSet.exprFirst.contains close = false) (p : Place) :
    (commaItem close item).read limit readers p =
      if p.upcoming.head?.any KindSet.exprFirst.contains then
        (item >>= fun _ => eat .comma).read limit readers p.skip
      else if endsList close p.upcoming.head? then some (false, p.skip)
      else none := by
  rw [commaItem, read_bind, isBefore_read, Option.bind_some]
  dsimp only
  cases hhead : p.upcoming.head? with
  | none => rfl
  | some k =>
      rw [Option.any_some, Option.any_some, endsList, Option.all_some]
      by_cases hk : k = close
      · subst hk
        rw [bne_self_eq_false, hclose, beq_self_eq_true]
        rfl
      · rw [if_pos (bne_iff_ne.mpr hk), read_bind, isAtOneOf_read, Option.bind_some, upcoming_skip,
          skip_skip, hhead, Option.any_some]
        dsimp only
        split
        · rfl
        · rw [read_bind, isAtOneOf_read, Option.bind_some, upcoming_skip, skip_skip, hhead,
            Option.any_some, beq_eq_false_iff_ne.mpr hk, Bool.false_or]
          dsimp only
          split <;> rfl

end Lists

/-- Two places in a creation that correspond. -/
abbrev Course.AtMembers (c : Course) : Place → Place → Prop :=
  c.LinkedBy (AtMember c.edit) (Initialized c.edit)

theorem Course.LinkedBy.atMember {p p' : Place} (h : c.Linked (Initialized c.edit) p p') :
    c.AtMembers p p' :=
  ⟨.inl h.rest, h.pending, h.output, h.depth, h.opened, h.fuel, h.ahead⟩

/-- A member of a creation and the comma behind it are carried over to an initializer. -/
theorem retraces_memberItem (hc : c.IsFollowed) (hframed : IsFramed (c.behind .expr))
    (hnode : MakesNode (c.behind .expr)) :
    Retraces i i c.AtMembers
      (fun again => if again then c.AtMembers else c.Linked (Initialized c.edit))
      ((commaItem .braceClose anonymousMember).read c.limit c.before)
      ((commaItem .braceClose initializerElement).read c.limit c.behind) := by
  intro p q again hi h
  rw [commaItem_read rfl] at h
  split at h
  · next hfirst =>
      rcases read_bind_some h with ⟨u, t, hmember, hcomma⟩
      rw [← upcoming_skip] at hfirst
      rcases back_member hc hframed hnode (isSettled_skip p) hi hfirst hmember with ⟨hopened, hback⟩
      have hbehind : ∀ {l : Lexeme} {ls ms : List Lexeme}, l.kind = .comma → AtMember c.edit ls ms →
          Spliced c.edit (l :: ls) (l :: ms) := fun hl hms => hms.behind (.inr hl)
      rcases Retraces.eat (peels_initialized c.edit) hbehind t q again
          (show i ≤ t.opened by rw [hopened]; exact hi) hcomma with ⟨hopened', hback'⟩
      refine ⟨by rw [hopened', hopened]; rfl, fun q' hq => ?_⟩
      rcases hback' q' hq with ⟨t', ht, hcomma'⟩
      rcases hback t' ht with ⟨s', hs, hsettled, hfirst', hmember'⟩
      rcases Course.LinkedBy.unskip (fun _ htrivia hrest => hrest.prepend htrivia) hsettled hs
        with ⟨p', hp, rfl⟩
      refine ⟨p', hp, ?_⟩
      rw [upcoming_skip] at hfirst'
      rw [commaItem_read rfl, if_pos hfirst', read_bind, hmember']
      exact hcomma'
  · next hfirst =>
      split at h
      · next hends =>
          cases h
          refine ⟨rfl, fun q' hq => ?_⟩
          rcases Course.Linked.unskip hq with ⟨p', hp, rfl⟩
          have hhead : p'.upcoming.head? = p.upcoming.head? := hp.rest.foretold.head
          refine ⟨p', hp.atMember, ?_⟩
          rw [commaItem_read rfl, hhead, if_neg hfirst, if_pos hends]
      · cases h

/-- What is read in a list behind the delimiter that opens it. -/
def listRest (close : Kind) (unclosed : Diagnostic.Kind) (item : Script Unit) : Script Unit := do
  repeatWhile (commaItem close item)
  expectClosing close unclosed

/-- A list is read in the same way behind whatever stands before it. -/
theorem commaList_read_iff {limit : Option Nat} {readers : Readers} {close : Kind}
    {unclosed : Diagnostic.Kind} {item : Script Unit} (hitem : Collects (item.read limit readers))
    {p q : Place} {l : Lexeme} {ls : List Lexeme} {u : Unit} (hl : l.isTrivia = false)
    (hrest : p.rest = l :: ls) :
    (commaList close unclosed item).read limit readers p = some (u, q) ↔
      ∃ n more r, p.fuel = n + 1 ∧ r.output = .token l :: more ∧
        (listRest close unclosed item).read limit readers
            ⟨ls, [], [.token l], p.depth, p.opened + 1, n⟩ = some (u, r) ∧
        q = r.behind p.flush.output := by
  have hsettled : p.IsSettled := fun m hm => by
    rw [hrest] at hm
    cases hm
    exact hl
  have hdef : commaList close unclosed item
      = perform .openDelimiter >>= fun _ => take >>= fun _ => listRest close unclosed item := rfl
  have hopen : (perform .openDelimiter).read limit readers p
      = some ((), { p with opened := p.opened + 1 }) := by
    rw [read_perform, Op.read, hsettled.skip_eq]
  have hcollects : Collects ((listRest close unclosed item).read limit readers) :=
    collects_bind (collects_repeatWhile (collects_commaItem close hitem)) fun _ =>
      collects_expectClosing close unclosed
  rw [hdef, read_bind, hopen, Option.bind_some, read_bind]
  constructor
  · intro h
    rcases Option.bind_eq_some_iff.mp h with ⟨⟨_, s⟩, htake, h⟩
    rcases read_take_iff.mp htake with ⟨m, ms, n, hrest', hfuel, rfl⟩
    rw [show p.rest = _ from hrest', List.cons.injEq] at hrest
    rcases hrest with ⟨rfl, rfl⟩
    have hplace : Place.taken { p with opened := p.opened + 1 } m ms n
        = (⟨ms, [], [.token m], p.depth, p.opened + 1, n⟩ : Place).behind p.flush.output := rfl
    rw [hplace, hcollects, Option.map_eq_some_iff] at h
    rcases h with ⟨⟨_, r⟩, hread, hdone⟩
    cases hdone
    have hstart : (⟨ms, [], [.token m], p.depth, p.opened + 1, n⟩ : Place)
        = (⟨ms, [], [], p.depth, p.opened + 1, n⟩ : Place).behind [.token m] := rfl
    have hmore := hread
    rw [hstart, hcollects, Option.map_eq_some_iff] at hmore
    rcases hmore with ⟨⟨_, s⟩, _, hdone⟩
    cases hdone
    exact ⟨n, s.output, _, hfuel, rfl, hread, rfl⟩
  · rintro ⟨n, more, r, hfuel, hout, hread, rfl⟩
    rw [read_take_iff (p := { p with opened := p.opened + 1 }) (u := ()) |>.mpr
      ⟨l, ls, n, hrest, hfuel, rfl⟩, Option.bind_some]
    have hplace : Place.taken { p with opened := p.opened + 1 } l ls n
        = (⟨ls, [], [.token l], p.depth, p.opened + 1, n⟩ : Place).behind p.flush.output := rfl
    rw [hplace, hcollects, hread]
    rfl

/-- What is read in the braces of a creation is carried over to an initializer. -/
theorem retraces_members (hc : c.IsFollowed) (hframed : IsFramed (c.behind .expr))
    (hnode : MakesNode (c.behind .expr)) :
    Retraces (i + 1) i c.AtMembers (fun _ => c.Linked (Initialized c.edit))
      ((listRest .braceClose .unclosedBrace anonymousMember).read c.limit c.before)
      ((listRest .braceClose .unclosedBrace initializerElement).read c.limit c.behind) := by
  have hround : Retraces (i + 1) (i + 1) c.AtMembers
      (fun r => if r.1 then c.AtMembers else c.Linked (Initialized c.edit))
      ((commaItem .braceClose anonymousMember >>= fun again => pure (again, ())).read c.limit
        c.before)
      ((commaItem .braceClose initializerElement >>= fun again => pure (again, ())).read c.limit
        c.behind) := by
    refine Retraces.scripts (retraces_memberItem hc hframed hnode) fun again => ?_
    exact Retraces.pure (M := fun (r : Bool × Unit) =>
      if r.1 then c.AtMembers else c.Linked (Initialized c.edit)) (again, ())
  have hloop : Retraces (i + 1) (i + 1) c.AtMembers (fun _ => c.Linked (Initialized c.edit))
      ((repeatWhile (commaItem .braceClose anonymousMember)).read c.limit c.before)
      ((repeatWhile (commaItem .braceClose initializerElement)).read c.limit c.behind) :=
    Retraces.loop (fun _ => hround) (fun hp => Nat.le_of_add_right_le hp.ahead) fun _ =>
      Retraces.pure ()
  exact Retraces.scripts hloop fun _ => Follows.expectClosing (peels_initialized c.edit) _ _

theorem collects_initializerElement {limit : Option Nat} {readers : Readers}
    (hframed : IsFramed (readers .expr)) : Collects (initializerElement.read limit readers) := by
  have hcall : Collects ((call .expr).read limit readers) := fun p ts => by
    rw [read_call, read_call]
    exact hframed.collects p ts
  exact collects_bind (collects_bind (collects_isAt _) fun _ => collects_ite
      (collects_bind (collects_perform _) fun _ => collects_pure _) (collects_pure _))
    fun _ => collects_ite (framed_node _ _).collects hcall

/-- What stands in the braces of a creation is carried over to an initializer. -/
theorem back_braces (hc : c.IsFollowed) (hframed : IsFramed (c.behind .expr))
    (hnode : MakesNode (c.behind .expr)) {p q : Place} {l : Lexeme} {ls : List Lexeme} {u : Unit}
    (hi : i ≤ p.opened) (hrest : p.rest = l :: ls) (hl : l.kind = .braceOpen)
    (h : (commaList .braceClose .unclosedBrace anonymousMember).read c.limit c.before p
      = some (u, q)) :
    q.opened = p.opened ∧ ∃ more, q.output = p.flush.output ++ .token l :: more ∧
      ∀ q', c.Linked (Initialized c.edit) { q with output := .token l :: more } q' →
        ∃ ms n, c.Linked (Initialized c.edit) p.fresh ⟨l :: ms, [], [], p.depth, p.opened, n⟩ ∧
          (commaList .braceClose .unclosedBrace initializerElement).read c.limit c.behind
            ⟨l :: ms, [], [], p.depth, p.opened, n⟩ = some (u, q') := by
  have htoken := isTrivia_eq_false hl rfl
  rcases (commaList_read_iff (framed_node _ _).collects htoken hrest).mp h
    with ⟨n, more, r, hfuel, hout, hread, rfl⟩
  rcases retraces_members hc hframed hnode _ r u (Nat.succ_le_succ hi) hread with ⟨hopened, hback⟩
  refine ⟨by dsimp only [Place.behind] at hopened ⊢; omega, more, ?_, fun q' hq => ?_⟩
  · rw [Place.behind, hout]
  · rcases hback q' (by rw [Place.behind, ← hout] at hq; exact hq) with ⟨s', hs, hread'⟩
    rcases hs.output with ⟨vs, hvs, _, hmap⟩
    have hsingle : s'.output = [.token l] := by
      have hbare : Altered c.edit false ([l].map .token) vs := hvs
      rw [hmap, hbare.tokens]
      rfl
    have hplace : s' = ⟨s'.rest, [], [.token l], p.depth, p.opened + 1, s'.fuel⟩ := by
      rw [← hsingle, ← show s'.pending = [] from hs.pending,
        ← show s'.depth = p.depth from hs.depth, ← show s'.opened = p.opened + 1 from hs.opened]
    have hcount := hs.fuel
    have hahead := hs.ahead
    dsimp only at hcount hahead
    refine ⟨s'.rest, s'.fuel + 1, ⟨?_, rfl, ⟨[], .nil, fun _ h => (List.not_mem_nil h).elim, rfl⟩, rfl, rfl, ?_, ?_⟩,
      ?_⟩
    · rw [show p.fresh.rest = l :: ls from hrest]
      exact hs.rest.behind (.inl hl)
    · rw [show p.fresh.rest = l :: ls from hrest, show p.fresh.fuel = n + 1 from hfuel,
        kindsOf_cons htoken, kindsOf_cons htoken, List.length_cons, List.length_cons]
      dsimp only
      omega
    · rw [show p.fresh.rest = l :: ls from hrest, List.length_cons, List.length_cons]
      omega
    · rw [hplace] at hread'
      rcases hq.output with ⟨ws, hws, _, hout'⟩
      cases hws with
      | token _ _ =>
          exact (commaList_read_iff (collects_initializerElement hframed) htoken rfl).mpr
            ⟨s'.fuel, _, q', rfl, hout', hread', rfl⟩

/-! ### What starts with `new` -/

/-- The keyword of a creation, and a look at what follows it. -/
def newStart : Script (Option Kind) := do
  perform (.require .kwNew)
  take
  look

/-- What follows `new`, by the kind of the next token. -/
def newForm : Option Kind → Script Unit
  | some .braceOpen =>
    enclose .anonObjectCreation (commaList .braceClose .unclosedBrace anonymousMember)
  | some .bracketOpen =>
    enclose .arrayCreation do
      take
      expect .bracketClose "`]`"
      arrayInitializerRequired
  | some .id | some .predefinedType => newOfType
  | _ => enclose .objectCreation (report .expectedType)

theorem newExpr_eq : newExpr = frame (newStart >>= newForm) := rfl

/-- The productions of types that read a name before a brace as a type. -/
def ReadsNames (readers : Readers) : Prop :=
  ∀ {p : Place} {l : Lexeme} {trivia ls : List Lexeme} {n : Nat}, p.rest = l :: (trivia ++ ls) →
    l.kind = .id → (∀ t ∈ trivia, t.isTrivia = true) → ls.head?.map Lexeme.kind = some .braceOpen →
    p.fuel = n + 1 → readers .type p = some (some .namedType,
      ⟨ls, trivia, p.flush.output ++ [.node .namedType [.token l]], p.depth, p.opened, n⟩)

section Named

variable {limit : Option Nat} {readers : Readers}

theorem require_read (k : Kind) (p : Place) :
    (perform (.require k)).read limit readers p =
      if p.upcoming.head? = some k then some ((), p.skip) else none := by
  rw [read_perform, Op.read, next?_skip]

/-- The keyword is read with the trivia around it. -/
theorem newStart_read_iff {p s : Place} {k : Option Kind} (hpending : p.pending = [])
    (hout : p.output = []) :
    newStart.read limit readers p = some (k, s) ↔
      ∃ before l trivia ls n, p.rest = before ++ l :: (trivia ++ ls) ∧
        (∀ t ∈ before, t.isTrivia = true) ∧ l.kind = .kwNew ∧
        (∀ t ∈ trivia, t.isTrivia = true) ∧ (∀ m, ls.head? = some m → m.isTrivia = false) ∧
        p.fuel = n + 1 ∧ k = ls.head?.map Lexeme.kind ∧
        s = ⟨ls, trivia, before.map .token ++ [.token l], p.depth, p.opened, n⟩ := by
  have hdef : newStart = perform (.require .kwNew) >>= fun _ => take >>= fun _ => look := rfl
  rw [hdef, read_bind, require_read]
  constructor
  · intro h
    split at h
    · next hnew =>
        rw [Option.bind_some, read_bind] at h
        rcases Option.bind_eq_some_iff.mp h with ⟨⟨_, r⟩, htake, hlook⟩
        rcases read_take_iff.mp htake with ⟨l, ls, n, hrest, hfuel, rfl⟩
        rw [look_read] at hlook
        cases hlook
        refine ⟨p.rest.takeWhile Lexeme.isTrivia, l, ls.takeWhile Lexeme.isTrivia,
          ls.dropWhile Lexeme.isTrivia, n, ?_, List.all_eq_true.mp List.all_takeWhile, ?_,
          List.all_eq_true.mp List.all_takeWhile, ?_, hfuel, ?_, ?_⟩
        · rw [List.takeWhile_append_dropWhile, ← hrest]
          exact List.takeWhile_append_dropWhile.symm
        · rw [← next?_skip, Place.next?, hrest] at hnew
          exact Option.some.inj hnew
        · exact fun m hm => ((p.skip.taken l ls n).head_skip hm)
        · exact (next?_skip _).symm
        · rw [Place.skip, Place.taken, Place.flush, Place.skip]
          simp only [hpending, hout, List.nil_append]
    · cases h
  · rintro ⟨before, l, trivia, ls, n, hrest, hbefore, hl, htrivia, hls, hfuel, rfl, rfl⟩
    have htoken : ∀ m, (l :: (trivia ++ ls)).head? = some m → m.isTrivia = false := fun m hm => by
      cases hm
      exact isTrivia_eq_false hl rfl
    have hskip := skip_trivia hbefore htoken
    have hskip' := skip_trivia htrivia hls
    have hplace : p.skip = ⟨l :: (trivia ++ ls), before, [], p.depth, p.opened, n + 1⟩ := by
      rw [Place.skip, hrest, hskip.1, hskip.2, hpending, hout, hfuel, List.nil_append]
    have hnew : p.upcoming.head? = some .kwNew := by
      rw [← next?_skip, hplace]
      exact congrArg some hl
    rw [if_pos hnew, Option.bind_some, read_bind, hplace,
      read_take_iff (p := ⟨l :: (trivia ++ ls), before, [], p.depth, p.opened, n + 1⟩) (u := ())
        |>.mpr ⟨l, _, n, rfl, rfl, rfl⟩, Option.bind_some, look_read, ← next?_skip, Place.skip]
    simp only [Place.taken, hskip'.1, hskip'.2]
    rfl

/-- Braces behind a name are the initializer of an object. -/
theorem newOfType_read (hnames : ReadsNames readers) {p q : Place} {l brace : Lexeme}
    {trivia ls : List Lexeme} {n : Nat} {u : Unit} (hrest : p.rest = l :: (trivia ++ brace :: ls))
    (hl : l.kind = .id) (htrivia : ∀ t ∈ trivia, t.isTrivia = true) (hbrace : brace.kind = .braceOpen)
    (hfuel : p.fuel = n + 1)
    (h : (commaList .braceClose .unclosedBrace initializerElement).read limit readers
      ⟨brace :: ls, [], [], p.depth, p.opened, n⟩ = some (u, q)) :
    newOfType.read limit readers p = some (u, { q with
      output := [.node .objectCreation (p.flush.output ++ .node .namedType [.token l] ::
        (trivia.map .token ++ [.node .objectInit q.output]))] }) := by
  have hkinds : kindsOf (brace :: ls) = .braceOpen :: kindsOf ls := by
    rw [kindsOf_cons (isTrivia_eq_false hbrace rfl), hbrace]
  let s : Place := ⟨brace :: ls, trivia, p.flush.output ++ [.node .namedType [.token l]], p.depth,
    p.opened, n⟩
  have hskip : s.skip = s := Place.IsSettled.skip_eq fun m hm => by
    cases hm
    exact isTrivia_eq_false hbrace rfl
  have hisAt : ∀ k, (isAt k).read limit readers s = some (Kind.braceOpen == k, s) := by
    intro k
    rw [isAt_read, show s.upcoming = _ from hkinds, hskip]
    rfl
  have hinit : objectInitializer.read limit readers s
      = some (u, { q with output := s.flush.output ++ [.node .objectInit q.output] }) :=
    node_read_iff.mpr ⟨q, h, rfl⟩
  have hform : (argumentsIfAny >>= fun a => initializerOf (some .namedType) a).read limit readers s
      = some (u, { q with output := s.flush.output ++ [.node .objectInit q.output] }) := by
    have harguments : argumentsIfAny.read limit readers s = some (false, s) := by
      rw [argumentsIfAny, read_bind, hisAt]
      rfl
    rw [read_bind, harguments, Option.bind_some, initializerOf, read_bind, hisAt]
    exact hinit
  have htype : newOfType.read limit readers p = (enclose .objectCreation
      (argumentsIfAny >>= fun a => initializerOf (some .namedType) a)).read limit readers s := by
    rw [newOfType, read_bind, readType, read_call, hnames hrest hl htrivia (congrArg some hbrace) hfuel,
      Option.bind_some, read_bind, hisAt]
    rfl
  rw [htype, enclose, Script.read, show (Grouping.enclose .objectCreation).enter s = s from rfl, hform]
  simp only [Option.bind_some, Script.read, Grouping.leave, Place.flush, List.append_assoc, s,
    List.cons_append, List.nil_append]

end Named

theorem enclose_read_iff {kind : Kind} {x : Script Unit} {limit : Option Nat} {readers : Readers}
    {p q : Place} {u : Unit} :
    (enclose kind x).read limit readers p = some (u, q) ↔
      ∃ r, x.read limit readers p = some (u, r) ∧ q = { r with output := [.node kind r.output] } := by
  have hstart : (Grouping.enclose kind).enter p = p := rfl
  constructor
  · intro h
    rcases Option.bind_eq_some_iff.mp h with ⟨⟨b, r⟩, hbody, hdone⟩
    cases hdone
    exact ⟨r, hbody, rfl⟩
  · rintro ⟨r, hbody, rfl⟩
    rw [enclose, Script.read, hstart, hbody]
    rfl

variable {items : Bool}

theorem carries_newStart : c.Carries items newStart :=
  .bind (.require .kwNew) fun _ => .bind .take fun _ => .look

theorem carries_newForm (hc : c.IsFollowed) {next : Option Kind} (hnext : next ≠ some .braceOpen) :
    c.Carries items (newForm next) := by
  unfold newForm
  split
  · exact absurd rfl hnext
  · exact .enclose rfl (.bind .take fun _ => .bind (.expect _ _) fun _ =>
      carries_arrayInitializerRequired hc)
  · exact carries_newOfType hc
  · exact carries_newOfType hc
  · exact .enclose rfl (.report _ _)

/-- A creation that gets a name is carried over. -/
theorem back_named (hc : c.IsFollowed) (hframed : IsFramed (c.behind .expr))
    (hnode : MakesNode (c.behind .expr)) (hnames : ReadsNames c.behind) {p s r q' : Place}
    {ds : List Tree} (hpending : p.pending = []) (hout : p.output = []) (hi : i ≤ p.opened)
    (hstart : newStart.read c.limit c.before p = some (some .braceOpen, s))
    (hread : (commaList .braceClose .unclosedBrace anonymousMember).read c.limit c.before s
      = some ((), r))
    (hds : Altered c.edit false r.output ds) (hnameable : AreNameable ds)
    (hq : c.LinkedBy (Spliced c.edit) (fun _ us => us = [nameCreation c.edit.name ds]) r q') :
    ∃ p', c.Linked (c.Trees items) p p' ∧
      (newStart >>= newForm).read c.limit c.behind p' = some ((), q') := by
  rcases (newStart_read_iff hpending hout).mp hstart
    with ⟨before, l, trivia, ls, n, hrest, hbefore, hl, htrivia, _, hfuel, hnext, rfl⟩
  rcases Option.map_eq_some_iff.mp hnext.symm with ⟨brace, hhead, hbrace⟩
  rcases List.head?_eq_some_iff.mp hhead with ⟨ms, rfl⟩
  have htoken := isTrivia_eq_false hbrace rfl
  have hbraces := back_braces (p := ⟨brace :: ms, trivia, before.map .token ++ [.token l], p.depth,
    p.opened, n⟩) hc hframed hnode hi rfl hbrace hread
  rcases hbraces with ⟨_, more, hmore, hback⟩
  rw [hmore] at hds
  rcases hds.append with ⟨vs, ws, rfl, hvs, hws⟩
  have hvs : vs = (before ++ l :: trivia).map .token := by
    have htokens : Altered c.edit false ((before ++ l :: trivia).map .token) vs := by
      simpa [Place.flush] using hvs
    exact htokens.tokens
  cases hws with
  | @token _ _ _ us hus =>
      have hwhole : vs ++ .token brace :: us
          = before.map .token ++ .token l :: (trivia.map .token ++ .token brace :: us) := by
        rw [hvs, List.map_append, List.map_cons, List.append_assoc, List.cons_append]
      have hinit : AreNameable (.token brace :: us) := fun cs hcs =>
        hnameable cs (List.mem_append_right _ hcs)
      rcases hback { q' with output := .token brace :: us.map asInitializer }
        ⟨hq.rest, hq.pending, ⟨.token brace :: us, .token _ hus, hinit, rfl⟩, hq.depth, hq.opened,
          hq.fuel, hq.ahead⟩ with ⟨ms', n', hlinked, hcomma⟩
      have hcount := hlinked.fuel
      have hahead := hlinked.ahead
      have hname : (Edit.nameLexemes c.edit)
          = [⟨.whitespace, " "⟩, ⟨.id, c.edit.name⟩] := rfl
      refine ⟨⟨before ++ l :: (c.edit.nameLexemes ++ (trivia ++ brace :: ms')), [], [], p.depth,
        p.opened, n' + 2⟩, ⟨?_, hpending.symm, ?_, rfl, rfl, ?_, ?_⟩, ?_⟩
      · rw [hrest]
        exact .prepend before (.name hl (.prepend trivia hlinked.rest))
      · rw [hout]
        exact .nil
      · have hkinds : (kindsOf p.rest).length = 1 + (kindsOf (brace :: ms)).length := by
          rw [hrest, kindsOf_append, kindsOf_trivia hbefore, kindsOf_cons (isTrivia_eq_false hl rfl),
            kindsOf_append, kindsOf_trivia htrivia, List.nil_append, List.nil_append,
            List.length_cons, Nat.add_comm]
        have hkinds' : (kindsOf (before ++ l :: (c.edit.nameLexemes ++ (trivia ++ brace :: ms')))).length
            = 2 + (kindsOf (brace :: ms')).length := by
          rw [kindsOf_append, kindsOf_trivia hbefore, kindsOf_cons (isTrivia_eq_false hl rfl),
            kindsOf_append, kindsOf_append, kindsOf_trivia htrivia, List.nil_append, List.nil_append,
            List.length_cons, List.length_append,
            show kindsOf c.edit.nameLexemes = [.id] from rfl, List.length_singleton]
          omega
        have hcount' : n' + (kindsOf (brace :: ms)).length + c.left
            = n + (kindsOf (brace :: ms')).length := hcount
        dsimp only
        omega
      · have hahead' : (brace :: ms).length + c.slack ≤ (brace :: ms').length := hahead
        rw [hrest]
        simp only [List.length_append, List.length_cons] at hahead' ⊢
        omega
      · rw [read_bind, (newStart_read_iff rfl rfl).mpr ⟨before, l, [⟨.whitespace, " "⟩],
          ⟨.id, c.edit.name⟩ :: (trivia ++ brace :: ms'), n' + 1, rfl, hbefore, hl, ?_, ?_, rfl, rfl,
          rfl⟩, Option.bind_some]
        · have hform := newOfType_read (p := ⟨⟨.id, c.edit.name⟩ :: (trivia ++ brace :: ms'),
            [⟨.whitespace, " "⟩], before.map .token ++ [.token l], p.depth, p.opened, n' + 1⟩)
            hnames rfl rfl htrivia hbrace rfl hcomma
          refine hform.trans ?_
          have hq' := hq.output
          rw [hwhole, nameCreation_opens _ hbefore hl htrivia hbrace] at hq'
          refine congrArg (fun ts => some ((), { q' with output := ts })) (Eq.trans ?_ hq'.symm)
          rw [Place.flush]
          simp only [List.map_cons, List.map_nil, List.append_assoc, List.cons_append,
            List.nil_append]
          rfl
        · intro t ht
          cases List.mem_singleton.mp ht
          rfl
        · intro m hm
          cases hm
          rfl

/-- What starts with `new` is carried over, whether or not it gets a name. -/
theorem carries_newExpr (hc : c.IsFollowed) (hframed : IsFramed (c.behind .expr))
    (hnode : MakesNode (c.behind .expr)) (hnames : ReadsNames c.behind) :
    c.Carries items newExpr := by
  intro i
  rw [newExpr_eq]
  refine Follows.frame_fresh fun p q u hout hpending hi h => ?_
  rcases read_bind_some h with ⟨next, s, hstart, hform⟩
  have hcarries : c.Carries items newStart := carries_newStart
  rcases hcarries i p s next hi hstart with ⟨hopened, hback⟩
  have hs : i ≤ s.opened := by omega
  -- A place behind the start is carried over to one before it.
  have hplain : ∀ q', (∃ s', c.Linked (c.Trees items) s s' ∧
      (newForm next).read c.limit c.behind s' = some (u, q')) →
      ∃ p', c.Linked (c.Trees items) p p' ∧
        (newStart >>= newForm).read c.limit c.behind p' = some (u, q') := by
    rintro q' ⟨s', hs', hform'⟩
    rcases hback s' hs' with ⟨p', hp, hstart'⟩
    exact ⟨p', hp, by rw [read_bind, hstart']; exact hform'⟩
  by_cases hnext : next = some .braceOpen
  · subst hnext
    rcases enclose_read_iff.mp hform with ⟨r, hread, rfl⟩
    have hmembers : c.Carries false (commaList .braceClose .unclosedBrace anonymousMember) :=
      carries_commaList _ _ (carries_anonymousMember hc)
    rcases hmembers i s r u hs hread with ⟨hopened', hback'⟩
    refine ⟨by dsimp only; omega, fun q' hq => ?_⟩
    rcases hq.output.single with ⟨ds, hds, hcs⟩ | ⟨_, ds, hds, hnameable, hcs⟩ | ⟨_, hkind, _⟩
    · rw [show (Kind.anonObjectCreation == Kind.namespaceDecl) = false from rfl,
        Bool.and_false] at hcs
      rcases hback' { q' with output := ds } (hq.collect hcs) with ⟨s', hs', hread'⟩
      refine hplain q' ⟨s', hs'.collect hs'.output.mono, enclose_read_iff.mpr ⟨_, hread', ?_⟩⟩
      dsimp only
      rw [← hds]
    · exact back_named hc hframed hnode hnames hpending hout hi hstart hread hcs hnameable
        (hq.collect hds)
    · cases hkind
  · have hcarries' : c.Carries items (newForm next) := carries_newForm hc hnext
    rcases hcarries' i s q u hs hform with ⟨hopened', hback'⟩
    exact ⟨by omega, fun q' hq => hplain q' (hback' q' hq)⟩

end Grammar

end Nominal
