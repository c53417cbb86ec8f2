import Nominal.Proofs.Carried.Expressions
import Nominal.Grammar.Parse

/-!
# Carrying Over Declarations

A type that gets the new declaration behind it is read like any other up to its closing
brace. Behind the brace the second reading finds the declaration, and takes it as one item
more. So a loop over items may go on for more rounds than before, and there are as many more
lexemes to come at its start.

## Main definitions

* `Declared`: Lexemes to come behind a type that gets the declaration.
* `Course.ReadsAdded`: The declaration is an item.

## Theorems

* `carries_memberScript`: Members of types.
* `carries_itemsScript`: Items of files and namespaces.
* `isFollowed_readProduction`: All productions can be carried over.
-/

namespace Nominal

open Syntax (Kind KindSet Lexeme Tree)

namespace Grammar

open Script

variable {c : Course} {items : Bool} {i : Nat}

open Course (Carries)

/-! ### Parts of declarations -/

theorem carries_dottedPath (what : String) : c.Carries items (dottedPath what) :=
  .bind (.isAt _) fun _ => .ite (.node rfl (.bind .take fun _ => carries_segments)) (.report _ _)

theorem carries_usingDirective : c.Carries items usingDirective :=
  .node rfl (.bind (.require _) fun _ => .bind .take fun _ => .bind (carries_dottedPath _) fun _ =>
    .bind .expectSemicolon fun _ => .pure ())

theorem carries_isAtModifier : c.Carries items isAtModifier := .bind .look fun _ => .pure _

theorem carries_modifiers : c.Carries items modifiers :=
  .bind carries_isAtModifier fun _ => .ite
    (.bind .take fun _ => .bind (.whileTrue carries_isAtModifier .take) fun _ => .pure _) (.pure _)

section Productions

variable (hc : c.IsReady)

include hc

theorem carries_param : c.Carries items param :=
  .node rfl (.bind (carries_call hc.followed .type nofun) fun _ => .bind (.expectName _) fun _ =>
    .bind (.eat _) fun _ => .ite (carries_exprRequired hc.followed _) (.pure ()))

theorem carries_paramItem : c.Carries items paramItem := by
  refine .bind (.isBefore _) fun _ => .ite (.bind .look fun next => ?_) (.pure _)
  split
  · exact .bind (carries_param hc) fun _ => .eat _
  · exact .bind (carries_param hc) fun _ => .eat _
  · exact .bind (.isAtOneOf _) fun _ => .ite (.pure _) (.bind (.reportAndTake _) fun _ => .pure _)

theorem carries_paramList : c.Carries items paramList :=
  .node rfl (.bind (.isAt _) fun _ => .ite (.delimited (.repeatWhile (carries_paramItem hc)) _ _)
    (.report _ _))

theorem carries_body (what : String) : c.Carries items (body what) := by
  refine .bind .look fun next => ?_
  split
  · exact carries_block hc.followed
  · exact .bind .take fun _ => .bind (carries_exprRequired hc.followed _) fun _ =>
      .bind .expectSemicolon fun _ => .pure ()
  · exact .bind .expectSemicolon fun _ => .pure ()

omit hc in
theorem carries_isAtAccessor : c.Carries items isAtAccessor :=
  .bind (fun _ => .word) fun _ => .bind (.isAt _) fun _ => .ite (.pure _) (.pure _)

theorem carries_accessor : c.Carries items accessor :=
  .frame (.bind carries_modifiers fun _ => .bind carries_isAtAccessor fun _ =>
    .ite (.enclose rfl (.bind .take fun _ => carries_body hc _)) (.reportAndTake _))

theorem carries_accessorList : c.Carries items accessorList :=
  .node rfl (.delimited (.whileTrue (.isBefore _) (carries_accessor hc)) _ _)

/-! ### Types -/

theorem carries_baseListIfAny : c.Carries items baseListIfAny :=
  .bind (.isAt _) fun _ => .ite
    (.node rfl (.bind .take fun _ => .repeatWhile (carries_typeItem hc.followed))) (.pure ())

/-- The members of a type up to its closing brace. What stands behind the brace may correspond
    in a way of its own. -/
theorem follows_typeBody {R : LexemeRelation}
    (hR : ∀ {l : Lexeme} {ls ms : List Lexeme}, l.kind = .braceClose → R ls ms →
      Spliced c.edit (l :: ls) (l :: ms)) :
    Follows c i i (c.Linked (c.Trees false)) (c.LinkedBy R (c.Trees false)) typeBody := by
  refine .bind (.isAt _) fun _ => .ite (fun _ => ?_) fun _ => .report _ _
  have hO := peels_trees c false
  have hmembers : c.Carries false (whileTrue (isBefore .braceClose) (call .member)) :=
    .whileTrue (.isBefore _) (carries_call hc.followed .member fun _ => rfl)
  refine .bind (.takeOpening hO) fun _ => .bind (hmembers (i + 1)) fun _ => ?_
  refine .bind_by (Retraces.eat hO hR) fun eaten => ?_
  cases eaten with
  | true => exact .closeDelimiter
  | false => exact .reportUnclosed _

theorem follows_typeFromKeyword {R : LexemeRelation}
    (hR : ∀ {l : Lexeme} {ls ms : List Lexeme}, l.kind = .braceClose → R ls ms →
      Spliced c.edit (l :: ls) (l :: ms)) :
    Follows c i i (c.Linked (c.Trees false)) (c.LinkedBy R (c.Trees false)) typeFromKeyword := by
  have hkeyword : c.Carries false eatTypeKeyword :=
    .bind (.eat _) fun _ => .ite (.pure _) (.eat _)
  have hname : c.Carries false (expectName "type name") := .expectName _
  refine .group_enclose (.bind (hkeyword i) fun _ => .ite (fun _ => ?_) fun _ => .report _ _)
    (fun cs us h => ?_) fun _ _ h => h
  · exact .bind (hname i) fun _ => .bind (carries_baseListIfAny hc i) fun _ =>
      follows_typeBody hc hR
  · exact h.single_plain rfl rfl

theorem carries_typeFromKeyword : c.Carries false typeFromKeyword :=
  fun _ => follows_typeFromKeyword hc fun _ h => h.cons _

/-! ### Members -/

theorem carries_fieldDeclarator : c.Carries items fieldDeclarator :=
  .enclose rfl (.bind (.eat _) fun _ => .ite (carries_exprRequired hc.followed _) (.pure ()))

theorem carries_memberName : c.Carries items memberName :=
  .frame (.bind (.expectName _) fun _ => .bind .look fun _ => .ite (.pure _) (.ite (.pure _)
    (.ite (.pure _) (.bind (.ite (carries_fieldDeclarator hc) (.pure ())) fun _ => .pure _))))

theorem carries_memberRest (shape : MemberShape) : c.Carries items (memberRest shape) := by
  cases shape with
  | method => exact .enclose rfl (.bind (carries_paramList hc) fun _ => carries_body hc _)
  | property =>
      exact .enclose rfl (.bind (carries_accessorList hc) fun _ => .bind (.eat _) fun _ =>
        .ite (.bind (carries_exprRequired hc.followed _) fun _ =>
          .bind .expectSemicolon fun _ => .pure ()) (.pure ()))
  | computedProperty =>
      exact .enclose rfl (.bind .take fun _ => .bind (carries_exprRequired hc.followed _) fun _ =>
        .bind .expectSemicolon fun _ => .pure ())
  | field named =>
      exact .enclose rfl (.bind (.ite (.whileTrue (.eat _) (carries_varDeclarator hc)) (.pure ()))
        fun _ => .bind .expectSemicolon fun _ => .pure ())

theorem carries_typedMember : c.Carries items typedMember :=
  .bind (carries_call hc.followed .type nofun) fun _ => .bind (carries_memberName hc) fun _ =>
    carries_memberRest hc _

theorem carries_memberScript : c.Carries false memberScript := by
  refine .frame (.bind carries_modifiers fun modified => fun i => FollowsAt.look_bind fun next => ?_)
  split
  · exact .of_follows (carries_typeFromKeyword hc i)
  · exact .of_follows (carries_typeFromKeyword hc i)
  · refine FollowsAt.bind (.nextIs .parenOpen rfl) fun _ => ?_
    exact Carries.ite (.enclose rfl (.bind .take fun _ => .bind (carries_paramList hc) fun _ =>
      carries_body hc _)) (carries_typedMember hc) i
  · refine .of_follows ?_
    exact (Carries.enclose rfl (.bind .take fun _ => .bind (.expectName _) fun _ =>
      .bind (carries_paramList hc) fun _ => carries_body hc _) : c.Carries false _) i
  · exact .of_follows (carries_typedMember hc i)
  · exact .of_follows (Carries.ite (.report _ _) (.recover _ _) i)

theorem carries_namespaceDeclaration : c.Carries items namespaceDeclaration := by
  have hitems : ∀ braced, c.Carries items (call (.items braced)) := fun _ =>
    carries_call hc.followed _ nofun
  have hbody : c.Carries items (do
      perform (.require .kwNamespace)
      take
      dottedPath "namespace name"
      if ← eat .semicolon then
        call (.items false)
      else if ← isAt .braceOpen then
        takeOpening
        call (.items true)
        expectClosing .braceClose .unclosedBrace
      else
        reportExpected .unexpectedToken "expected `\x7b` or `;`") :=
    .bind (.require _) fun _ => .bind .take fun _ => .bind (carries_dottedPath _) fun _ =>
      .bind (.eat _) fun _ => .ite (hitems false) (.bind (.isAt _) fun _ =>
        .ite (.delimited (hitems true) _ _) (.report _ _))
  intro i
  refine .node_of rfl rfl ?_
  rw [show (Kind.namespaceDecl == Kind.namespaceDecl) = true from rfl, Bool.and_true]
  exact hbody i

/-! ### Items -/

omit hc in
/-- Behind a closing delimiter nothing is set aside. -/
theorem pending_expectClosing {limit : Option Nat} {readers : Readers} {close : Kind}
    {unclosed : Diagnostic.Kind} {p q : Place} {u : Unit} (hp : 0 < p.opened)
    (h : (expectClosing close unclosed).read limit readers p = some (u, q)) : q.pending = [] := by
  rcases read_bind_some h with ⟨eaten, r, heat, h⟩
  rw [eat_read] at heat
  split at heat
  · rcases Option.map_eq_some_iff.mp heat with ⟨⟨_, s⟩, htake, hdone⟩
    cases hdone
    rcases read_take_iff.mp htake with ⟨l, ls, n, _, _, rfl⟩
    cases h
    rfl
  · cases heat
    rw [if_neg Bool.false_ne_true, read_perform, Op.read] at h
    split at h
    · next hnone => exact absurd hnone (Nat.ne_of_gt hp)
    · cases h

theorem pending_typeBody {p q : Place} {u : Unit}
    (h : typeBody.read c.limit c.before p = some (u, q)) : q.pending = [] := by
  rcases read_bind_some h with ⟨braced, r, _, h⟩
  cases braced with
  | false => cases h
  | true =>
      have hO := peels_trees c false
      have hmembers : c.Carries false (whileTrue (isBefore .braceClose) (call .member)) :=
        .whileTrue (.isBefore _) (carries_call hc.followed .member fun _ => rfl)
      rcases read_bind_some h with ⟨_, s, hopening, h⟩
      rcases read_bind_some h with ⟨_, t, hloop, hclosing⟩
      have hs := (Follows.takeOpening hO r s _ (Nat.zero_le _) hopening).1
      have ht := (hmembers 0 s t _ (Nat.zero_le _) hloop).1
      exact pending_expectClosing (by omega) hclosing

/-- A type is carried over, with the trees before it and perhaps with more lexemes behind it. -/
theorem back_typeDeclaration (items : Bool) {R : LexemeRelation}
    (hR : ∀ {l : Lexeme} {ls ms : List Lexeme}, l.kind = .braceClose → R ls ms →
      Spliced c.edit (l :: ls) (l :: ms)) {p q : Place} {u : Unit} (hi : i ≤ p.opened)
    (h : typeDeclaration.read c.limit c.before p = some (u, q)) :
    q.opened = p.opened ∧ q.pending = [] ∧
      ∃ cs, q.output = p.flush.output ++ [.node .typeDecl cs] ∧ ∀ vs ds q', c.Trees items p.flush.output vs → c.Trees false cs ds →
        c.LinkedBy R (fun _ us => us = vs ++ [.node .typeDecl ds]) q q' →
        ∃ p', c.Linked (c.Trees items) p p' ∧
          typeDeclaration.read c.limit c.behind p' = some (u, q') := by
  rcases Option.bind_eq_some_iff.mp h with ⟨⟨b, r⟩, hbody, hdone⟩
  cases hdone
  rcases read_bind_some hbody with ⟨modified, s, hmodifiers, hkeyword⟩
  rcases enclose_read_iff.mp hkeyword with ⟨t, hparts, rfl⟩
  have hpending : t.pending = [] := by
    rcases read_bind_some hparts with ⟨keyword, v, _, hparts⟩
    cases keyword with
    | false => cases hparts
    | true =>
        rcases read_bind_some hparts with ⟨_, w, _, hparts⟩
        rcases read_bind_some hparts with ⟨_, x, _, hbody⟩
        exact pending_typeBody hc hbody
  have hwhole : Follows c i i (c.Linked (c.Trees false)) (c.LinkedBy R (c.Trees false))
      (modifiers >>= fun _ => typeFromKeyword) :=
    .bind (carries_modifiers i) fun _ => follows_typeFromKeyword hc hR
  rcases hwhole _ _ b (show i ≤ (Grouping.frame.enter p).opened from hi) hbody with ⟨hopened, hback⟩
  refine ⟨Nat.add_right_cancel hopened, hpending, t.output, rfl, fun vs ds q' hvs hds hq => ?_⟩
  have hnode : c.Trees false [.node .typeDecl t.output] [.node .typeDecl ds] :=
    .node .typeDecl (by rwa [Bool.false_and]) .nil
  rcases hback { q' with output := [.node .typeDecl ds] }
    ⟨hq.rest, hq.pending, hnode, hq.depth, hq.opened, hq.fuel, hq.ahead⟩ with ⟨r', hr, hread⟩
  rcases hvs.append_tokens with ⟨ws, rfl, hws⟩
  refine ⟨{ r' with output := ws, pending := p.pending },
    ⟨hr.rest, rfl, hws, hr.depth, hr.opened, hr.fuel, hr.ahead⟩, ?_⟩
  have hnil : r'.output = [] := Altered.of_nil hr.output
  have henter : Grouping.frame.enter { r' with output := ws, pending := p.pending } = r' := by
    rw [Grouping.enter, Place.flush, ← hnil, ← show r'.pending = [] from hr.pending]
  rw [typeDeclaration, Script.frame, Script.read, henter, hread]
  simp only [Option.bind_some, Script.read, Grouping.leave, Place.flush]
  rw [← show q'.output = _ from hq.output]

end Productions

/-- An item by the kind of its first token. -/
def itemForm (braced : Bool) : Option Kind → Script Bool
  | some .kwUsing => do
    usingDirective
    return true
  | some .kwNamespace => do
    namespaceDeclaration
    return true
  | some .kwClass | some .kwStruct => do
    typeDeclaration
    return true
  | some kind =>
    if braced && kind = .braceClose then
      return false
    else if kind.isModifier then do
      typeDeclaration
      return true
    else do
      call .stmt
      return true
  | none => do
    call .stmt
    return true

theorem item_eq (braced : Bool) :
    item braced = atEnd >>= fun b => if b then pure false else look >>= itemForm braced := rfl

theorem item_read {limit : Option Nat} {readers : Readers} (braced : Bool) (p : Place) :
    (item braced).read limit readers p =
      if p.upcoming.head? = none then some (false, p.skip)
      else (itemForm braced p.upcoming.head?).read limit readers p.skip := by
  have hatEnd : atEnd.read limit readers p = some (p.skip.rest.isEmpty, p.skip) := rfl
  have hnone : p.upcoming.head? = none ↔ p.skip.rest.isEmpty = true := by
    rw [← next?_skip, Place.next?, Option.map_eq_none_iff, List.head?_eq_none_iff,
      List.isEmpty_iff]
  rw [item_eq, read_bind, hatEnd, Option.bind_some]
  dsimp only
  split
  · next hempty =>
      rw [if_pos (hnone.mpr hempty)]
      rfl
  · next hsome =>
      rw [if_neg fun h => hsome (hnone.mp h), read_bind, look_read, Option.bind_some, upcoming_skip,
        skip_skip]

/-- Whether a type starts with a token of this kind. -/
def startsType (next : Option Kind) : Bool :=
  next.any fun k => k == .kwClass || k == .kwStruct || k.isModifier

theorem itemForm_type {braced : Bool} {next : Option Kind} (h : startsType next = true) :
    itemForm braced next = typeDeclaration >>= fun _ => pure true := by
  unfold itemForm
  split
  · cases h
  · cases h
  · rfl
  · rfl
  · next kind _ _ hclass hstruct =>
      have hmodifier : kind.isModifier = true := by
        rw [startsType, Option.any_some, beq_eq_false_iff_ne.mpr hclass,
          beq_eq_false_iff_ne.mpr hstruct, Bool.false_or, Bool.false_or] at h
        exact h
      rw [if_neg, if_pos hmodifier]
      rintro hclose
      rw [of_decide_eq_true (Bool.and_eq_true_iff.mp hclose).2] at hmodifier
      cases hmodifier
  · cases h

theorem carries_itemForm (hc : c.IsReady) {braced : Bool} {next : Option Kind}
    (h : startsType next = false) : c.Carries items (itemForm braced next) := by
  unfold itemForm
  split
  · exact .bind carries_usingDirective fun _ => .pure _
  · exact .bind (carries_namespaceDeclaration hc) fun _ => .pure _
  · cases h
  · cases h
  · refine .ite (.pure _) ?_
    split
    · next hmodifier =>
        rw [startsType, Option.any_some, hmodifier, Bool.or_true] at h
        cases h
    · exact .bind (carries_call hc.followed .stmt nofun) fun _ => .pure _
  · exact .bind (carries_call hc.followed .stmt nofun) fun _ => .pure _

/-- Lexemes to come behind a type that gets the declaration. -/
def Declared (e : Edit) (ls ms : List Lexeme) : Prop :=
  ∃ ms', ms = e.addedLexemes ++ ms' ∧ Spliced e ls ms'

/-- The declaration is read as an item. -/
structure Course.ReadsAdded (c : Course) : Prop where
  some : c.edit.addedLexemes ≠ []
  reads : ∀ {braced : Bool} {p : Place} {ls : List Lexeme} {n : Nat},
    p.rest = c.edit.addedLexemes ++ ls → p.pending = [] →
    p.fuel = n + (kindsOf c.edit.addedLexemes).length →
    (item braced).read c.limit c.behind p =
      Option.some (true, ⟨ls, [], p.output ++ c.edit.added, p.depth, p.opened, n⟩)

/-- The same readings with the second one further ahead. -/
def Course.lead (c : Course) (d : Nat) : Course := { c with slack := c.slack + d }

theorem Course.lead_lead (c : Course) (d e : Nat) : (c.lead d).lead e = c.lead (d + e) := by
  rw [lead, lead, lead]
  simp only [Nat.add_assoc]

theorem Course.IsReady.lead (hc : c.IsReady) (d : Nat) : (c.lead d).IsReady :=
  ⟨hc.followed, hc.framed, hc.makes, hc.names, hc.steps⟩

theorem Course.ReadsAdded.lead (hc : c.ReadsAdded) (d : Nat) : (c.lead d).ReadsAdded :=
  ⟨hc.some, hc.reads⟩

/-- An item is carried over to one item, or to the same item and the declaration behind it. -/
theorem back_item (hc : c.IsReady) (hadded : c.ReadsAdded) (items : Bool) {braced again : Bool} {p q : Place}
    (hi : i ≤ p.opened) (h : (item braced).read c.limit c.before p = some (again, q)) :
    q.opened = p.opened ∧ ∀ q', c.Linked (c.Trees items) q q' →
      (∃ p', c.Linked (c.Trees items) p p' ∧
        (item braced).read c.limit c.behind p' = some (again, q')) ∨
      (again = true ∧ ∃ p' r', (c.lead 1).Linked (c.Trees items) p p' ∧
        (item braced).read c.limit c.behind p' = some (true, r') ∧
        (item braced).read c.limit c.behind r' = some (true, q')) := by
  rw [item_read] at h
  split at h
  · next hnone =>
      cases h
      refine ⟨rfl, fun q' hq => .inl ?_⟩
      rcases hq.unskip with ⟨p', hp, rfl⟩
      have hhead : p'.upcoming.head? = p.upcoming.head? := hp.rest.foretold.head
      exact ⟨p', hp, by rw [item_read, hhead, if_pos hnone]⟩
  · next hsome =>
      have hform : ∀ (d : Nat) (s' q' : Place), (c.lead d).Linked (c.Trees items) p.skip s' →
          (itemForm braced p.upcoming.head?).read c.limit c.behind s' = some (again, q') →
          ∃ p', (c.lead d).Linked (c.Trees items) p p' ∧
            (item braced).read c.limit c.behind p' = some (again, q') := by
        intro d s' q' hs hread
        rcases Course.Linked.unskip hs with ⟨p', hp, rfl⟩
        have hhead : p'.upcoming.head? = p.upcoming.head? := hp.rest.foretold.head
        exact ⟨p', hp, by rw [item_read, hhead, if_neg hsome]; exact hread⟩
      cases htype : startsType p.upcoming.head? with
      | false =>
          have hcarries : c.Carries items (itemForm braced p.upcoming.head?) :=
            carries_itemForm hc htype
          rcases hcarries i p.skip q again hi h with ⟨hopened, hback⟩
          refine ⟨Nat.add_right_cancel hopened, fun q' hq => .inl ?_⟩
          rcases hback q' hq with ⟨s', hs, hread⟩
          exact hform 0 s' q' hs hread
      | true =>
          rw [itemForm_type htype] at h hform
          rcases read_bind_some h with ⟨u, r, hread, hdone⟩
          cases hdone
          have hi : i ≤ p.skip.opened := hi
          have hplain : ∀ {l : Lexeme} {ls ms : List Lexeme}, l.kind = .braceClose →
              Spliced c.edit ls ms → Spliced c.edit (l :: ls) (l :: ms) := fun _ h => .cons _ h
          rcases back_typeDeclaration hc items hplain hi hread
            with ⟨hopened, hpending, cs, hout, hback⟩
          refine ⟨hopened, fun q' hq => ?_⟩
          have hsplit := hq.output
          rw [hout] at hsplit
          rcases hsplit.append with ⟨vs, ws, hvw, hvs, hws⟩
          rcases hws.single with ⟨ds, rfl, hds⟩ | ⟨hkind, _⟩ | ⟨rfl, _, ds, rfl, hds⟩
          · left
            rw [show (Kind.typeDecl == Kind.namespaceDecl) = false from rfl, Bool.and_false] at hds
            rcases hback vs ds q' hvs hds (hq.collect hvw) with ⟨s', hs, hread'⟩
            exact hform 0 s' q' hs (by rw [read_bind, hread']; rfl)
          · cases hkind
          · right
            refine ⟨rfl, ?_⟩
            have hcount := hq.fuel
            have hahead := hq.ahead
            have hsome := List.length_pos_iff.mpr hadded.some
            have hbehind : ∀ {l : Lexeme} {ls ms : List Lexeme}, l.kind = .braceClose →
                Declared c.edit ls ms → Spliced c.edit (l :: ls) (l :: ms) := by
              rintro l ls ms hl ⟨ms', rfl, h⟩
              exact .declare hl h
            rcases back_typeDeclaration (hc.lead 1) true hbehind hi hread
              with ⟨_, _, cs', hout', hback'⟩
            rw [hout, List.append_cancel_left_eq, List.singleton_inj, Tree.node.injEq] at hout'
            rcases hout' with ⟨_, rfl⟩
            have hlinked : (c.lead 1).LinkedBy (Declared c.edit)
                (fun _ us => us = vs ++ [.node .typeDecl ds]) q
                ⟨c.edit.addedLexemes ++ q'.rest, [], vs ++ [.node .typeDecl ds], q'.depth, q'.opened,
                  q'.fuel + (kindsOf c.edit.addedLexemes).length⟩ := by
              refine ⟨⟨q'.rest, rfl, hq.rest⟩, hpending.symm, rfl, hq.depth, hq.opened, ?_, ?_⟩
              · dsimp only [Course.lead]
                rw [kindsOf_append, List.length_append]
                omega
              · dsimp only [Course.lead]
                rw [List.length_append]
                omega
            rcases hback' vs ds _ hvs hds hlinked with ⟨s', hs, hread'⟩
            rcases hform 1 s' _ hs (by rw [read_bind]; exact congrArg (Option.bind · _) hread')
              with ⟨p', hp, hitem⟩
            refine ⟨p', _, hp, hitem, (hadded.reads rfl rfl rfl).trans ?_⟩
            rw [List.append_assoc, List.singleton_append, ← hvw,
              ← show q'.pending = [] from hq.pending.trans hpending]

/-- A round of the loop over items. -/
def itemRound (limit : Option Nat) (readers : Readers) (braced : Bool) : Unit → Reader (Bool × Unit) :=
  fun _ => (item braced >>= fun again => pure (again, ())).read limit readers

theorem itemRound_eq {limit : Option Nat} {readers : Readers} {braced again : Bool} {p q : Place}
    (h : (item braced).read limit readers p = some (again, q)) :
    itemRound limit readers braced () p = some ((again, ()), q) := by
  rw [itemRound, read_bind, h]
  rfl

/-- The rounds of a loop over items are carried over to as many rounds or more. -/
theorem back_itemRounds (hc : c.IsReady) (hadded : c.ReadsAdded) (items : Bool) {braced : Bool} (n : Nat)
    {p q : Place} {u : Unit} (hi : i ≤ p.opened)
    (h : rounds (itemRound c.limit c.before braced) n () p = some (u, q)) :
    q.opened = p.opened ∧ ∀ q', c.Linked (c.Trees items) q q' →
      ∃ d p', (c.lead d).Linked (c.Trees items) p p' ∧
        rounds (itemRound c.limit c.behind braced) (n + d) () p' = some (u, q') := by
  induction n generalizing p with
  | zero => cases h
  | succ n ih =>
      rw [rounds] at h
      rcases Option.bind_eq_some_iff.mp h with ⟨⟨⟨again, _⟩, r⟩, hround, hrest⟩
      rw [itemRound] at hround
      rcases read_bind_some hround with ⟨_, _, hitem, hdone⟩
      cases hdone
      rcases back_item hc hadded items hi hitem with ⟨hopened, _⟩
      cases again with
      | false =>
          cases hrest
          refine ⟨hopened, fun q' hq => ?_⟩
          rcases (back_item hc hadded items hi hitem).2 q' hq
            with ⟨p', hp, hitem'⟩ | ⟨hagain, _⟩
          · refine ⟨0, p', hp, ?_⟩
            rw [Nat.add_zero, rounds, itemRound_eq hitem']
            rfl
          · cases hagain
      | true =>
          rcases ih (show i ≤ r.opened by rw [hopened]; exact hi) hrest with ⟨hopened', hback⟩
          refine ⟨hopened'.trans hopened, fun q' hq => ?_⟩
          rcases hback q' hq with ⟨d, r', hr, hrounds⟩
          rcases (back_item (hc.lead d) (hadded.lead d) items hi hitem).2 r' hr
            with ⟨p', hp, hitem'⟩ | ⟨_, p', s', hp, hfirst, hsecond⟩
          · refine ⟨d, p', hp, ?_⟩
            have hround : itemRound c.limit c.behind braced () p' = _ := itemRound_eq hitem'
            rw [Nat.succ_add, rounds, hround]
            exact hrounds
          · refine ⟨d + 1, p', by rwa [Course.lead_lead] at hp, ?_⟩
            have hround : itemRound c.limit c.behind braced () p' = _ := itemRound_eq hfirst
            have hround' : itemRound c.limit c.behind braced () s' = _ := itemRound_eq hsecond
            rw [show n + 1 + (d + 1) = n + d + 1 + 1 by omega, rounds, hround, Option.bind_some,
              if_pos rfl, rounds, hround']
            exact hrounds

theorem carries_itemsScript (hc : c.IsReady) (hadded : c.ReadsAdded) (braced : Bool) :
    c.Carries items (itemsScript braced) := by
  intro i p q u hi h
  rcases Option.bind_eq_some_iff.mp h with ⟨⟨_, r⟩, hloop, hdone⟩
  cases hdone
  rcases back_itemRounds hc hadded items _ hi hloop with ⟨hopened, hback⟩
  refine ⟨by rw [hopened], fun q' hq => ?_⟩
  rcases hback q' hq with ⟨d, p', hp, hrounds⟩
  have hahead : p.rest.length + (c.slack + d) ≤ p'.rest.length := hp.ahead
  refine ⟨p', ⟨hp.rest, hp.pending, hp.output, hp.depth, hp.opened, hp.fuel, by omega⟩, ?_⟩
  have hmore := rounds_mono (show p.rest.length + 2 + d ≤ p'.rest.length + 2 by omega) hrounds
  rw [itemsScript, Script.repeatWhile, Script.read]
  exact congrArg (Option.bind · _) hmore

/-- The course of a production that is nested less deep than `n` before the extraction. -/
def Course.within (c : Course) (k n : Nat) : Course :=
  { c with before := readProduction c.limit n, behind := readProduction c.limit (n + k) }

/-- The scripts of all productions can be carried over. -/
theorem carries_script (hc : c.IsReady) (hadded : c.ReadsAdded) (q : Production)
    (hmember : q = .member → items = false) : c.Carries items q.script := by
  cases q with
  | items braced => exact carries_itemsScript hc hadded braced
  | member =>
      rw [hmember rfl]
      exact carries_memberScript hc
  | stmt => exact carries_stmtScript hc
  | expr => exact carries_exprScript hc
  | binary power => exact carries_binaryScript hc power
  | unary => exact carries_unaryScript hc
  | type => exact carries_typeScript hc.followed

/-- All productions can be carried over where the second readings may be nested deeper, by as
    much as it takes to read names and the declaration. -/
theorem isFollowed_readProduction (c : Course) (k : Nat)
    (hnames : ∀ n, ReadsNames (readProduction c.limit (n + k)))
    (hadded : ∀ n, (c.within k n).ReadsAdded) (n : Nat) : (c.within k n).IsFollowed := by
  induction n with
  | zero => exact fun q slack i items _ p r a _ h => nomatch h
  | succ n ih =>
      intro q slack i items hmember p r a hi h
      let d : Course := { c.within k n with slack := slack }
      have hd : d.IsReady := ⟨fun q slack => ih q slack, framed_readProduction c.limit _,
        (makeNodes_readProduction c.limit _).2.2, hnames n, stepsOverTypes_readProduction c.limit _⟩
      have hadded : d.ReadsAdded := ⟨(hadded n).some, (hadded n).reads⟩
      have hbehind : readProduction c.limit (n + 1 + k) q
          = q.script.read c.limit (readProduction c.limit (n + k)) := by
        rw [Nat.add_right_comm]
        rfl
      rcases carries_script hd hadded q hmember i p r a hi h with ⟨hopened, hback⟩
      refine ⟨hopened, fun r' hr => ?_⟩
      rcases hback r' ⟨hr.rest, hr.pending, hr.output, hr.depth, hr.opened, hr.fuel, hr.ahead⟩
        with ⟨p', hp, hread⟩
      refine ⟨p', ⟨hp.rest, hp.pending, hp.output, hp.depth, hp.opened, hp.fuel, hp.ahead⟩, ?_⟩
      exact (congrFun hbehind p').trans hread

end Grammar

end Nominal
