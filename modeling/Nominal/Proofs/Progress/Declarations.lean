import Nominal.Proofs.Progress.Expressions
import Nominal.Grammar.Declarations

/-!
# Declarations Get On

The productions of files, namespaces, types and members, followed with the rules for
`Proceeds`, and what comes of it for all productions: none of them has a fault, as long as
references to other productions may be followed often enough.

## Theorems

* `proceeds_memberScript`: A member gets further from any token but a closing brace.
* `proceeds_itemsScript`: Items are read without a fault.
* `serves_watchProduction`: Productions serve each other.
-/

namespace Nominal

namespace Grammar

open Syntax (Kind KindSet)
open Proceeds

variable {setting : Setting} {watched : Productions} {N level : Nat} {p : Pace}
variable {S : Set (Option Kind)}

variable (hs : Serves setting N level watched)

include hs

/-! ### Items -/

omit hs in
theorem proceeds_dottedPath (what : String) :
    Proceeds setting watched (State.Stands setting N .moved S) (dottedPath what)
      fun _ => State.Stands setting N .moved Set.univ :=
  ifAt (fun _ => node _ (takeBind none_notMem proceeds_segments))
    ((report _ _).post fun _ _ h => h.forget)

omit hs in
theorem proceeds_usingDirective (hS : ∀ o ∈ S, o = some .kwUsing) :
    Proceeds setting watched (State.Stands setting N p S) usingDirective
      fun _ => State.Stands setting N .moved Set.univ :=
  node _ ((require hS).bind fun _ => takeBind (fun h => nomatch hS _ h)
    ((proceeds_dottedPath _).bind fun _ => expectSemicolon.bind fun _ => done))

theorem proceeds_namespaceDeclaration (hS : ∀ o ∈ S, o = some .kwNamespace) :
    Proceeds setting watched (State.Stands setting N p S) namespaceDeclaration
      fun _ => State.Stands setting N .moved Set.univ := by
  refine node _ ((require hS).bind fun _ => takeBind (fun h => nomatch hS _ h)
    ((proceeds_dottedPath _).bind fun _ => (eat .semicolon).cond ?_ (ifAt (fun _ => ?_) ?_)))
  · exact hs.callRest (.items false) .moved
  · exact (takeOpening none_notMem).bind fun _ =>
      Proceeds.bind (hs.callRest (.items true) .moved) fun _ => expectClosing _ _
  · exact (report _ _).post fun _ _ h => h.forget

omit hs in
theorem proceeds_isAtModifier :
    Proceeds setting watched (State.Stands setting N p S) isAtModifier
      fun b => State.Stands setting N p {o | o ∈ S ∧ o.any Kind.isModifier = b} :=
  asks fun o => o.any Kind.isModifier

omit hs in
/-- Where there are no modifiers, the next token is none. -/
theorem proceeds_modifiers :
    Proceeds setting watched (State.Stands setting N p S) modifiers
      fun b => if b then State.Stands setting N .moved Set.univ
        else State.Stands setting N p {o | o ∈ S ∧ o.any Kind.isModifier = false} := by
  refine proceeds_isAtModifier.cond (takeBind (fun h => nomatch h.2) ?_) (pure fun _ h => h)
  refine Proceeds.bind (whileTrue (fun _ => proceeds_isAtModifier)
    (fun M _ => take fun h => nomatch h.2) fun _ _ h => h.forget) fun _ => pure fun _ h => h

theorem proceeds_baseList (hS : none ∉ S) :
    Proceeds setting watched (State.Stands setting N p S) baseList
      fun _ => State.Stands setting N .moved Set.univ :=
  node _ (takeBind hS (proceeds_typeItems hs))

theorem proceeds_baseListIfAny :
    Proceeds setting watched (State.Stands setting N .moved S) baseListIfAny
      fun _ => State.Stands setting N .moved Set.univ :=
  ifAt (fun _ => proceeds_baseList hs none_notMem) done

theorem proceeds_typeBody :
    Proceeds setting watched (State.Stands setting N .moved S) typeBody
      fun _ => State.Stands setting N .moved Set.univ := by
  refine ifAt (fun _ => (takeOpening none_notMem).bind fun _ => ?_)
    ((report _ _).post fun _ _ h => h.forget)
  refine Proceeds.bind (whileTrue (fun _ => isBefore .braceClose) (fun M hM => ?_) fun _ _ h => h)
    fun _ => expectClosing _ _
  have hmember : Serves setting M 6 watched := hs.inner .moved hM
  exact hmember.callOn .member (.inr (Nat.lt_succ_self _)) fun _ o ho => ho.2

/-- The keywords that a type is declared with. -/
def typeKeywords : Set (Option Kind) := {o | o = some .kwClass ∨ o = some .kwStruct}

theorem proceeds_typeFromKeyword (hS : p = .live → S ⊆ typeKeywords) :
    Proceeds setting watched (State.Stands setting N p S) typeFromKeyword
      fun _ => State.Stands setting N p.on Set.univ := by
  have hrest : Proceeds setting watched (State.Stands setting N .moved Set.univ)
      (do
        let _ ← Script.expectName "type name"
        baseListIfAny
        typeBody : Script Unit) fun _ => State.Stands setting N p.on Set.univ :=
    (expectName _).bind fun _ => (proceeds_baseListIfAny hs).bind fun _ =>
      (proceeds_typeBody hs).post fun _ _ h => h.on_of_moved
  have hkeyword : Proceeds setting watched (State.Stands setting N p S) eatTypeKeyword
      fun b => if b then State.Stands setting N .moved Set.univ
        else State.Stands setting N p {o | (o ∈ S ∧ o ≠ some .kwClass) ∧ o ≠ some .kwStruct} :=
    (eat .kwClass).cond (pure fun _ h => h) (eat .kwStruct)
  refine enclose _ (hkeyword.cond hrest ((report _ _).post fun _ s h => ?_))
  cases p with
  | still => exact h.forget
  | moved => exact h.forget
  | live =>
      rcases h.ahead with huniv | ⟨_, hnext⟩
      · exact ((huniv.symm.subset trivial : some Kind.kwClass ∈ _).1.2 rfl).elim
      · rcases hS rfl hnext.1.1 with hclass | hstruct
        · exact (hnext.1.2 hclass).elim
        · exact (hnext.2 hstruct).elim

theorem proceeds_typeDeclaration
    (hS : p = .live → ∀ o ∈ S, o ∈ typeKeywords ∨ o.any Kind.isModifier = true) :
    Proceeds setting watched (State.Stands setting N p S) typeDeclaration
      fun _ => State.Stands setting N p.on Set.univ := by
  refine frame (proceeds_modifiers.bind fun modified => ?_)
  cases modified with
  | true =>
      exact (proceeds_typeFromKeyword (p := .moved) hs nofun).post fun _ _ h => h.on_of_moved
  | false =>
      refine proceeds_typeFromKeyword hs fun hlive o ho => (hS hlive o ho.1).resolve_right ?_
      rw [ho.2]
      exact Bool.false_ne_true

/-! ### Members -/

theorem proceeds_param (h : 0 < level) (hS : S ⊆ Production.type.first) :
    Proceeds setting watched (State.Stands setting N .live S) param
      fun _ => State.Stands setting N .moved Set.univ := by
  refine node _ (Proceeds.bind (hs.callOn .type (.inr h) fun _ => hS) fun _ =>
    (expectName _).bind fun _ => (eat .equals).cond (proceeds_exprBehind hs _) ?_)
  exact pure fun _ h => h.forget

theorem proceeds_paramItem (h : 0 < level) :
    Proceeds setting watched (State.Stands setting N .still S) paramItem
      fun b => State.Stands setting N (if b then .moved else .still) Set.univ := by
  have hread : ∀ {k : Kind}, some k ∈ Production.type.first →
      Proceeds setting watched (State.Stands setting N .live {some k})
        (param >>= fun _ => Script.eat .comma)
        fun b => State.Stands setting N (if b then .moved else .still) Set.univ := by
    intro k hk
    refine (proceeds_param hs h (Set.singleton_subset_iff.mpr hk)).bind fun _ =>
      (eat .comma).post fun b s hb => ?_
    cases b with
    | true => exact hb
    | false => exact hb.forget.still
  refine ifBefore (lookBind fun o ho => ?_) (pure fun _ h => h)
  split
  · exact hread (.inl rfl)
  · exact hread (.inr rfl)
  · refine ifAtOneOf (pure fun _ h => h.still.forget) ?_
    refine (reportAndTake _ fun _ hnone => ?_).bind fun _ => pure fun _ h => h
    rcases hnone with ⟨rfl, _⟩
    exact ho.2.1 rfl

theorem proceeds_paramList :
    Proceeds setting watched (State.Stands setting N .moved S) paramList
      fun _ => State.Stands setting N .moved Set.univ := by
  refine node _ (ifAt (fun _ => (takeOpening none_notMem).bind fun _ => ?_)
    ((report _ _).post fun _ _ h => h.forget))
  refine Proceeds.bind (repeatWhile fun M hM => ?_) fun _ => expectClosing _ _
  exact proceeds_paramItem (hs.inner (k := 0) .moved hM) (Nat.lt_succ_self _)

theorem proceeds_body (what : String) :
    Proceeds setting watched (State.Stands setting N .moved S) (body what)
      fun _ => State.Stands setting N .moved Set.univ := by
  refine lookBind fun o _ => ?_
  split
  · exact proceeds_block hs fun _ h => h
  · exact takeBind none_notMem ((proceeds_exprBehind hs what).bind fun _ =>
      expectSemicolon.bind fun _ => done)
  · exact expectSemicolon.bind fun _ => done

omit hs in
theorem proceeds_isAtAccessor :
    Proceeds setting watched (State.Stands setting N p S) isAtAccessor
      fun b => State.Stands setting N p {o | o ∈ S ∧ (b = true → o = some .id)} := by
  refine word.bind fun text => ifAt (fun hid => pure fun s h => h.mono ?_)
    (pure fun s h => h.mono fun o ho => ⟨ho.1, nofun⟩)
  rintro o rfl
  exact ⟨hid, fun _ => rfl⟩

theorem proceeds_accessor (hS : p = .live → none ∉ S) :
    Proceeds setting watched (State.Stands setting N p S) accessor
      fun _ => State.Stands setting N p.on Set.univ := by
  have haccessor : ∀ {q : Pace} {T : Set (Option Kind)}, (q = .live → none ∉ T) →
      Proceeds setting watched (State.Stands setting N q T)
        (do
          if ← isAtAccessor then
            Script.enclose .accessor do
              Script.take
              body "accessor body"
          else
            Script.reportAndTake .expectedAccessor : Script Unit)
        fun _ => State.Stands setting N q.on Set.univ := by
    refine fun hT => proceeds_isAtAccessor.cond (enclose _ (takeBind ?_ ?_)) (reportAndTake _ ?_)
    · exact fun hnone => nomatch hnone.2 rfl
    · exact (proceeds_body hs _).post fun _ _ h => h.on_of_moved
    · exact fun hlive hnone => hT hlive hnone.1
  refine frame (proceeds_modifiers.bind fun modified => ?_)
  cases modified with
  | true => exact (haccessor (q := .moved) nofun).post fun _ _ h => h.on_of_moved
  | false => exact haccessor fun hlive hnone => hS hlive hnone.1

theorem proceeds_accessorList (hS : none ∉ S) :
    Proceeds setting watched (State.Stands setting N p S) accessorList
      fun _ => State.Stands setting N .moved Set.univ := by
  refine node _ ((takeOpening hS).bind fun _ => ?_)
  refine Proceeds.bind (whileTrue (fun _ => isBefore .braceClose) (fun M hM => ?_) fun _ _ h => h)
    fun _ => expectClosing _ _
  exact proceeds_accessor (hs.inner (k := 0) .moved hM) fun _ hnone => hnone.2.1 rfl

/-- How far a script has got that has found out what a member is: it has read a name, unless
    the member is a field. -/
def MemberShape.pace (p : Pace) : MemberShape → Pace
  | .field _ => p.rest
  | _ => .moved

/-- The tokens that tell what a member is. -/
def MemberShape.tellers : MemberShape → Set (Option Kind)
  | .method => {some .parenOpen}
  | .property => {some .braceOpen}
  | .computedProperty => {some .fatArrow}
  | .field _ => Set.univ

theorem proceeds_fieldDeclarator :
    Proceeds setting watched (State.Stands setting N .moved S) fieldDeclarator
      fun _ => State.Stands setting N .moved Set.univ :=
  enclose _ ((eat .equals).cond (proceeds_exprBehind hs _) (pure fun _ h => h.forget))

/-- What a member is depends on its name and the token behind it. -/
theorem proceeds_memberName :
    Proceeds setting watched (State.Stands setting N p S) memberName
      fun shape => State.Stands setting N (shape.pace p) shape.tellers := by
  have hmark : ∀ {named : Bool} {next : Option Kind} {k : Kind} {s : State},
      (named && next == some k) = true →
      s.Stands setting N (if named then .moved else p) (Set.univ ∩ {next}) →
      s.Stands setting N .moved {some k} := by
    intro named next k s hk h
    rw [Bool.and_eq_true, beq_iff_eq] at hk
    rw [if_pos hk.1, hk.2] at h
    exact h.mono Set.inter_subset_right
  refine frame ((expectNamed _).bind fun named => look.bind fun next => ?_)
  refine ite (fun h => pure fun _ => hmark h) fun _ => ite (fun h => pure fun _ => hmark h) fun _ =>
    ite (fun h => pure fun _ => hmark h) fun _ => ?_
  cases named with
  | true => exact (proceeds_fieldDeclarator hs).bind fun _ => pure fun _ h => h.rest_of_moved
  | false => exact pure fun _ h => h.rest.forget

theorem proceeds_memberRest (h : 0 < level) (shape : MemberShape) :
    Proceeds setting watched (State.Stands setting N (shape.pace p) shape.tellers)
      (memberRest shape) fun _ => State.Stands setting N p.rest Set.univ := by
  cases shape with
  | method =>
      refine enclose _ ((proceeds_paramList hs).bind fun _ => ?_)
      exact (proceeds_body hs _).post fun _ _ h => h.rest_of_moved
  | property =>
      refine enclose _ ((proceeds_accessorList hs none_notMem).bind fun _ => (eat .equals).cond ?_ ?_)
      · exact (proceeds_exprBehind hs _).bind fun _ => expectSemicolon.bind fun _ =>
          pure fun _ h => h.rest_of_moved
      · exact pure fun _ h => h.forget.rest_of_moved
  | computedProperty =>
      refine enclose _ (takeBind none_notMem ?_)
      exact (proceeds_exprBehind hs _).bind fun _ => expectSemicolon.bind fun _ =>
        pure fun _ h => h.rest_of_moved
  | field named =>
      have hmore : Proceeds setting watched (State.Stands setting N p.rest Set.univ)
          (Script.whenever named (Script.whileTrue (Script.eat .comma) varDeclarator))
          fun _ => State.Stands setting N p.rest Set.univ := by
        refine ite (fun _ => ?_) fun _ => done
        refine (whileTrue (fun _ => eat .comma) (fun M hM => ?_) fun _ _ h => h.forget).post
          fun _ _ h => by rwa [Pace.rest_rest] at h
        exact proceeds_varDeclarator (hs.inner (k := 0) (.inr h) hM)
      refine enclose _ (hmore.bind fun _ => expectSemicolon.bind fun _ => pure fun _ h => ?_)
      simpa only [Pace.rest_rest] using h

theorem proceeds_typedMember (h : 0 < level) (hS : p = .live → S ⊆ Production.type.first) :
    Proceeds setting watched (State.Stands setting N p S) typedMember
      fun _ => State.Stands setting N p.on Set.univ := by
  refine Proceeds.bind (hs.callOn .type (.inr h) hS) fun _ =>
    (proceeds_memberName hs).bind fun shape => ?_
  exact (proceeds_memberRest hs h shape).post fun _ _ h => by rwa [Pace.rest_on] at h

omit hs in
/-- The tokens at which the body of a type is taken up again after a mistake. -/
theorem memberRecovery_cases {k : Kind} (h : KindSet.memberRecovery.contains k = true) :
    k.isModifier = true ∨ k = .braceClose ∨ k = .kwClass ∨ k = .kwStruct ∨ k = .kwVoid
      ∨ k = .predefinedType ∨ k = .id := by
  revert h
  cases k <;> decide

/-- What stands behind the modifiers of a member makes it one, unless it is a mistake. Such a
    mistake is skipped, at least one token of it where a member may start. -/
theorem proceeds_modified (modified : Bool) (h : 0 < level)
    (hS : p = .live → modified = false ∧ ∀ o ∈ S, o ∈ Production.member.first
      ∧ o.any Kind.isModifier = false) :
    Proceeds setting watched (State.Stands setting N p S)
      (do
        match ← Script.look with
        | some .kwClass | some .kwStruct => typeFromKeyword
        | some .id =>
          if ← Script.nextIs .parenOpen then
            Script.enclose .constructorDecl do
              Script.take
              paramList
              body "method body"
          else
            typedMember
        | some .kwVoid =>
          Script.enclose .methodDecl do
            Script.take
            let _ ← Script.expectName "method name"
            paramList
            body "method body"
        | some .predefinedType => typedMember
        | _ =>
          if modified then
            Script.report .expectedMember
          else
            Script.recover .expectedMember KindSet.memberRecovery : Script Unit)
      fun _ => State.Stands setting N p.on Set.univ := by
  refine lookBind fun o ho => ?_
  split
  · exact proceeds_typeFromKeyword hs fun _ => Set.singleton_subset_iff.mpr (.inl rfl)
  · exact proceeds_typeFromKeyword hs fun _ => Set.singleton_subset_iff.mpr (.inr rfl)
  · refine (nextIs .parenOpen).bind fun b => ite (fun _ => enclose _ ?_) fun _ => ?_
    · exact takeBind none_notMem ((proceeds_paramList hs).bind fun _ =>
        (proceeds_body hs _).post fun _ _ h => h.on_of_moved)
    · exact proceeds_typedMember hs h fun _ => Set.singleton_subset_iff.mpr (.inl rfl)
  · exact enclose _ (takeBind none_notMem ((expectName _).bind fun _ =>
      (proceeds_paramList hs).bind fun _ =>
        (proceeds_body hs _).post fun _ _ h => h.on_of_moved))
  · exact proceeds_typedMember hs h fun _ => Set.singleton_subset_iff.mpr (.inr rfl)
  · next hclass hstruct hid hvoid hbuiltIn =>
      refine ite (fun hmodified => (report _ _).post fun _ s hr => ?_) fun _ =>
        recover _ fun hlive o' ho' => ?_
      · cases p with
        | still => exact hr.forget
        | moved => exact hr.forget
        | live => cases (hS rfl).1.symm.trans hmodified
      · rw [Set.mem_singleton_iff.mp ho']
        rcases (hS hlive).2 o ho with ⟨⟨hsome, hbrace⟩, hplain⟩
        refine ⟨?_, hsome⟩
        cases o with
        | none => rfl
        | some k =>
            rw [Option.any_some, Bool.eq_false_iff]
            intro hk
            rcases memberRecovery_cases hk with hk | rfl | rfl | rfl | rfl | rfl | rfl
            · rw [Option.any_some, hk] at hplain
              cases hplain
            · exact hbrace rfl
            · exact hclass rfl
            · exact hstruct rfl
            · exact hvoid rfl
            · exact hbuiltIn rfl
            · exact hid rfl

/-- A member gets further from any token but a closing brace. -/
theorem proceeds_memberScript (h : 0 < level) (hS : p = .live → S ⊆ Production.member.first) :
    Proceeds setting watched (State.Stands setting N p S) memberScript
      fun _ => State.Stands setting N p.on Set.univ := by
  refine frame (proceeds_modifiers.bind fun modified => ?_)
  cases modified with
  | true => exact (proceeds_modified (p := .moved) hs true h nofun).post fun _ _ h => h.on_of_moved
  | false => exact proceeds_modified hs false h fun hlive => ⟨rfl, fun o ho => ⟨hS hlive ho.1, ho.2⟩⟩

/-! ### Files -/

theorem proceeds_item (braced : Bool) (h : 4 < level) :
    Proceeds setting watched (State.Stands setting N .still S) (item braced)
      fun b => State.Stands setting N (if b then .moved else .still) Set.univ := by
  have hread : ∀ {x : Script Unit} {T : Set (Option Kind)},
      Proceeds setting watched (State.Stands setting N .live T) x
        (fun _ => State.Stands setting N .moved Set.univ) →
      Proceeds setting watched (State.Stands setting N .live T) (x >>= fun _ => pure true)
        fun b => State.Stands setting N (if b then .moved else .still) Set.univ :=
    fun hx => hx.bind fun _ => pure fun _ h => h
  refine atEnd.cond (pure fun _ h => h.forget) (lookBind fun o ho => ?_)
  split
  · exact hread (proceeds_usingDirective fun _ h => h)
  · exact hread (proceeds_namespaceDeclaration hs fun _ h => h)
  · exact hread (proceeds_typeDeclaration hs fun _ o ho => .inl (.inl ho))
  · exact hread (proceeds_typeDeclaration hs fun _ o ho => .inl (.inr ho))
  · refine ite (fun _ => pure fun _ h => h.still.forget) fun _ => ite (fun hmodifier => ?_) fun _ => ?_
    · refine hread (proceeds_typeDeclaration hs fun _ o ho => .inr ?_)
      rw [Set.mem_singleton_iff.mp ho]
      exact hmodifier
    · refine hread (hs.callOn .stmt (.inr h) fun _ o ho => ?_)
      rw [Set.mem_singleton_iff.mp ho]
      exact nofun
  · exact (ho.2 rfl).elim

/-- Items are read without a fault. -/
theorem proceeds_itemsScript (braced : Bool) (h : 4 < level) (hS : p = .live → S ⊆ ∅) :
    Proceeds setting watched (State.Stands setting N p S) (itemsScript braced)
      fun _ => State.Stands setting N p.on Set.univ := by
  by_cases hlive : p = .live
  · exact absurd fun o ho => hS hlive ho
  · refine Proceeds.post (repeatWhile fun M hM => ?_) fun _ s hr => ?_
    · exact proceeds_item (hs.inner (k := 4) (.inr h) hM) braced (Nat.lt_succ_self _)
    · cases p with
      | still => exact hr
      | moved => exact hr
      | live => exact (hlive rfl).elim

omit hs in
/-- The script of a production proceeds if the productions that it refers to do. -/
theorem proceeds_script (q : Production) (hs : Serves setting N q.level watched)
    (hS : p = .live → S ⊆ q.first) :
    Proceeds setting watched (State.Stands setting N p S) q.script
      fun a => State.Stands setting N (p.past q a) Set.univ := by
  cases q with
  | items braced => exact proceeds_itemsScript hs braced (by decide : 4 < 6) hS
  | member => exact proceeds_memberScript hs (by decide) hS
  | stmt => exact proceeds_stmtScript hs (by decide) hS
  | expr => exact proceeds_exprScript hs (by decide) hS
  | binary power => exact proceeds_binaryScript hs power (by decide : 1 < 2) hS
  | unary => exact proceeds_unaryScript hs hS
  | type => exact proceeds_typeScript hs hS

omit hs in
/-- Productions serve each other: with each reference there is less to do, or it leads down
    the hierarchy, so the references that may be followed do not run out. -/
theorem serves_watchProduction {n : Nat} (h : 8 * N + level ≤ n) :
    Serves setting N level (watchProduction setting n) := by
  induction n generalizing N level with
  | zero =>
      intro q M p S hM
      omega
  | succ n ih =>
      intro q M p S hM hS s hstands
      have hlevel := q.level_lt
      rw [watch_call]
      exact proceeds_script q (ih (by omega)) hS s hstands

end Grammar

end Nominal
