import Nominal.Proofs.Derived.Expressions

/-!
# Declarations Follow Their Rules

What the productions of declarations add where they report nothing. With them all productions
are followed, so the assumption about the productions that are referred to is kept by going
through one more level of references.

What a member is shows only behind its name. So the name of a member leaves more behind than
words: which token comes next decides what the rest of the member starts by taking.

## Main definitions

* `MemberShape.rule`, `MemberShape.ahead`: What the name of a member leaves behind.

## Theorems

* `adds_itemsScript`, `adds_memberScript`: Items and members follow their rules.
* `obeyed_readProduction`: Every production adds what it has to.
* `leads_fileScript`: A whole file is items.
-/

namespace Nominal

namespace Grammar

open Syntax (Kind KindSet Phrase Tree)
open Syntax.Phrase (just maybe)
open Adds
open scoped Computability

variable {limit : Option Nat} {readers : Readers} {n : Nat} {S : Set (Option Kind)}

/-! ### Items other than types -/

theorem adds_dottedPath (what : String) :
    Adds limit readers n n S (dottedPath what) fun _ => just .path :=
  (ifAt (node (bind takeJust fun _ => adds_segments) (fun _ => le_of_eq (by simp)) rfl)
    (report _ _)).widen fun _ => le_of_eq (by simp)

theorem adds_usingDirective :
    Adds limit readers n n S usingDirective fun _ => just .usingDirective :=
  node (requireBind (bind takeJust fun _ => bind (adds_dottedPath _) fun _ =>
    bind semicolon fun _ => done ())) (fun _ => le_of_eq (by simp [mul_assoc])) rfl

/-! ### Modifiers -/

theorem adds_modifiers : Adds limit readers n n S modifiers fun _ => .modifiers := by
  have hasks : ∀ A T, Leads limit readers (Place.Spells A n T) isAtModifier
      fun found => Place.Spells A n {o | found = true → o.any KindSet.modifiers.contains} :=
    fun A T => (Leads.asks fun o => o.any Kind.isModifier).post fun _ _ hp =>
      hp.mono le_rfl fun _ ho hfound => ho.2.trans hfound
  have htake : Adds limit readers n n {o | true = true → o.any KindSet.modifiers.contains}
      Script.take fun _ => .one KindSet.modifiers.toList :=
    (takeOf KindSet.modifiers).knowing fun _ ho => ho rfl
  have hfurther : Adds limit readers n n .univ (Script.whileTrue isAtModifier Script.take)
      fun _ => .any (.one KindSet.modifiers.toList) := whileTrue (fun A => hasks A _) htake
  refine (cond (fun A => hasks A S) (bind htake fun _ => bind hfurther fun _ => done true)
    (done false)).widen fun _ => ?_
  refine add_le ?_ one_le_kstar
  simpa [Phrase.modifiers] using mul_kstar_le_kstar

variable (hf : Obeyed limit readers)

include hf

theorem adds_namespaceDeclaration :
    Adds limit readers n n S namespaceDeclaration fun _ => just .namespaceDecl :=
  node (requireBind (bind takeJust fun _ => bind (adds_dottedPath _) fun _ =>
    ifEat (hf.adds (.items false) _ _) (ifAt (bind takeOpening fun _ =>
      bind (hf.adds (.items true) _ _) fun _ => expectClosing _ _) (report _ _))))
    (fun _ => le_of_eq (by simp [Production.rule, mul_assoc])) rfl

/-! ### Types -/

theorem adds_baseListIfAny :
    Adds limit readers n n S baseListIfAny fun _ => maybe (just .baseList) :=
  ifAt (node (bind takeJust fun _ => repeatWhile (adds_typeItem hf))
    (fun _ => le_of_eq (by simp [mul_assoc])) rfl) (done ())

omit hf in
theorem adds_eatTypeKeyword :
    Adds limit readers n n S eatTypeKeyword
      fun found => if found then .one [.kwClass, .kwStruct] else 1 := by
  refine (ifEat (answer true) (eat .kwStruct)).widen fun found => ?_
  cases found with
  | true =>
      rw [if_pos rfl]
      refine add_le (le_of_eq_of_le ?_ (Phrase.just_le (List.mem_cons_self ..)))
        (Phrase.just_le (List.mem_cons_of_mem _ (List.mem_singleton_self _)))
      simp
  | false => simp

theorem adds_typeBody :
    Adds limit readers n n S typeBody fun _ => .within .curly (.any (.one Kind.members)) :=
  (ifAt (bind takeOpening fun _ => bind (whileTrue (fun _ => isBefore_asks)
    (hf.adds .member _ _)) fun _ => expectClosing _ _) (report _ _)).widen fun _ =>
      le_of_eq (by simp [Production.rule, mul_assoc])

theorem leads_typeFromKeyword :
    Leads limit readers (Place.Spells Phrase.modifiers.words n S) typeFromKeyword
      fun _ => Place.Spells (just .typeDecl).words n .univ :=
  .enclose (ifAnswer adds_eatTypeKeyword (bind (name "type name") fun _ =>
    bind (adds_baseListIfAny hf) fun _ => adds_typeBody hf) (report _ _) _)
    (le_of_eq (by simp [mul_assoc])) rfl

theorem adds_typeDeclaration :
    Adds limit readers n n S typeDeclaration fun _ => just .typeDecl :=
  frame ((adds_modifiers _).bind fun _ => (leads_typeFromKeyword hf).pre fun _ hp =>
    hp.mono (le_of_eq (one_mul _)) subset_rfl)

/-! ### Parameters and bodies -/

theorem adds_param : Adds limit readers n n S param fun _ => just .param :=
  node (hf.readType fun _ => bind (name _) fun _ => ifEat (adds_exprRequired hf _) (done ()))
    (fun _ => le_of_eq (by simp [mul_assoc])) rfl

theorem adds_paramItem :
    Adds limit readers n n S paramItem
      fun more => if more then just .param * just .comma else maybe (just .param) := by
  have hparam : ∀ o : Option Kind, Adds limit readers n n {o} (param >>= fun _ => Script.eat .comma)
      fun more => if more then just .param * just .comma else maybe (just .param) := by
    intro o
    refine (bind (adds_param hf) fun _ => eat .comma).widen fun more => ?_
    cases more <;> simp
  refine (cond (r := fun more => if more then just .param * just .comma else maybe (just .param))
    (fun _ => isBefore_asks) (lookBind fun o => ?_) (answer false)).widen fun more => ?_
  · split
    · exact hparam _
    · exact hparam _
    · refine (ifAtOneOf (answer false) (bind (reportAndTake _) fun _ => answer true)).widen
        fun more => ?_
      cases more <;> simp
  · cases more <;> simp

theorem adds_paramList : Adds limit readers n n S paramList fun _ => just .paramList :=
  node (ifAt (bind takeOpening fun _ => bind (repeatWhile (adds_paramItem hf)) fun _ =>
    expectClosing _ _) (report _ _)) (fun _ => le_of_eq (by simp [mul_assoc])) rfl

theorem adds_body (what : String) : Adds limit readers n n S (body what) fun _ => .body := by
  refine lookBind fun o => ?_
  split
  · exact (adds_block hf).widen fun _ => le_self_add.trans le_self_add
  · refine (bind takeJust fun _ => bind (adds_exprRequired hf what) fun _ =>
      bind semicolon fun _ => done ()).widen fun _ => ?_
    exact le_of_eq_of_le (by simp [mul_assoc]) (le_add_self.trans le_self_add)
  · exact (bind semicolon fun _ => done ()).widen fun _ => le_of_eq_of_le (by simp) le_add_self

/-! ### Accessors -/

omit hf in
theorem isAtAccessor_asks {A : Language Kind} :
    Leads limit readers (Place.Spells A n S) isAtAccessor
      fun found => Place.Spells A n {o | found = true → o = some .id} := by
  refine (word A).bind fun text => ?_
  rw [Phrase.words_one, mul_one]
  exact .ifAt (.pure fun p hp => hp.mono le_rfl fun _ ho _ => ho)
    (.pure fun p hp => hp.mono le_rfl nofun)

theorem adds_accessor : Adds limit readers n n S accessor fun _ => just .accessor := by
  refine frame ((adds_modifiers _).bind fun _ => ?_)
  rw [one_mul]
  refine isAtAccessor_asks.cond ?_ ?_
  · have haccessor : Adds limit readers n n {some .id} _ _ :=
      bind takeJust fun _ => adds_body hf "accessor body"
    refine Leads.pre (P := Place.Spells Phrase.modifiers.words n {some Kind.id}) ?_ fun p hp =>
      hp.mono le_rfl fun _ ho => ho rfl
    exact .enclose (haccessor _) (le_of_eq (by simp [mul_assoc])) rfl
  · exact (reportAndTake _ _).widen (by simp)

theorem adds_accessorList :
    Adds limit readers n n {some .braceOpen} accessorList fun _ => just .accessorList :=
  node (bind takeOpening fun _ =>
    bind (whileTrue (fun _ => isBefore_asks) (adds_accessor hf)) fun _ => expectClosing _ _)
    (fun _ => le_of_eq (by simp [mul_assoc])) rfl

/-! ### Members -/

omit hf in
/-- What the name of a member spells, which for a field is the first of its variables. -/
def MemberShape.rule : MemberShape → Phrase
  | .method | .property | .computedProperty => just .id
  | .field named => if named then just .varDeclarator else .never

omit hf in
/-- What comes next behind the name of a member. -/
def MemberShape.ahead : MemberShape → Set (Option Kind)
  | .method | .field _ => .univ
  | .property => {some .braceOpen}
  | .computedProperty => {some .fatArrow}

theorem leads_memberName {A : Language Kind} :
    Leads limit readers (Place.Spells A n S) memberName
      fun shape => Place.Spells (A * shape.rule.words) n shape.ahead := by
  refine .frame ((expectName _ 1).bind fun named => ?_)
  cases named with
  | false => exact .absurd (by simp)
  | true =>
      simp only [Bool.true_and, if_true, one_mul]
      refine .lookBind fun o => .ite (fun _ => ?_) fun _ => .ite (fun h => ?_) fun _ =>
        .ite (fun h => ?_) fun _ => ?_
      · exact .pure fun p hp => hp.forget
      · exact .pure fun p hp => hp.mono le_rfl (Set.singleton_subset_singleton.mpr (eq_of_beq h))
      · exact .pure fun p hp => hp.mono le_rfl (Set.singleton_subset_singleton.mpr (eq_of_beq h))
      · refine (Leads.enclose (ifEat (adds_exprRequired hf _) (done ()) _)
          (le_of_eq (by simp)) rfl).bind fun _ => .pure fun p hp => hp

omit hf in
/-- What stands in front of the rest of a member makes the member with it. -/
theorem leads_encloseMember {A : Language Kind} {x : Script Unit} {k : Kind} {r : Phrase}
    {T : Set (Option Kind)} (hx : Adds limit readers n n T x fun _ => r)
    (hr : A * r.words ≤ k.rule.words) (hk : k ∈ Kind.members) :
    Leads limit readers (Place.Spells A n T) (Script.enclose k x)
      fun _ => Place.Spells (Phrase.one Kind.members).words n .univ := by
  have htrivia : ∀ k ∈ Kind.members, k.isTrivia = false := by decide
  exact (Leads.enclose (hx _) hr (htrivia k hk)).widen (Phrase.just_le hk)

theorem leads_memberRest (shape : MemberShape) :
    Leads limit readers
      (Place.Spells (Phrase.modifiers.words * Phrase.type.words * shape.rule.words) n shape.ahead)
      (memberRest shape) fun _ => Place.Spells (Phrase.one Kind.members).words n .univ := by
  cases shape with
  | method =>
      refine leads_encloseMember (bind (adds_paramList hf) fun _ => adds_body hf _) ?_ (by decide)
      simp only [MemberShape.rule, Kind.rule, Phrase.words_mul, Phrase.words_add, mul_assoc]
      gcongr
      exact le_self_add
  | property =>
      refine leads_encloseMember (bind (adds_accessorList hf) fun _ =>
        ifEat (bind (adds_exprRequired hf _) fun _ => bind semicolon fun _ => done ()) (done ()))
        ?_ (by decide)
      simp only [MemberShape.rule, Kind.rule, Phrase.words_mul, Phrase.words_add, mul_assoc]
      gcongr
      exact le_of_eq_of_le (by simp [mul_assoc]) le_self_add
  | computedProperty =>
      refine leads_encloseMember (bind takeJust fun _ => bind (adds_exprRequired hf _) fun _ =>
        bind semicolon fun _ => done ()) ?_ (by decide)
      simp only [MemberShape.rule, Kind.rule, Phrase.words_mul, Phrase.words_add, mul_assoc]
      gcongr
      exact le_of_eq_of_le (by simp) le_add_self
  | field named =>
      cases named with
      | false => exact .absurd (by simp [MemberShape.rule])
      | true =>
          refine leads_encloseMember (bind (adds_further (adds_varDeclarator hf)) fun _ =>
            bind semicolon fun _ => done ()) (le_of_eq ?_) (by decide)
          simp [MemberShape.rule, mul_assoc]

theorem leads_typedMember :
    Leads limit readers (Place.Spells Phrase.modifiers.words n S) typedMember
      fun _ => Place.Spells (Phrase.one Kind.members).words n .univ :=
  hf.readTypeBind fun _ => (leads_memberName hf).bind fun shape => leads_memberRest hf shape

theorem adds_memberScript :
    Adds limit readers n n S memberScript fun _ => .one Kind.members := by
  refine frame ((adds_modifiers _).bind fun modified => ?_)
  rw [one_mul]
  refine .lookBind fun o => ?_
  split
  · exact (leads_typeFromKeyword hf).widen (Phrase.just_le (by decide))
  · exact (leads_typeFromKeyword hf).widen (Phrase.just_le (by decide))
  · refine (Leads.nextIs .parenOpen).bind fun _ => .ite (fun _ => ?_) fun _ => leads_typedMember hf
    exact leads_encloseMember (bind takeJust fun _ => bind (adds_paramList hf) fun _ =>
      adds_body hf _) (le_of_eq (by simp [mul_assoc])) (by decide)
  · refine leads_encloseMember (bind takeJust fun _ => bind (name _) fun _ =>
      bind (adds_paramList hf) fun _ => adds_body hf _) ?_ (by decide)
    simp only [Kind.rule, Phrase.words_mul, Phrase.words_add, mul_assoc]
    gcongr
    exact le_add_self
  · exact leads_typedMember hf
  · refine .ite (fun _ => .report _ _) fun _ => ?_
    exact (recover _ _ _).widen (by simp)

/-! ### Items -/

theorem adds_item (braced : Bool) :
    Adds limit readers n n S (item braced)
      fun more => if more then .one Kind.items else 1 := by
  have hmore : ∀ {x : Script Unit} {r : Phrase} {T : Set (Option Kind)},
      r.words ≤ (Phrase.one Kind.items).words → (∀ U, Adds limit readers n n U x fun _ => r) →
        Adds limit readers n n T (x >>= fun _ => pure true)
          fun more => if more then .one Kind.items else 1 := by
    intro x r T hr hx
    refine (bind ((hx T).widen fun _ => hr) fun _ => answer true).widen fun more => ?_
    cases more <;> simp
  have hstmt : Phrase.stmt.words ≤ (Phrase.one Kind.items).words := by
    rintro w ⟨k, hk, rfl⟩
    exact ⟨k, List.mem_append_right _ hk, rfl⟩
  have hover : ∀ {T : Set (Option Kind)}, Adds limit readers n n T (pure false)
      fun more => if more then .one Kind.items else 1 := fun {T} => by
    refine (answer false).widen fun more => ?_
    cases more <;> simp
  refine (ifAnswer atEnd hover (lookBind (r := fun more => if more then .one Kind.items else 1)
    fun o => ?_)).widen fun more => ?_
  · split
    · exact hmore (Phrase.just_le (by decide)) fun _ => adds_usingDirective
    · exact hmore (Phrase.just_le (by decide)) fun _ => adds_namespaceDeclaration hf
    · exact hmore (Phrase.just_le (by decide)) fun _ => adds_typeDeclaration hf
    · exact hmore (Phrase.just_le (by decide)) fun _ => adds_typeDeclaration hf
    · refine orElse (fun _ => hover) fun _ => orElse (fun _ => ?_) fun _ => ?_
      · exact hmore (Phrase.just_le (by decide)) fun _ => adds_typeDeclaration hf
      · exact hmore hstmt fun _ => hf.adds .stmt _ _
    · exact hmore hstmt fun _ => hf.adds .stmt _ _
  · cases more <;> simp

theorem adds_itemsScript (braced : Bool) :
    Adds limit readers n n S (itemsScript braced) fun _ => .any (.one Kind.items) :=
  (repeatWhile (adds_item hf braced)).widen fun _ => le_of_eq (by simp)

omit hf

/-- Every production adds what it has to, however deep references are nested. -/
theorem obeyed_readProduction (limit : Option Nat) (i : Nat) :
    Obeyed limit (readProduction limit i) := by
  refine ⟨?_, fun p q kind h => (stepsOverTypes_readProduction limit i p q kind h).1⟩
  induction i with
  | zero => exact fun q n S A p t a _ h => nomatch (read_call q p).symm.trans h
  | succ i ih =>
      have hf : Obeyed limit (readProduction limit i) :=
        ⟨ih, fun p q kind h => (stepsOverTypes_readProduction limit i p q kind h).1⟩
      have hscript : ∀ (q : Production) (n : Nat) (S : Set (Option Kind)),
          Adds limit (readProduction limit i) n n S q.script fun _ => q.rule := by
        intro q n S
        cases q with
        | items braced => exact adds_itemsScript hf braced
        | member => exact adds_memberScript hf
        | stmt => exact adds_stmtScript hf
        | expr => exact adds_exprScript hf
        | binary power => exact adds_binaryScript hf power
        | unary => exact adds_unaryScript hf
        | type => exact adds_typeScript hf
      intro q n S A p t a hp h
      rw [read_call] at h
      exact hscript q n S A p t a hp h

/-- A whole file is items. -/
theorem leads_fileScript (limit : Option Nat) (i : Nat) :
    Leads limit (readProduction limit i) (Place.Spells 1 n S) fileScript
      fun _ => Place.Spells (Phrase.any (.one Kind.items)).words n .univ := by
  refine ((obeyed_readProduction limit i).adds (.items false) n S 1).bind fun _ => ?_
  refine .perform fun p q _ hp h => ?_
  cases h
  exact hp.skip.flush.forget.mono (le_of_eq (one_mul _)) subset_rfl

end Grammar

end Nominal
