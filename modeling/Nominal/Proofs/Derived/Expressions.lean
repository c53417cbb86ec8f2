import Nominal.Proofs.Derived.Spelling

/-!
# Types, Expressions and Statements Follow Their Rules

What the productions of types, expressions and statements add where they report nothing. Each
production is followed under the assumption that the productions it refers to add what they
have to.

## Theorems

* `adds_typeScript`: A type follows its rule.
* `adds_unaryScript`, `adds_binaryScript`, `adds_exprScript`: An expression follows its rule.
* `adds_stmtScript`: A statement follows its rule.
-/

namespace Nominal

namespace Grammar

open Syntax (Kind KindSet Phrase)
open Syntax.Phrase (just maybe)
open Adds

variable {limit : Option Nat} {readers : Readers} {n : Nat} {S : Set (Option Kind)}

variable (hf : Obeyed limit readers)

include hf

/-! ### Types -/

/-- A type that is read is answered, so only scripts that go on with a kind matter. -/
theorem Obeyed.readTypeBind {α : Type} {A : Language Kind} {f : Option Kind → Script α}
    {Q : α → Place → Prop}
    (hx : ∀ kind,
      Leads limit readers (Place.Spells (A * Phrase.type.words) n .univ) (f (some kind)) Q) :
    Leads limit readers (Place.Spells A n S) (readType >>= f) Q := by
  intro p q a hp h
  rcases read_bind_some h with ⟨kind, t, htype, hrest⟩
  have ht := hf.adds .type n S A p t kind hp htype
  rw [readType, read_call] at htype
  rcases Option.isSome_iff_exists.mp (hf.answers p t kind htype) with ⟨k, rfl⟩
  exact hx k t q a ht hrest

theorem Obeyed.readType {α : Type} {m : Nat} {f : Option Kind → Script α} {r : α → Phrase}
    (hx : ∀ kind, Adds limit readers n m .univ (f (some kind)) r) :
    Adds limit readers n m S (readType >>= f) fun a => .type * r a :=
  fun _ => hf.readTypeBind fun kind => (hx kind _).post fun _ _ hp =>
    hp.mono (le_of_eq (mul_assoc _ _ _)) subset_rfl

theorem adds_typeItem :
    Adds limit readers n n S typeItem fun more => .type * if more then just .comma else 1 :=
  hf.readType fun _ => eat .comma

theorem adds_typeArguments :
    Adds limit readers n n {some .lt} typeArguments fun _ => just .typeArgList :=
  node (bind takeJust fun _ => bind (repeatWhile (adds_typeItem hf)) fun _ => expect .gt _)
    (fun _ => le_of_eq (by simp [mul_assoc])) rfl

omit hf in
theorem adds_segments :
    Adds limit readers n n S (Script.whileTrue isAtSegment segment)
      fun _ => .any (just .dot * just .id) := by
  refine whileTrue (R := fun more => {o | more = true → o = some .dot}) (fun A => ?_) ?_
  · refine (Leads.isAt .dot).cond ((Leads.nextIs .id).post fun b p hp => hp.mono le_rfl ?_)
      (.pure fun p hp => hp.mono le_rfl nofun)
    exact fun o ho _ => eq_of_beq ho.2
  · exact (bind takeJust fun _ => expect .id _).knowing fun _ ho => ho rfl

theorem adds_namedType :
    Adds limit readers n n {some .id} namedType fun _ => just .namedType :=
  node (bind takeJust fun _ => bind adds_segments fun _ =>
    ifAt (adds_typeArguments hf) (done _))
    (fun _ => le_of_eq (by simp [mul_assoc])) rfl

omit hf in
theorem leads_typeMark (kind : Kind) :
    Leads limit readers (Place.Spells Phrase.type.words n .univ) (typeMark kind)
      fun _ => Place.Spells Phrase.type.words n .univ := by
  refine Leads.lookBind fun o => ?_
  split
  · refine (Leads.nextIs .bracketClose).bind fun _ => .ite (fun _ => ?_) fun _ => .done le_rfl
    have harray : Adds limit readers n n {some .bracketOpen} _ _ :=
      bind takeJust fun _ => expect .bracketClose "`]`"
    exact (Leads.enclose (harray _) (le_of_eq (by simp)) rfl).bind fun _ =>
      .done (Phrase.just_le (by decide))
  · refine .ite (fun _ => .done le_rfl) fun _ => ?_
    exact (Leads.enclose (takeJust _) (le_of_eq (by simp)) rfl).bind fun _ =>
      .done (Phrase.just_le (by decide))
  · exact .done le_rfl

theorem adds_typeScript : Adds limit readers n n S typeScript fun _ => .type := by
  have hmarks : ∀ kind,
      Leads limit readers (Place.Spells Phrase.type.words n .univ) (typeMarks kind)
        fun _ => Place.Spells Phrase.type.words n .univ :=
    fun kind => .loop leads_typeMark fun _ => .done le_rfl
  refine (bind skipTrivia fun _ => frame (r := fun _ => .type)
    (Leads.lookBind fun o => ?_)).widen fun _ => le_of_eq (by simp)
  split
  · refine Leads.bind (R := fun _ => _) ?_ fun _ => hmarks .predefType
    refine (node takeJust (fun _ => le_rfl) rfl _).widen ?_
    rw [one_mul]
    exact Phrase.just_le (by decide)
  · refine Leads.bind (R := fun _ => _) ?_ fun _ => hmarks .namedType
    refine (adds_namedType hf _).widen ?_
    rw [one_mul]
    exact Phrase.just_le (by decide)
  · exact .reportBind

/-! ### Expressions -/

theorem adds_exprRequired (what : String) :
    Adds limit readers n n S (exprRequired what) fun _ => .expr :=
  (ifAtOneOf (hf.adds .expr n _) (report _ _)).widen fun _ => le_of_eq (by simp [Production.rule])

omit hf in
theorem isBefore_asks {A : Language Kind} {k : Kind} :
    Leads limit readers (Place.Spells A n S) (Script.isBefore k) fun _ => Place.Spells A n .univ :=
  (isBefore k A).widen (le_of_eq (mul_one A))

theorem adds_block : Adds limit readers n n S block fun _ => just .block :=
  node (requireBind (bind takeOpening fun _ =>
    bind (whileTrue (fun _ => isBefore_asks) (hf.adds .stmt _ _)) fun _ => expectClosing _ _))
    (fun _ => le_of_eq (by simp [Production.rule, mul_assoc])) rfl

omit hf in
theorem adds_commaItem {r : Phrase} {item : Script Unit} (close : Kind)
    (hitem : Adds limit readers n n .univ item fun _ => r) :
    Adds limit readers n n S (commaItem close item)
      fun more => if more then r * just .comma else maybe r := by
  have htaken := (bind hitem fun _ => eat .comma).knowing
    (Set.subset_univ {o : Option Kind | o.any KindSet.exprFirst.contains})
  refine (cond (fun _ => isBefore_asks) (ifAtOneOf htaken
    (ifAtOneOf (answer false) (bind (reportAndTake _) fun _ => answer true))) (answer false)).widen
    fun more => ?_
  cases more with
  | true => exact le_of_eq (by simp)
  | false => exact le_of_eq (by simp [add_assoc])

omit hf in
theorem adds_commaList {r : Phrase} {item : Script Unit} (b : Syntax.Bracket)
    (unclosed : Diagnostic.Kind) (hitem : ∀ m, Adds limit readers m m .univ item fun _ => r) :
    Adds limit readers n n {some b.opening} (commaList b.closing unclosed item)
      fun _ => .within b (.commas r) :=
  (bind takeOpening fun _ => bind (repeatWhile (adds_commaItem _ (hitem _))) fun _ =>
    expectClosing _ _).widen fun _ => le_of_eq (by simp [mul_assoc])

theorem adds_argumentList :
    Adds limit readers n n {some .parenOpen} argumentList fun _ => just .argList :=
  node (adds_commaList .round _ fun _ => hf.adds .expr _ _) (fun _ => le_rfl) rfl

theorem adds_anonymousMember :
    Adds limit readers n n S anonymousMember fun _ => just .anonMember :=
  node (ifAtPair (bind takeJust fun _ => bind (expect _ _) fun _ => adds_exprRequired hf _)
    (hf.adds .expr _ _))
    (fun _ => le_of_eq (by simp [Production.rule, add_mul, mul_assoc])) rfl

theorem adds_initializerElement :
    Adds limit readers n n S initializerElement fun _ => just .memberInit + .expr :=
  ifAtPair (node (bind takeJust fun _ => bind (expect _ _) fun _ => adds_exprRequired hf _)
    (fun _ => le_of_eq (by simp [mul_assoc])) rfl) (hf.adds .expr _ _)

theorem adds_objectInitializer :
    Adds limit readers n n {some .braceOpen} objectInitializer fun _ => just .objectInit :=
  node (adds_commaList .curly _ fun _ => adds_initializerElement hf) (fun _ => le_rfl) rfl

theorem adds_arrayInitializer :
    Adds limit readers n n {some .braceOpen} arrayInitializer fun _ => just .arrayInit :=
  node (adds_commaList .curly _ fun _ => hf.adds .expr _ _) (fun _ => le_rfl) rfl

theorem adds_arrayInitializerRequired :
    Adds limit readers n n S arrayInitializerRequired fun _ => just .arrayInit :=
  (ifAt (adds_arrayInitializer hf) (report _ _)).widen fun _ => le_of_eq (by simp)

theorem adds_bracketed (what : String) :
    Adds limit readers n n {some .bracketOpen} (bracketed what) fun _ => .within .square .expr :=
  (bind takeOpening fun _ => bind (adds_exprRequired hf what) fun _ => expectClosing _ _).widen
    fun _ => le_of_eq (by simp [mul_assoc])

theorem adds_argumentsIfAny :
    Adds limit readers n n S argumentsIfAny fun any => if any then just .argList else 1 :=
  (ifAt (bind (adds_argumentList hf) fun _ => answer true) (answer false)).widen fun any => by
    cases any <;> simp

theorem adds_initializerOf (kind : Kind) (hasArguments : Bool) :
    Adds limit readers n n S (initializerOf (some kind) hasArguments)
      fun _ => just .objectInit + if hasArguments then 1 else .never := by
  refine ifAt (adds_objectInitializer hf) ?_
  cases hasArguments with
  | true => exact done _
  | false => exact report _ _

/-- What stands behind the keyword and the type makes it the creation of an object or of an
    array. -/
theorem leads_newOfType :
    Leads limit readers (Place.Spells (just .kwNew).words n S) newOfType
      fun _ => Place.Spells Phrase.expr.words n .univ := by
  refine hf.readTypeBind fun kind => .ifAt ?_ (.ite (fun _ => ?_) fun _ => ?_)
  · refine (Leads.enclose ((bind (adds_bracketed hf _) fun _ =>
      ifAt (adds_arrayInitializer hf) (done _)) _) ?_ rfl).widen (Phrase.just_le (by decide))
    rw [mul_assoc]
    exact mul_le_mul_right ((mul_le_mul_right le_self_add _).trans le_self_add) _
  · refine (Leads.enclose (adds_arrayInitializerRequired hf _) ?_ rfl).widen
      (Phrase.just_le (by decide))
    rw [mul_assoc]
    exact mul_le_mul_right ((mul_le_mul_right le_add_self _).trans le_self_add) _
  · refine (Leads.enclose ((branch (adds_argumentsIfAny hf) (adds_initializerOf hf kind true)
      (adds_initializerOf hf kind false)) _) ?_ rfl).widen (Phrase.just_le (by decide))
    simp [mul_assoc]

theorem adds_newExpr : Adds limit readers n n S newExpr fun _ => .expr := by
  refine frame (.requireBind (Leads.takeJust.bind fun _ => .lookBind fun o => ?_))
  rw [one_mul]
  split
  · have hmembers := adds_commaList (n := n) .curly .unclosedBrace fun _ => adds_anonymousMember hf
    exact (Leads.enclose (hmembers _) le_rfl rfl).widen (Phrase.just_le (by decide))
  · have harray : Adds limit readers n n {some .bracketOpen} _ _ :=
      bind takeJust fun _ => bind (expect .bracketClose "`]`") fun _ =>
        adds_arrayInitializerRequired hf
    refine (Leads.enclose (harray _) ?_ rfl).widen (Phrase.just_le (by decide))
    refine mul_le_mul_right (le_of_eq_of_le ?_ le_add_self) _
    simp [mul_assoc]
  · exact leads_newOfType hf
  · exact leads_newOfType hf
  · exact (Leads.enclose (k := .objectCreation) (B := 0) (.report _ _) bot_le rfl).widen
      (Phrase.just_le (by decide))

theorem adds_parenthesized :
    Adds limit readers n n {some .parenOpen} parenthesized fun _ => just .parenExpr :=
  node (bind takeOpening fun _ => bind (adds_exprRequired hf _) fun _ => expectClosing _ _)
    (fun _ => le_of_eq (by simp [mul_assoc])) rfl

/-- An operand is read or something is reported. -/
theorem adds_primary :
    Adds limit readers n n S primary fun found => if found then .expr else .never := by
  have hfound : ∀ {x : Script Unit} {r : Phrase} {T : Set (Option Kind)},
      r.words ≤ Phrase.expr.words → Adds limit readers n n T x (fun _ => r) →
        Adds limit readers n n T (x >>= fun _ => pure true)
          fun found => if found then .expr else .never := by
    intro x r T hr hx
    refine (bind (hx.widen fun _ => hr) fun _ => answer true).widen fun found => ?_
    cases found <;> simp
  have hname : Adds limit readers n n {o | o = some .id ∨ o = some .predefinedType}
      (Script.node .nameRef Script.take) fun _ => just .nameRef :=
    node (take fun o ho => by simpa using ho) (fun _ => le_rfl) rfl
  refine lookBind fun o => ?_
  split
  · exact hfound (Phrase.just_le (by decide)) (hname.knowing fun _ ho => .inl ho)
  · exact hfound (Phrase.just_le (by decide)) (hname.knowing fun _ ho => .inr ho)
  · exact hfound (Phrase.just_le (by decide)) (node takeJust (fun _ => le_rfl) rfl)
  · exact hfound (Phrase.just_le (by decide)) (adds_parenthesized hf)
  · exact hfound le_rfl (adds_newExpr hf)
  · next kind _ _ _ _ _ =>
      refine orElse (fun hkind => ?_) fun _ => reportBind
      refine hfound (Phrase.just_le (by decide))
        (node (takeOf KindSet.literals) (fun _ => le_rfl) rfl |>.knowing ?_)
      rintro o rfl
      exact hkind
  · exact reportBind

omit hf in
/-- What stands behind an expression makes another expression of both. -/
theorem leads_encloseExpr {x : Script Unit} {k : Kind} {r : Phrase} {T : Set (Option Kind)}
    (hx : Adds limit readers n n T x fun _ => r)
    (hr : (.expr * r : Phrase).words ≤ k.rule.words) (hk : k ∈ Kind.expressions) :
    Leads limit readers (Place.Spells Phrase.expr.words n T) (Script.enclose k x)
      fun _ => Place.Spells Phrase.expr.words n .univ := by
  have htrivia : ∀ k ∈ Kind.expressions, k.isTrivia = false := by decide
  exact (Leads.enclose (hx _) hr (htrivia k hk)).widen (Phrase.just_le hk)

theorem leads_postfixForm :
    Leads limit readers (Place.Spells Phrase.expr.words n .univ) postfixForm
      fun _ => Place.Spells Phrase.expr.words n .univ := by
  have hmark : Adds limit readers n n {o | o = some .plusPlus ∨ o = some .minusMinus} Script.take
      fun _ => .one [.plusPlus, .minusMinus] := take fun o ho => by simpa using ho
  refine Leads.lookBind fun o => ?_
  split
  · exact (leads_encloseExpr (bind takeJust fun _ => bind (name "member name") fun _ => done ())
      (le_of_eq (by simp [mul_assoc])) (by decide)).bind fun _ => .done le_rfl
  · exact (leads_encloseExpr (adds_argumentList hf) le_rfl (by decide)).bind fun _ => .done le_rfl
  · exact (leads_encloseExpr (adds_bracketed hf _) le_rfl (by decide)).bind fun _ => .done le_rfl
  · exact (leads_encloseExpr (hmark.knowing fun _ ho => .inl ho) le_rfl (by decide)).bind fun _ =>
      .done le_rfl
  · exact (leads_encloseExpr (hmark.knowing fun _ ho => .inr ho) le_rfl (by decide)).bind fun _ =>
      .done le_rfl
  · exact .done le_rfl

theorem adds_operand : Adds limit readers n n S operand fun _ => .expr := by
  refine frame ((adds_primary hf _).cond ?_ (.done ?_))
  · refine (Leads.repeatWhile (leads_postfixForm hf)).pre fun p hp => hp.forget.mono ?_ subset_rfl
    exact le_of_eq (one_mul _)
  · simp

omit hf in
theorem isAtCast_asks {A : Language Kind} :
    Leads limit readers (Place.Spells A n S) isAtCast
      fun cast => Place.Spells A n {o | cast = true → o = some .parenOpen} := by
  refine .ifAt (Leads.upcoming.bind fun _ => .pure fun p hp => hp.mono le_rfl fun _ ho _ => ho)
    (.pure fun p hp => hp.mono le_rfl nofun)

theorem adds_unaryScript : Adds limit readers n n S unaryScript fun _ => .expr := by
  have hprefix : Adds limit readers n n {o | o.any KindSet.prefixOps.contains}
      (Script.node .prefixExpr do
        Script.take
        if ← Script.isAtOneOf KindSet.exprFirst then
          Script.call .unary
        else
          Script.reportExpected .expectedExpression "operand") fun _ => just .prefixExpr :=
    node (bind (takeOf _) fun _ => ifAtOneOf (hf.adds .unary _ _) (report _ _))
      (fun _ => le_of_eq (by simp [Production.rule])) rfl
  have hcast : Adds limit readers n n {some .parenOpen}
      (Script.node .castExpr do
        Script.take
        let _ ← readType
        Script.expect .parenClose "`)`"
        Script.call .unary) fun _ => just .castExpr :=
    node (bind takeJust fun _ => hf.readType fun _ => bind (expect _ _) fun _ =>
      hf.adds .unary _ _) (fun _ => le_of_eq (by simp [Production.rule, mul_assoc])) rfl
  refine (ifAtOneOf (deeper hprefix) (cond (fun _ => isAtCast_asks)
    (hcast.knowing fun _ ho => ho rfl) (adds_operand hf))).widen fun _ => ?_
  exact add_le (Phrase.just_le (by decide)) (add_le (Phrase.just_le (by decide)) le_rfl)

/-! ### Binary operations -/

theorem leads_binaryOperation (power : Nat) :
    Leads limit readers (Place.Spells Phrase.expr.words n .univ) (binaryOperation power)
      fun _ => Place.Spells Phrase.expr.words n .univ := by
  refine Leads.lookBind fun o => ?_
  split
  · exact .done le_rfl
  · next op =>
      split
      · exact .done le_rfl
      · next p hp =>
          have hop : op ∈ Syntax.binaryOps := by
            cases op <;> first | decide | cases hp
          have htake : Adds limit readers n n {some op} Script.take
              fun _ => .one Syntax.binaryOps :=
            take fun o ho => ⟨op, hop, ho⟩
          refine .ite (fun _ => .done le_rfl) fun _ => ?_
          exact (leads_encloseExpr (bind htake fun _ =>
            ifAtOneOf (hf.adds (.binary _) _ _) (report _ _))
            (le_of_eq (by simp [Production.rule, mul_assoc])) (by decide)).bind fun _ =>
            .done le_rfl

theorem adds_binaryScript (power : Nat) :
    Adds limit readers n n S (binaryScript power) fun _ => .expr := by
  refine frame ((hf.adds .unary n S _).bind fun _ => ?_)
  refine (Leads.repeatWhile (leads_binaryOperation hf power)).pre fun p hp => ?_
  exact hp.mono (le_of_eq (one_mul _)) subset_rfl

theorem adds_conditional : Adds limit readers n n S conditional fun _ => .expr := by
  refine frame ((hf.adds (.binary 1) n S _).bind fun _ => ?_)
  rw [one_mul]
  refine .ifAt ?_ (.done le_rfl)
  exact leads_encloseExpr (bind takeJust fun _ => bind (adds_exprRequired hf _) fun _ =>
    bind (expect _ _) fun _ => adds_exprRequired hf _)
    (le_of_eq (by simp [mul_assoc])) (by decide)

/-! ### Lambdas and assignments -/

omit hf in
theorem adds_lambdaParam :
    Adds limit readers n n {some .id} lambdaParam fun _ => just .lambdaParam :=
  node takeJust (fun _ => le_rfl) rfl

omit hf in
theorem adds_lambdaParams :
    Adds limit readers n n {o | o = some .id ∨ o = some .parenOpen} lambdaParams
      fun _ => just .lambdaParamList := by
  have hitem : Adds limit readers n n .univ lambdaParamItem _ :=
    ifAt (bind adds_lambdaParam fun _ => eat .comma) (answer false)
  have hlist : Adds limit readers n n {some .parenOpen}
      (do
        Script.take
        Script.repeatWhile lambdaParamItem
        Script.expect .parenClose "`)`") _ :=
    bind takeJust fun _ => bind (repeatWhile hitem) fun _ => expect .parenClose "`)`"
  refine node (ifAt adds_lambdaParam (hlist.knowing ?_)) (fun _ => le_of_eq ?_) rfl
  · rintro o ⟨ho, hid⟩
    exact ho.resolve_left hid
  · simp [mul_assoc]

theorem adds_lambda :
    Adds limit readers n n {o | o = some .id ∨ o = some .parenOpen} lambda fun _ => just .lambda :=
  node (bind adds_lambdaParams fun _ => bind (expect _ _) fun _ =>
    ifAt (adds_block hf) (adds_exprRequired hf _))
    (fun _ => le_of_eq (by simp [mul_assoc])) rfl

omit hf in
theorem isAtLambda_asks {A : Language Kind} :
    Leads limit readers (Place.Spells A n S) isAtLambda
      fun found => Place.Spells A n {o | found = true → o = some .id ∨ o = some .parenOpen} := by
  refine .lookBind fun o => ?_
  split
  · exact Leads.upcoming.bind fun _ => .pure fun p hp => hp.mono le_rfl fun _ ho _ => .inl ho
  · exact Leads.upcoming.bind fun _ => .pure fun p hp => hp.mono le_rfl fun _ ho _ => .inr ho
  · exact .pure fun p hp => hp.mono le_rfl nofun

theorem adds_exprScript : Adds limit readers n n S exprScript fun _ => .expr := by
  have hassign : Adds limit readers n n .univ
      (Script.frame do
        conditional
        if ← Script.isAtOneOf KindSet.assignOps then
          Script.enclose .assignExpr do
            Script.take
            exprRequired "value") fun _ => .expr := by
    refine frame ((adds_conditional hf _).bind fun _ => ?_)
    rw [one_mul]
    refine (Leads.isAtOneOf _).cond ?_ (.done le_rfl)
    refine (leads_encloseExpr (bind (takeOf KindSet.assignOps) fun _ => adds_exprRequired hf _)
      (le_of_eq (by simp [mul_assoc])) (by decide)).pre fun p hp => ?_
    exact hp.mono le_rfl fun _ ho => ho.2
  refine deeper ((cond (fun _ => isAtLambda_asks) ((adds_lambda hf).knowing fun _ ho => ho rfl)
    (hassign.knowing (Set.subset_univ _))).widen fun _ => ?_)
  exact add_le (Phrase.just_le (by decide)) le_rfl

/-! ### Statements -/

theorem adds_varDeclarator :
    Adds limit readers n n S varDeclarator fun _ => just .varDeclarator := by
  have hnode : Adds limit readers n n .univ
      (Script.node .varDeclarator do
        let _ ← Script.expectName "variable name"
        if ← Script.eat .equals then
          exprRequired "initializer") fun _ => just .varDeclarator :=
    node (bind (name _) fun _ => ifEat (adds_exprRequired hf _) (done _))
      (fun _ => le_of_eq (by simp)) rfl
  exact (bind skipTrivia fun _ => hnode).widen fun _ => le_of_eq (by simp)

theorem adds_varOrType : Adds limit readers n n S varOrType fun _ => just .kwVar + .type :=
  (ifEat (done ()) (hf.readType fun _ => done ())).widen fun _ => le_of_eq (by simp)

omit hf in
/-- Further items with a comma before each. -/
theorem adds_further {x : Script Unit} {r : Phrase}
    (hx : Adds limit readers n n .univ x fun _ => r) :
    Adds limit readers n n S (Script.whileTrue (Script.eat .comma) x)
      fun _ => .any (just .comma * r) :=
  (repeatWhile (ifEat (bind hx fun _ => answer true) (answer false))).widen fun _ =>
    le_of_eq (by simp)

theorem adds_localDeclaration :
    Adds limit readers n n S localDeclaration fun _ => just .localDecl :=
  node (bind (adds_varOrType hf) fun _ => bind (adds_varDeclarator hf) fun _ =>
    bind (adds_further (adds_varDeclarator hf)) fun _ => bind semicolon fun _ => done _)
    (fun _ => le_of_eq (by simp [mul_assoc])) rfl

theorem adds_exprIfAny : Adds limit readers n n S exprIfAny fun _ => maybe .expr :=
  ifAtOneOf (hf.adds .expr _ _) (done _)

theorem adds_returnStatement :
    Adds limit readers n n {some .kwReturn} returnStatement fun _ => just .returnStmt :=
  node (bind takeJust fun _ => bind (adds_exprIfAny hf) fun _ => bind semicolon fun _ => done _)
    (fun _ => le_of_eq (by simp [mul_assoc])) rfl

theorem adds_parenthesizedCondition :
    Adds limit readers n n S parenthesizedCondition fun _ => .within .round .expr :=
  (ifAt (bind takeOpening fun _ => bind (adds_exprRequired hf _) fun _ => expectClosing _ _)
    (report _ _)).widen fun _ => le_of_eq (by simp [mul_assoc])

theorem adds_embeddedStatement : Adds limit readers n n S embeddedStatement fun _ => .stmt :=
  (cond (fun _ => isBefore_asks) (hf.adds .stmt _ _) (report _ _)).widen fun _ =>
    le_of_eq (by simp [Production.rule])

theorem adds_ifStatement :
    Adds limit readers n n {some .kwIf} ifStatement fun _ => just .ifStmt :=
  node (bind takeJust fun _ => bind (adds_parenthesizedCondition hf) fun _ =>
    bind (adds_embeddedStatement hf) fun _ => ifEat (adds_embeddedStatement hf) (done _))
    (fun _ => le_of_eq (by simp [mul_assoc])) rfl

theorem adds_foreachStatement :
    Adds limit readers n n {some .kwForeach} foreachStatement fun _ => just .foreachStmt :=
  node (bind takeJust fun _ => ifAt (bind takeOpening fun _ => bind (adds_varOrType hf) fun _ =>
      bind (name _) fun _ => bind (expect _ _) fun _ => bind (adds_exprRequired hf _) fun _ =>
        bind (expectClosing _ _) fun _ => adds_embeddedStatement hf)
      (report _ _))
    (fun _ => le_of_eq (by simp [mul_assoc])) rfl

/-- Without a semicolon something is reported, so nothing has to be skipped. -/
theorem adds_expressionStatement :
    Adds limit readers n n S expressionStatement fun _ => just .exprStmt :=
  node (bind (hf.adds .expr _ _) fun _ => onlyIf expectSemicolon (done ()))
    (fun _ => by simpa [Production.rule] using mul_le_mul_left le_self_add _) rfl

theorem adds_plainStatement (first : Option Kind) :
    Adds limit readers n n S (plainStatement first) fun _ => .stmt := by
  have hasks : ∀ A, Leads limit readers (Place.Spells A n S) isAtLocalDeclaration
      fun _ => Place.Spells A n .univ := fun A =>
    Leads.look.bind fun _ => Leads.upcoming.bind fun _ => .pure fun _ hp => hp.forget
  have hother : Adds limit readers n n .univ
      (if first.any KindSet.exprFirst.contains then expressionStatement
        else Script.reportAndTake .expectedStatement) fun _ => .stmt :=
    orElse (fun _ => (adds_expressionStatement hf).widen fun _ => Phrase.just_le (by decide))
      fun _ => (reportAndTake _).widen fun _ => bot_le
  exact (cond hasks (adds_localDeclaration hf) hother).widen fun _ =>
    add_le (Phrase.just_le (by decide)) le_rfl

theorem adds_stmtScript : Adds limit readers n n S stmtScript fun _ => .stmt := by
  have hstmt : ∀ {x : Script Unit} {k : Kind} {T : Set (Option Kind)}, k ∈ Kind.statements →
      Adds limit readers n n T x (fun _ => just k) → Adds limit readers n n T x fun _ => .stmt :=
    fun hk hx => hx.widen fun _ => Phrase.just_le hk
  refine deeper (lookBind fun o => ?_)
  split
  · exact hstmt (by decide) (adds_block hf)
  · exact hstmt (by decide) (adds_returnStatement hf)
  · exact hstmt (by decide) (adds_ifStatement hf)
  · exact hstmt (by decide) (adds_foreachStatement hf)
  · refine hstmt (by decide) (node takeJust (fun _ => ?_) rfl)
    simp [add_mul]
  · exact adds_plainStatement hf _

end Grammar

end Nominal
