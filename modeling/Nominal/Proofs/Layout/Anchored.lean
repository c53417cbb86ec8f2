import Nominal.Proofs.Anchors
import Nominal.Proofs.Balanced
import Nominal.Proofs.Defined

/-!
# Expressions Have Tokens of Their Own

The productions are followed as they were for the shapes of trees, and each of them gives the
expressions that it collects a token of their own.

## Theorems

* `anchors_watchProduction`: Every production anchors the expressions that it collects.
* `anchored_parseLexemes`: So the tree of some lexemes is anchored.
-/

namespace Nominal

namespace Grammar

open Syntax (Kind KindSet Lexeme Tree)

/-- The productions that are referred to anchor the expressions that they collect. -/
def Anchoring (setting : Setting) (watched : Productions) : Prop :=
  ∀ (p : Production) (own : Bool), Anchors setting watched (Script.call p) own fun _ => own

section Productions

open Anchors

variable {setting : Setting} {watched : Productions} {own : Bool}

variable (hf : Anchoring setting watched)

include hf

/-! ### Types -/

theorem anchors_typeItem : Anchors setting watched typeItem own fun _ => own := by
  refine bind (hf .type _) fun type => ?_
  cases type with
  | none => exact pure _
  | some kind => exact eat .comma

theorem anchors_typeArguments : Anchors setting watched typeArguments own fun _ => own :=
  plain (bind more fun _ => bind (repeatWhile (anchors_typeItem hf)) fun _ => expect .gt _) rfl

omit hf in
theorem anchors_segments :
    Anchors setting watched (Script.whileTrue isAtSegment segment) own fun _ => own :=
  whileTrue (bind (isAt .dot) fun _ => ite (nextIs .id) (pure _))
    (bind more fun _ => expect .id _)

theorem anchors_namedType : Anchors setting watched namedType own fun _ => own :=
  plain (bind more fun _ => bind anchors_segments fun _ =>
    bind (isAt .lt) fun _ => ite (anchors_typeArguments hf) (pure _)) rfl

omit hf in
theorem anchors_typeMark (kind : Kind) :
    Anchors setting watched (typeMark kind) false fun _ => false := by
  refine bind (perform .look) fun next => ?_
  split
  · refine bind (nextIs .bracketClose) fun _ => ite (bind ?_ fun _ => pure _) (pure _)
    exact wrap (bind more fun _ => expect .bracketClose _) rfl
  · exact ite (pure _) (bind (wrap more rfl) fun _ => pure _)
  · exact pure _

theorem anchors_typeScript : Anchors setting watched typeScript own fun _ => own := by
  refine bind (perform .skipTrivia) fun _ => frame (bind (perform .look) fun next => ?_)
  have hmarks : ∀ kind, Anchors setting watched (typeMarks kind) false fun _ => false :=
    fun kind => loop anchors_typeMark fun _ => pure _
  split
  · exact bind (plain more rfl) fun _ => hmarks .predefType
  · exact bind (anchors_namedType hf) fun _ => hmarks .namedType
  · exact bind (perform (.report _ _)) fun _ => pure _

/-! ### Expressions -/

theorem anchors_exprRequired (what : String) :
    Anchors setting watched (exprRequired what) own fun _ => own :=
  bind (isAtOneOf _) fun _ => ite (hf .expr _) (perform (.report _ _))

theorem anchors_block : Anchors setting watched block own fun _ => own :=
  plain (bind (perform (.require _)) fun _ => bind takeOpening fun _ =>
    bind (whileTrue (isBefore _) (hf .stmt _)) fun _ => expectClosing _ _) rfl

omit hf in
theorem anchors_commaList {item : Script Unit} (close : Kind) (unclosed : Diagnostic.Kind)
    (hitem : Anchors setting watched item true fun _ => true) :
    Anchors setting watched (commaList close unclosed item) own fun _ => true := by
  refine bind takeOpening fun _ => bind (repeatWhile ?_) fun _ => expectClosing _ _
  refine bind (isBefore close) fun _ => ite (bind (isAtOneOf _) fun _ => ite ?_ ?_) (pure _)
  · exact bind hitem fun _ => eat .comma
  · exact bind (isAtOneOf _) fun _ => ite (pure _) (bind (reportAndTake _) fun _ => pure _)

/-- What stands between the parentheses of a call belongs to the call. -/
theorem anchors_argumentList : Anchors setting watched argumentList own fun _ => true :=
  carry (anchors_commaList _ _ (hf .expr _)) rfl

theorem anchors_anonymousMember : Anchors setting watched anonymousMember own fun _ => own := by
  refine plain (bind (isAtPair _ _) fun _ => ite ?_ (hf .expr false)) rfl
  exact bind more fun _ => bind (expect _ _) fun _ => anchors_exprRequired hf _

theorem anchors_initializerElement :
    Anchors setting watched initializerElement own fun _ => own := by
  have hmember : Anchors setting watched
      (do Script.take
          Script.expect .equals "`=`"
          exprRequired "member value" : Script Unit) false fun _ => false :=
    bind more fun _ => bind (expect _ _) fun _ => anchors_exprRequired hf _
  exact bind (isAtPair _ _) fun _ => ite (plain hmember rfl) (hf .expr own)

theorem anchors_objectInitializer : Anchors setting watched objectInitializer own fun _ => own :=
  plain (anchors_commaList _ _ (anchors_initializerElement hf)) rfl

theorem anchors_arrayInitializer : Anchors setting watched arrayInitializer own fun _ => own :=
  plain (anchors_commaList _ _ (hf .expr _)) rfl

theorem anchors_arrayInitializerRequired :
    Anchors setting watched arrayInitializerRequired own fun _ => own :=
  bind (isAt _) fun _ => ite (anchors_arrayInitializer hf) (perform (.report _ _))

theorem anchors_bracketed (what : String) :
    Anchors setting watched (bracketed what) own fun _ => true :=
  bind takeOpening fun _ => bind (anchors_exprRequired hf what) fun _ => expectClosing _ _

theorem anchors_argumentsIfAny : Anchors setting watched argumentsIfAny true fun _ => true :=
  bind (isAt _) fun _ => ite (bind (anchors_argumentList hf) fun _ => pure _) (pure _)

theorem anchors_initializerOf (type : Option Kind) (hasArguments : Bool) :
    Anchors setting watched (initializerOf type hasArguments) own fun _ => own :=
  bind (isAt _) fun _ => ite (anchors_objectInitializer hf)
    (ite (perform (.report _ _)) (pure _))

/-- What is created has the keyword that stands before its type. -/
theorem anchors_newOfType : Anchors setting watched newOfType true fun _ => false := by
  refine bind (hf .type _) fun type => bind (isAt _) fun _ => ite ?_ (ite ?_ ?_)
  · exact enclose (bind (anchors_bracketed hf _) fun _ => bind (isAt _) fun _ =>
      ite (anchors_arrayInitializer hf) (pure _)) (fun _ _ => rfl) nofun
  · exact enclose (anchors_arrayInitializerRequired hf) (fun _ _ => rfl) nofun
  · exact enclose (bind (anchors_argumentsIfAny hf) fun _ => anchors_initializerOf hf _ _)
      (fun _ _ => rfl) nofun

theorem anchors_newExpr : Anchors setting watched newExpr own fun _ => own := by
  refine frame (bind (perform (.require _)) fun _ => bind take fun _ =>
    bind (perform .look) fun next => ?_)
  split
  · exact enclose (anchors_commaList _ _ (anchors_anonymousMember hf)) (fun _ _ => rfl) nofun
  · exact enclose (bind more fun _ => bind (expect _ _) fun _ =>
      anchors_arrayInitializerRequired hf) (fun _ _ => rfl) nofun
  · exact anchors_newOfType hf
  · exact anchors_newOfType hf
  · exact enclose (perform (.report _ _)) (fun _ _ => rfl) nofun

theorem anchors_parenthesized : Anchors setting watched parenthesized own fun _ => own :=
  node (bind takeOpening fun _ => bind (anchors_exprRequired hf _) fun _ => expectClosing _ _)
    (fun _ _ => rfl) nofun nofun

theorem anchors_primary : Anchors setting watched primary own fun _ => own := by
  refine bind (perform .look) fun next => ?_
  split
  · exact bind (single .nameRef nofun) fun _ => pure _
  · exact bind (single .nameRef nofun) fun _ => pure _
  · exact bind (single .thisExpr nofun) fun _ => pure _
  · exact bind (anchors_parenthesized hf) fun _ => pure _
  · exact bind (anchors_newExpr hf) fun _ => pure _
  · exact ite (bind (single .literal nofun) fun _ => pure _) (bind (perform (.report _ _)) fun _ => pure _)
  · exact bind (perform (.report _ _)) fun _ => pure _

theorem anchors_postfixForm : Anchors setting watched postfixForm false fun _ => false := by
  refine bind (perform .look) fun next => ?_
  split
  · exact bind (enclose (bind take fun _ => bind (expectName _) fun _ => pure _)
      (fun _ _ => rfl) nofun) fun _ => pure _
  · exact bind (enclose (anchors_argumentList hf) (fun _ _ => rfl) nofun) fun _ => pure _
  · exact bind (enclose (anchors_bracketed hf _) (fun _ _ => rfl) nofun) fun _ => pure _
  · exact bind (enclose take (fun _ _ => rfl) nofun) fun _ => pure _
  · exact bind (enclose take (fun _ _ => rfl) nofun) fun _ => pure _
  · exact pure _

theorem anchors_operand : Anchors setting watched operand own fun _ => own :=
  frame (bind (anchors_primary hf) fun _ => ite (repeatWhile (anchors_postfixForm hf)) (pure _))

theorem anchors_unaryScript : Anchors setting watched unaryScript own fun _ => own := by
  refine bind (isAtOneOf _) fun _ => ite (deeper ?_) (bind ?_ fun _ => ite ?_ (anchors_operand hf))
  · exact node (bind take fun _ => bind (isAtOneOf _) fun _ =>
      ite (hf .unary _) (perform (.report _ _))) (fun _ _ => rfl) nofun nofun
  · exact bind (isAt _) fun _ => ite (bind (perform .upcoming) fun _ => pure _) (pure _)
  · exact node (bind take fun _ => bind (hf .type _) fun _ => bind (expect _ _) fun _ =>
      hf .unary _) (fun _ _ => rfl) nofun nofun

theorem anchors_binaryOperation (power : Nat) :
    Anchors setting watched (binaryOperation power) false fun _ => false := by
  refine bind (perform .look) fun next => ?_
  cases next with
  | none => exact pure _
  | some op =>
      dsimp only
      cases bindingPower? op with
      | none => exact pure _
      | some p =>
          refine ite (pure _) (bind (enclose ?_ (fun _ _ => rfl) nofun) fun _ => pure _)
          exact bind take fun _ => bind (isAtOneOf _) fun _ =>
            ite (hf (.binary _) _) (perform (.report _ _))

theorem anchors_binaryScript (power : Nat) :
    Anchors setting watched (binaryScript power) own fun _ => own :=
  frame (bind (hf .unary false) fun _ => repeatWhile (anchors_binaryOperation hf power))

theorem anchors_conditional : Anchors setting watched conditional own fun _ => own := by
  refine frame (bind (hf (.binary 1) false) fun _ => bind (isAt _) fun _ => ite ?_ (pure _))
  exact enclose (bind take fun _ => bind (anchors_exprRequired hf _) fun _ =>
    bind (expect _ _) fun _ => anchors_exprRequired hf _) (fun _ _ => rfl) nofun

omit hf in
/-- A lambda has the names of its parameters, or the parentheses around them. -/
theorem anchors_lambdaParams : Anchors setting watched lambdaParams own fun _ => true := by
  have hparam : ∀ own, Anchors setting watched lambdaParam own fun _ => true :=
    fun own => carry take rfl
  have hitem : Anchors setting watched lambdaParamItem true fun _ => true :=
    bind (isAt _) fun _ => ite (bind (hparam _) fun _ => eat _) (pure _)
  exact carry (bind (isAt _) fun _ => ite (hparam _) (bind take fun _ =>
    bind (repeatWhile hitem) fun _ => expect _ _)) rfl

theorem anchors_lambda : Anchors setting watched lambda own fun _ => own :=
  node (bind anchors_lambdaParams fun _ => bind (expect _ _) fun _ => bind (isAt _) fun _ =>
    ite (anchors_block hf) (anchors_exprRequired hf _)) (fun _ _ => rfl) nofun nofun

theorem anchors_exprScript : Anchors setting watched exprScript own fun _ => own := by
  refine deeper (bind ?_ fun _ => ite (anchors_lambda hf) (frame ?_))
  · refine bind (perform .look) fun next => ?_
    split
    · exact bind (perform .upcoming) fun _ => pure _
    · exact bind (perform .upcoming) fun _ => pure _
    · exact pure _
  · refine bind (anchors_conditional hf) fun _ => bind (isAtOneOf _) fun _ => ite ?_ (pure _)
    exact enclose (bind take fun _ => anchors_exprRequired hf _) (fun _ _ => rfl) nofun

/-! ### Statements -/

omit hf in
/-- Where a token is not taken, nothing is collected. -/
theorem output_eat {k : Kind} {s t : State}
    (h : (Script.eat k).watch setting watched s = .ok false t) : t.output = s.output := by
  rw [Script.eat, watch_bind] at h
  rcases Outcome.andThen_eq_ok h with ⟨isNext, r, hat, hbranch⟩
  rw [Script.isAt, watch_bind] at hat
  rcases Outcome.andThen_eq_ok hat with ⟨_, q, hlook, hanswer⟩
  cases hanswer
  rw [Script.look, watch_perform] at hlook
  split at hbranch
  · rw [watch_bind] at hbranch
    rcases Outcome.andThen_eq_ok hbranch with ⟨_, _, _, hdone⟩
    cases hdone
  · cases hbranch
    have hrun := run_of_watch hlook
    exact output_run_eq (fun hop => by cases hop) (fun hop => by cases hop) hrun

omit hf in
theorem output_expectName {what : String} {s t : State}
    (h : (Script.expectName what).watch setting watched s = .ok false t) :
    t.output = s.output := by
  rw [Script.expectName, watch_bind] at h
  rcases Outcome.andThen_eq_ok h with ⟨taken, r, heat, hbranch⟩
  cases taken with
  | true => cases hbranch
  | false =>
      rw [if_neg Bool.false_ne_true, watch_bind] at hbranch
      rcases Outcome.andThen_eq_ok hbranch with ⟨_, q, hreport, hdone⟩
      cases hdone
      rw [Script.reportExpected, Script.report, watch_perform] at hreport
      have hrun := run_of_watch hreport
      have hsame := output_run_eq (by exact nofun) (by exact nofun) hrun
      exact hsame.trans (output_eat heat)

/-- A variable has its name or its equals sign, unless there is nothing of it. -/
theorem anchors_varDeclarator : Anchors setting watched varDeclarator own fun _ => own := by
  refine bind (perform .skipTrivia) fun _ s t u hs h => ?_
  rcases Outcome.andThen_eq_ok h with ⟨_, r, hbody, hdone⟩
  cases hdone
  have hstart : ((Grouping.node Kind.varDeclarator).begin s).Anchored false := .empty rfl
  have hr : r.Anchored false ∧ (r.output = [] ∨ Tree.holdsAny r.output = true) := by
    rw [watch_bind] at hbody
    rcases Outcome.andThen_eq_ok hbody with ⟨named, p, hname, hrest⟩
    have hp := expectsName _ _ _ _ hstart hname
    cases named with
    | true =>
        have hmore : Anchors setting watched (do
            if ← Script.eat .equals then
              exprRequired "initializer" : Script Unit) true fun _ => true :=
          bind (eat _) fun _ => ite (anchors_exprRequired hf _) (pure _)
        have hr := hmore p r _ hp hrest
        exact ⟨hr.weaken nofun, .inr (hr.2 rfl)⟩
    | false =>
        rw [watch_bind] at hrest
        rcases Outcome.andThen_eq_ok hrest with ⟨taken, q, heat, hvalue⟩
        have hq := eats _ _ _ _ hp heat
        cases taken with
        | true =>
            have hr := anchors_exprRequired hf _ q r _ hq hvalue
            exact ⟨hr.weaken nofun, .inr (hr.2 rfl)⟩
        | false =>
            cases hvalue
            exact ⟨hq, .inl ((output_eat heat).trans (output_expectName hname))⟩
  have hnode : (Syntax.Tree.node .varDeclarator r.output).Anchored :=
    .node (absurd · (by decide)) nofun (fun _ => hr.2) hr.1.1
  exact (hs.add hnode rfl).weaken Bool.or_inl

theorem anchors_varOrType : Anchors setting watched varOrType own fun _ => own :=
  bind (eat _) fun _ => ite (pure _) (bind (hf .type _) fun _ => pure _)

theorem anchors_localDeclaration : Anchors setting watched localDeclaration own fun _ => own :=
  plain (bind (anchors_varOrType hf) fun _ => bind (anchors_varDeclarator hf) fun _ =>
    bind (whileTrue (eat _) (anchors_varDeclarator hf)) fun _ =>
    bind expectSemicolon fun _ => pure _) rfl

theorem anchors_exprIfAny : Anchors setting watched exprIfAny own fun _ => own :=
  bind (isAtOneOf _) fun _ => ite (hf .expr _) (pure _)

theorem anchors_returnStatement : Anchors setting watched returnStatement own fun _ => own :=
  plain (bind more fun _ => bind (anchors_exprIfAny hf) fun _ =>
    bind expectSemicolon fun _ => pure _) rfl

theorem anchors_parenthesizedCondition :
    Anchors setting watched parenthesizedCondition true fun _ => true :=
  bind (isAt _) fun _ => ite (bind takeOpening fun _ => bind (anchors_exprRequired hf _) fun _ =>
    expectClosing _ _) (perform (.report _ _))

theorem anchors_embeddedStatement : Anchors setting watched embeddedStatement own fun _ => own :=
  bind (isBefore _) fun _ => ite (hf .stmt _) (perform (.report _ _))

theorem anchors_ifStatement : Anchors setting watched ifStatement own fun _ => own :=
  plain (bind take fun _ => bind (anchors_parenthesizedCondition hf) fun _ =>
    bind (anchors_embeddedStatement hf) fun _ => bind (eat _) fun _ =>
    ite (anchors_embeddedStatement hf) (pure _)) rfl

theorem anchors_foreachStatement : Anchors setting watched foreachStatement own fun _ => own := by
  have hrest : Anchors setting watched
      (do Script.takeOpening
          varOrType
          let _ ← Script.expectName "loop variable"
          Script.expect .kwIn "`in`"
          exprRequired "collection"
          Script.expectClosing .parenClose .unclosedParen
          embeddedStatement : Script Unit) true fun _ => true :=
    bind takeOpening fun _ => bind (anchors_varOrType hf) fun _ => bind (expectName _) fun _ =>
      bind (expect _ _) fun _ => bind (anchors_exprRequired hf _) fun _ =>
      bind (expectClosing _ _) fun _ => anchors_embeddedStatement hf
  exact plain (bind take fun _ => bind (isAt _) fun _ => ite hrest (perform (.report _ _))) rfl

theorem anchors_expressionStatement :
    Anchors setting watched expressionStatement own fun _ => own := by
  refine plain (bind (hf .expr false) fun _ => bind expectSemicolon fun _ => ite (pure _)
    (bind (isAtOneOf _) fun _ => ite (pure _) (bind (recover _ _) fun _ => ?_))) rfl
  exact bind (eat _) fun _ => pure _

theorem anchors_plainStatement (first : Option Kind) :
    Anchors setting watched (plainStatement first) own fun _ => own :=
  bind (bind (perform .look) fun _ => bind (perform .upcoming) fun _ => pure _) fun _ =>
    ite (anchors_localDeclaration hf) (ite (anchors_expressionStatement hf) (reportAndTake _))

theorem anchors_stmtScript : Anchors setting watched stmtScript own fun _ => own := by
  refine deeper (bind (perform .look) fun first => ?_)
  split
  · exact anchors_block hf
  · exact anchors_returnStatement hf
  · exact anchors_ifStatement hf
  · exact anchors_foreachStatement hf
  · exact plain more rfl
  · exact anchors_plainStatement hf _

/-! ### Declarations -/

omit hf in
theorem anchors_dottedPath (what : String) :
    Anchors setting watched (dottedPath what) own fun _ => own :=
  bind (isAt _) fun _ => ite (plain (bind more fun _ => anchors_segments) rfl)
    (perform (.report _ _))

omit hf in
theorem anchors_usingDirective : Anchors setting watched usingDirective own fun _ => own :=
  plain (bind (perform (.require _)) fun _ => bind more fun _ =>
    bind (anchors_dottedPath _) fun _ => bind expectSemicolon fun _ => pure _) rfl

theorem anchors_namespaceDeclaration :
    Anchors setting watched namespaceDeclaration own fun _ => own := by
  refine plain (bind (perform (.require _)) fun _ => bind take fun _ =>
    bind (anchors_dottedPath _) fun _ => bind (eat _) fun _ => ite (hf (.items false) _)
    (bind (isAt _) fun _ => ite ?_ (perform (.report _ _)))) rfl
  exact bind takeOpening fun _ => bind (hf (.items true) _) fun _ => expectClosing _ _

omit hf in
theorem anchors_modifiers : Anchors setting watched modifiers own fun _ => own := by
  have hat : Anchors setting watched isAtModifier own fun _ => own :=
    bind (perform .look) fun _ => pure _
  exact bind hat fun _ => ite (bind more fun _ => bind (whileTrue hat more) fun _ => pure _)
    (pure _)

theorem anchors_baseListIfAny : Anchors setting watched baseListIfAny own fun _ => own :=
  bind (isAt _) fun _ =>
    ite (plain (bind more fun _ => repeatWhile (anchors_typeItem hf)) rfl) (pure _)

theorem anchors_typeBody : Anchors setting watched typeBody own fun _ => own := by
  refine bind (isAt _) fun _ => ite ?_ (perform (.report _ _))
  exact bind opening fun _ => bind (whileTrue (isBefore _) (hf .member _)) fun _ =>
    expectClosing _ _

theorem anchors_typeFromKeyword :
    Anchors setting watched typeFromKeyword false fun _ => false := by
  have hkeyword : Anchors setting watched eatTypeKeyword false fun _ => false :=
    bind (eat _) fun _ => ite (pure _) (eat _)
  exact wrap (bind hkeyword fun _ => ite (bind (expectName _) fun _ =>
    bind (anchors_baseListIfAny hf) fun _ => anchors_typeBody hf) (perform (.report _ _))) rfl

theorem anchors_typeDeclaration : Anchors setting watched typeDeclaration own fun _ => own :=
  frame (bind anchors_modifiers fun _ => anchors_typeFromKeyword hf)

theorem anchors_param : Anchors setting watched param own fun _ => own :=
  plain (bind (hf .type _) fun _ => bind (expectName _) fun _ => bind (eat _) fun _ =>
    ite (anchors_exprRequired hf _) (pure _)) rfl

theorem anchors_paramItem : Anchors setting watched paramItem own fun _ => own := by
  refine bind (isBefore _) fun _ => ite (bind (perform .look) fun next => ?_) (pure _)
  split
  · exact bind (anchors_param hf) fun _ => eat _
  · exact bind (anchors_param hf) fun _ => eat _
  · exact bind (isAtOneOf _) fun _ => ite (pure _) (bind (reportAndTake _) fun _ => pure _)

theorem anchors_paramList : Anchors setting watched paramList own fun _ => own := by
  refine plain (bind (isAt _) fun _ => ite ?_ (perform (.report _ _))) rfl
  exact bind opening fun _ => bind (repeatWhile (anchors_paramItem hf)) fun _ =>
    expectClosing _ _

theorem anchors_body (what : String) : Anchors setting watched (body what) own fun _ => own := by
  refine bind (perform .look) fun next => ?_
  split
  · exact anchors_block hf
  · exact bind more fun _ => bind (anchors_exprRequired hf _) fun _ =>
      bind expectSemicolon fun _ => pure _
  · exact bind expectSemicolon fun _ => pure _

theorem anchors_accessor : Anchors setting watched accessor own fun _ => own := by
  have hat : Anchors setting watched isAtAccessor false fun _ => false :=
    bind (perform .word) fun _ => bind (isAt _) fun _ => ite (pure _) (pure _)
  exact frame (bind anchors_modifiers fun _ => bind hat fun _ =>
    ite (wrap (bind more fun _ => anchors_body hf _) rfl) (reportAndTake _))

theorem anchors_accessorList : Anchors setting watched accessorList own fun _ => own :=
  plain (bind takeOpening fun _ =>
    bind (whileTrue (isBefore _) (anchors_accessor hf)) fun _ => expectClosing _ _) rfl

/-- The variable that a field starts with has a name. -/
theorem anchors_memberName : Anchors setting watched memberName own fun _ => own := by
  refine frame (bind (expectsName _) fun named => bind (perform .look) fun next => ?_)
  refine ite (done nofun) (ite (done nofun) (ite (done nofun) ?_))
  cases named with
  | false => exact bind (pure _) fun _ => done nofun
  | true =>
      exact bind (enclose (bind (eat _) fun _ => ite (anchors_exprRequired hf _) (pure _))
        (fun _ _ => rfl) nofun) fun _ => pure _

theorem anchors_memberRest (shape : MemberShape) :
    Anchors setting watched (memberRest shape) false fun _ => false := by
  cases shape with
  | method => exact wrap (bind (anchors_paramList hf) fun _ => anchors_body hf _) rfl
  | property =>
      exact wrap (bind (anchors_accessorList hf) fun _ => bind (eat _) fun _ =>
        ite (bind (anchors_exprRequired hf _) fun _ => bind expectSemicolon fun _ => pure _)
          (pure _)) rfl
  | computedProperty =>
      exact wrap (bind more fun _ => bind (anchors_exprRequired hf _) fun _ =>
        bind expectSemicolon fun _ => pure _) rfl
  | field named =>
      have hmore : Anchors setting watched
          (Script.whenever named (Script.whileTrue (Script.eat .comma) varDeclarator)) false
          fun _ => false := ite (whileTrue (eat _) (anchors_varDeclarator hf)) (pure _)
      exact wrap (bind hmore fun _ => bind expectSemicolon fun _ => pure _) rfl

theorem anchors_typedMember : Anchors setting watched typedMember false fun _ => false :=
  bind (hf .type _) fun _ => bind (anchors_memberName hf) fun shape => anchors_memberRest hf shape

theorem anchors_memberScript : Anchors setting watched memberScript own fun _ => own := by
  refine frame (bind anchors_modifiers fun modified => bind (perform .look) fun next => ?_)
  split
  · exact anchors_typeFromKeyword hf
  · exact anchors_typeFromKeyword hf
  · refine bind (nextIs _) fun _ => ite ?_ (anchors_typedMember hf)
    exact wrap (bind more fun _ => bind (anchors_paramList hf) fun _ => anchors_body hf _) rfl
  · exact wrap (bind more fun _ => bind (expectName _) fun _ =>
      bind (anchors_paramList hf) fun _ => anchors_body hf _) rfl
  · exact anchors_typedMember hf
  · exact ite (perform (.report _ _)) (recover _ _)

theorem anchors_item (braced : Bool) :
    Anchors setting watched (item braced) own fun _ => own := by
  refine bind (perform .atEnd) fun _ => ite (pure _) (bind (perform .look) fun next => ?_)
  split
  · exact bind anchors_usingDirective fun _ => pure _
  · exact bind (anchors_namespaceDeclaration hf) fun _ => pure _
  · exact bind (anchors_typeDeclaration hf) fun _ => pure _
  · exact bind (anchors_typeDeclaration hf) fun _ => pure _
  · refine ite (pure _) (ite ?_ (bind (hf .stmt _) fun _ => pure _))
    exact bind (anchors_typeDeclaration hf) fun _ => pure _
  · exact bind (hf .stmt _) fun _ => pure _

omit hf in
/-- Every production anchors the expressions that it collects. -/
theorem anchors_watchProduction (n : Nat) : Anchoring setting (watchProduction setting n) := by
  induction n with
  | zero =>
      intro p own s t a _ h
      rw [watch_call] at h
      cases h
  | succ n ih =>
      intro p own s t a hs h
      rw [watch_call] at h
      cases p with
      | items braced => exact repeatWhile (anchors_item ih braced) s t a hs h
      | member => exact anchors_memberScript ih s t a hs h
      | stmt => exact anchors_stmtScript ih s t a hs h
      | expr => exact anchors_exprScript ih s t a hs h
      | binary power => exact anchors_binaryScript ih power s t a hs h
      | unary => exact anchors_unaryScript ih s t a hs h
      | type => exact anchors_typeScript ih s t a hs h

omit hf in
/-- In the tree of some lexemes every expression has a token of its own. -/
theorem anchored_parseLexemes {limits : Limits} {lexemes : List Lexeme} {parsed : Parsed}
    (h : parseLexemes limits lexemes = .ok parsed) : parsed.tree.Anchored := by
  rw [parseLexemes_eq_watch] at h
  cases hrun : watchFile limits lexemes with
  | ok u t =>
      rw [hrun, Outcome.result, State.result] at h
      split at h
      · cases h
      · cases h
        have hfile : Anchors ⟨limits.depth, Lexeme.widthOf lexemes⟩ (watchProduction _
            (levels * (lexemes.length + 1))) fileScript false fun _ => false :=
          bind (anchors_watchProduction _ (.items false) false) fun _ => perform .keepTrivia
        have ht := hfile _ t u (.empty rfl) hrun
        exact .node (absurd · (by decide)) (absurd · (by decide)) (absurd · (by decide)) ht.1
  | stuck =>
      rw [hrun] at h
      cases h
  | broken fault =>
      rw [hrun] at h
      cases h

end Productions

end Grammar

end Nominal
