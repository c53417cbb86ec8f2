import Nominal.Proofs.Tight.Rules

/-!
# Productions Make Tight Nodes

All productions are gone through, and each of their groups is seen to start in front of a token
and not to remain empty. Most of them look at the next token before they start a group. An
operation and a member rely on their caller to have done so, and the parameters of a method do
not care.

## Theorems

* `steps_typeScript`, `steps_exprScript`, `steps_stmtScript`, `steps_memberScript`: The productions
  of types, expressions, statements and members.
* `stepping_readProduction`: All productions make tight nodes.
* `tight_of_read`: So what is read as a file is tight.
-/

namespace Nominal

namespace Grammar

open Syntax (Kind KindSet Tree)
open Steps

variable {limit : Option Nat} {readers : Readers} {begun settled filled : Bool}

section Productions

variable (hr : Stepping limit readers)

/-! ### Types -/

include hr

theorem steps_typeItem : Steps limit readers begun settled filled typeItem (fun _ => false)
    fun _ => true := by
  refine (hr.type begun settled filled).bind fun kind => ?_
  cases kind with
  | none => exact done nofun id
  | some kind => exact (eat .comma).loose

theorem steps_typeArguments : Steps limit readers begun true filled typeArguments
    (fun _ => false) fun _ => true :=
  node (take.bind fun _ => (repeatWhile (steps_typeItem hr)).bind fun _ => expect _ _)

omit hr in
theorem steps_isAtSegment : Steps limit readers begun settled filled isAtSegment
    (fun _ => true) fun _ => filled :=
  (isAt .dot).cond (nextIs .id) (done (fun _ => rfl) id)

omit hr in
theorem steps_segments : Steps limit readers begun settled true
    (Script.whileTrue isAtSegment segment) (fun _ => true) fun _ => true :=
  whileTrue steps_isAtSegment (take.bind fun _ => expect _ _)

theorem steps_namedType : Steps limit readers begun true filled namedType (fun _ => false)
    fun _ => true :=
  node (take.bind fun _ => steps_segments.bind fun _ => (isAt .lt).cond (steps_typeArguments hr)
    (done nofun id))

omit hr in
theorem steps_typeMark (kind : Kind) : Steps limit readers true settled true (typeMark kind)
    (fun r => !r.1) fun _ => true := by
  refine look.bind fun next => ?_
  split
  · refine (nextIs .bracketClose).cond ?_ (done (fun _ => rfl) id)
    exact (enclose (take.bind fun _ => expect _ _)).bind fun _ => done nofun id
  · exact ite (done (fun _ => rfl) id) ((enclose take).bind fun _ => done nofun id)
  · exact done (fun _ => rfl) id

/-- A mark is looked for behind each type, so what comes next is known at once. -/
theorem steps_typeScript : Steps limit readers begun settled filled typeScript (fun _ => true)
    fun _ => true := by
  have hmarks : ∀ kind, Steps limit readers true false true (typeMarks kind) (fun _ => true)
      fun _ => true := fun kind => loop steps_typeMark fun _ => done id id
  refine skipTrivia.bind fun _ => frame (look.bind fun next => ?_)
  split
  · exact (node take).bind fun _ => hmarks .predefType
  · exact (steps_namedType hr).bind fun _ => hmarks .namedType
  · exact reportBind

/-! ### Expressions -/

theorem steps_exprRequired (what : String) :
    Steps limit readers begun settled filled (exprRequired what) (fun _ => false) fun _ => true :=
  (isAtOneOf _).cond (hr.expr _ _ _) (report _ _)

theorem steps_block : Steps limit readers begun true filled block (fun _ => false)
    fun _ => true :=
  node ((require _).bind fun _ => takeOpening.bind fun _ =>
    (whileTrue (isBefore _) (hr.stmt _ _ _)).bind fun _ => expectClosing _ _)

omit hr in
theorem steps_commaList {item : Script Unit} (close : Kind) (unclosed : Diagnostic.Kind)
    (hitem : Steps limit readers begun true true item (fun _ => false) fun _ => true) :
    Steps limit readers begun settled filled (commaList close unclosed item) (fun _ => false)
      fun _ => true := by
  have hround : Steps limit readers begun false true (commaItem close item) (fun _ => false)
      fun _ => true := by
    refine (isBefore close).cond ((isAtOneOf _).cond ?_ ?_) (done nofun id)
    · exact hitem.bind fun _ => (eat .comma).loose
    · exact (isAtOneOf _).cond (done nofun id) ((reportAndTake _).bind fun _ => done nofun id)
  exact takeOpening.bind fun _ => (repeatWhile hround).bind fun _ => expectClosing _ _

theorem steps_argumentList : Steps limit readers begun true filled argumentList
    (fun _ => false) fun _ => true :=
  node (steps_commaList _ _ (hr.expr _ _ _))

theorem steps_anonymousMember : Steps limit readers begun true filled anonymousMember
    (fun _ => false) fun _ => true :=
  node ((isAtPair _ _).cond (take.bind fun _ => (expect _ _).bind fun _ => steps_exprRequired hr _)
    (hr.expr _ _ _))

theorem steps_initializerElement : Steps limit readers begun settled filled initializerElement
    (fun _ => false) fun _ => true :=
  (isAtPair _ _).cond (node (take.bind fun _ => (expect _ _).bind fun _ =>
    steps_exprRequired hr _)) (hr.expr _ _ _)

theorem steps_objectInitializer : Steps limit readers begun true filled objectInitializer
    (fun _ => false) fun _ => true :=
  node (steps_commaList _ _ (steps_initializerElement hr))

theorem steps_arrayInitializer : Steps limit readers begun true filled arrayInitializer
    (fun _ => false) fun _ => true :=
  node (steps_commaList _ _ (hr.expr _ _ _))

theorem steps_arrayInitializerRequired : Steps limit readers begun settled filled
    arrayInitializerRequired (fun _ => false) fun _ => true :=
  (isAt _).cond (steps_arrayInitializer hr) (report _ _)

theorem steps_bracketed (what : String) : Steps limit readers begun settled filled
    (bracketed what) (fun _ => false) fun _ => true :=
  takeOpening.bind fun _ => (steps_exprRequired hr what).bind fun _ => expectClosing _ _

theorem steps_argumentsIfAny : Steps limit readers begun settled true argumentsIfAny
    (fun _ => false) fun _ => true :=
  (isAt _).cond ((steps_argumentList hr).bind fun _ => done nofun id) (done nofun id)

theorem steps_initializerOf (type : Option Kind) (hasArguments : Bool) :
    Steps limit readers begun settled true (initializerOf type hasArguments) (fun _ => false)
      fun _ => true :=
  (isAt _).cond (steps_objectInitializer hr) (ite (report _ _) (done nofun id))

theorem steps_newOfType : Steps limit readers true settled filled newOfType (fun _ => false)
    fun _ => true := by
  refine (hr.type _ _ _).bind fun type => (isAt _).cond (enclose ?_) (ite (enclose ?_) (enclose ?_))
  · exact (steps_bracketed hr _).bind fun _ =>
      (isAt _).cond (steps_arrayInitializer hr) (done nofun id)
  · exact steps_arrayInitializerRequired hr
  · exact (steps_argumentsIfAny hr).bind fun _ => steps_initializerOf hr _ _

theorem steps_newExpr : Steps limit readers begun true filled newExpr (fun _ => false)
    fun _ => true := by
  refine frame ((require _).bind fun _ => take.bind fun _ => look.bind fun next => ?_)
  split
  · exact enclose (steps_commaList _ _ (steps_anonymousMember hr))
  · exact enclose (take.bind fun _ => (expect _ _).bind fun _ => steps_arrayInitializerRequired hr)
  · exact steps_newOfType hr
  · exact steps_newOfType hr
  · exact enclose (report _ _)

theorem steps_parenthesized : Steps limit readers begun true filled parenthesized
    (fun _ => false) fun _ => true :=
  node (takeOpening.bind fun _ => (steps_exprRequired hr _).bind fun _ => expectClosing _ _)

theorem steps_primary : Steps limit readers begun settled filled primary (fun _ => false)
    fun _ => true := by
  refine look.bind fun next => ?_
  split
  · exact (node take).bind fun _ => done nofun id
  · exact (node take).bind fun _ => done nofun id
  · exact (node take).bind fun _ => done nofun id
  · exact (steps_parenthesized hr).bind fun _ => done nofun id
  · exact (steps_newExpr hr).bind fun _ => done nofun id
  · exact ite ((node take).bind fun _ => done nofun id) reportBind
  · exact reportBind

theorem steps_postfixForm : Steps limit readers true settled true postfixForm (fun _ => false)
    fun _ => true := by
  refine look.bind fun next => ?_
  split
  · exact (enclose (take.bind fun _ => (expectName _).bind fun _ => done id id)).bind
      fun _ => done id id
  · exact (enclose (steps_argumentList hr)).bind fun _ => done nofun id
  · exact (enclose (steps_bracketed hr _)).bind fun _ => done nofun id
  · exact (enclose take).bind fun _ => done nofun id
  · exact (enclose take).bind fun _ => done nofun id
  · exact done nofun id

theorem steps_operand : Steps limit readers begun true filled operand (fun _ => false)
    fun _ => true :=
  frame ((steps_primary hr).cond (repeatWhile (steps_postfixForm hr)) (done id id))

omit hr in
theorem steps_isAtCast : Steps limit readers begun settled filled isAtCast (fun _ => true)
    fun _ => filled :=
  (isAt _).cond (asks _ upcoming) (done (fun _ => rfl) id)

/-- An operand looks at the next token first, since nothing need be known of it behind a cast. -/
theorem steps_unaryScript : Steps limit readers begun settled filled unaryScript
    (fun _ => false) fun _ => true := by
  refine (isAtOneOf _).cond (deeper (node ?_)) (steps_isAtCast.cond (node ?_) (steps_operand hr))
  · exact take.bind fun _ => (isAtOneOf _).cond (hr.unary _ _ _) (report _ _)
  · exact take.bind fun _ => (hr.type _ _ _).bind fun _ => (expect _ _).bind fun _ => hr.unary _ _ _

theorem steps_binaryOperation (power : Nat) : Steps limit readers true settled true
    (binaryOperation power) (fun _ => false) fun _ => true := by
  refine look.bind fun next => ?_
  cases next with
  | none => exact done nofun id
  | some op =>
      dsimp only
      cases bindingPower? op with
      | none => exact done nofun id
      | some p =>
          refine ite (done nofun id) (bind (s := fun _ => false) (enclose ?_) fun _ => done id id)
          exact take.bind fun _ => (isAtOneOf _).cond (hr.binary _ _ _) (report _ _)

theorem steps_binaryScript (power : Nat) : Steps limit readers begun true filled
    (binaryScript power) (fun _ => false) fun _ => true :=
  frame ((hr.unary _ _ _).bind fun _ => repeatWhile (steps_binaryOperation hr power))

theorem steps_conditional : Steps limit readers begun true filled conditional (fun _ => false)
    fun _ => true := by
  refine frame ((hr.binary _ _ _).bind fun _ => (isAt _).cond (enclose ?_) (done nofun id))
  exact take.bind fun _ => (steps_exprRequired hr _).bind fun _ => (expect _ _).bind fun _ =>
    steps_exprRequired hr _

omit hr in
theorem steps_isAtLambda : Steps limit readers begun settled filled isAtLambda (fun _ => true)
    fun _ => filled := by
  refine look.bind fun next => ?_
  split
  · exact asks _ upcoming
  · exact asks _ upcoming
  · exact done (fun _ => rfl) id

omit hr in
theorem steps_lambdaParams : Steps limit readers begun true filled lambdaParams (fun _ => false)
    fun _ => true := by
  have hitem : Steps limit readers true false true lambdaParamItem (fun _ => false)
      fun _ => true :=
    (isAt _).cond ((node take).bind fun _ => (eat _).loose) (done nofun id)
  exact node ((isAt _).cond (node take) (take.bind fun _ => (repeatWhile hitem).bind fun _ =>
    expect _ _))

theorem steps_lambda : Steps limit readers begun true filled lambda (fun _ => false)
    fun _ => true :=
  node (steps_lambdaParams.bind fun _ => (expect _ _).bind fun _ =>
    (isAt _).cond (steps_block hr) (steps_exprRequired hr _))

theorem steps_exprScript : Steps limit readers begun settled filled exprScript (fun _ => false)
    fun _ => true := by
  refine deeper (steps_isAtLambda.cond (steps_lambda hr) (frame ?_))
  refine (steps_conditional hr).bind fun _ => (isAtOneOf _).cond (enclose ?_) (done nofun id)
  exact take.bind fun _ => steps_exprRequired hr _

/-! ### Statements -/

/-- A variable starts with its name because trivia is set aside first. -/
theorem steps_varDeclarator : Steps limit readers begun settled filled varDeclarator
    (fun _ => false) fun _ => true :=
  skipTrivia.bind fun _ => node ((expectName _).bind fun _ =>
    ifEat (steps_exprRequired hr _) (done nofun id))

theorem steps_varOrType : Steps limit readers begun settled filled varOrType (fun _ => false)
    fun _ => true :=
  ifEat (done nofun id) ((hr.type _ _ _).bind fun _ => done nofun id)

theorem steps_localDeclaration : Steps limit readers begun true filled localDeclaration
    (fun _ => false) fun _ => true :=
  node ((steps_varOrType hr).bind fun _ => (steps_varDeclarator hr).bind fun _ =>
    (whileTrue (eat _) (steps_varDeclarator hr)).bind fun _ => expectSemicolon.bind fun _ =>
      done nofun id)

theorem steps_returnStatement : Steps limit readers begun true filled returnStatement
    (fun _ => false) fun _ => true := by
  have hexpr : Steps limit readers true false true exprIfAny (fun _ => false) fun _ => true :=
    (isAtOneOf _).cond (hr.expr _ _ _) (done nofun id)
  exact node (take.bind fun _ => hexpr.bind fun _ => expectSemicolon.bind fun _ => done nofun id)

theorem steps_parenthesizedCondition : Steps limit readers begun settled filled
    parenthesizedCondition (fun _ => false) fun _ => true :=
  (isAt _).cond (takeOpening.bind fun _ => (steps_exprRequired hr _).bind fun _ =>
    expectClosing _ _) (report _ _)

theorem steps_embeddedStatement : Steps limit readers begun settled filled embeddedStatement
    (fun _ => false) fun _ => true :=
  (isBefore _).cond (hr.stmt _ _ _) (report _ _)

theorem steps_ifStatement : Steps limit readers begun true filled ifStatement (fun _ => false)
    fun _ => true :=
  node (take.bind fun _ => (steps_parenthesizedCondition hr).bind fun _ =>
    (steps_embeddedStatement hr).bind fun _ =>
      ifEat (steps_embeddedStatement hr) (done nofun id))

theorem steps_foreachStatement : Steps limit readers begun true filled foreachStatement
    (fun _ => false) fun _ => true := by
  refine node (take.bind fun _ => (isAt _).cond (takeOpening.bind fun _ => ?_) (report _ _))
  exact (steps_varOrType hr).bind fun _ => (expectName _).bind fun _ => (expect _ _).bind fun _ =>
    (steps_exprRequired hr _).bind fun _ => (expectClosing _ _).bind fun _ =>
      steps_embeddedStatement hr

theorem steps_expressionStatement : Steps limit readers begun true filled expressionStatement
    (fun _ => false) fun _ => true := by
  refine node ((hr.expr _ _ _).bind fun _ => expectSemicolon.cond (done nofun id) ?_)
  refine (isAtOneOf _).cond (done nofun id) ((recover _ _).bind fun _ => ?_)
  exact (eat _).loose.bind fun _ => done nofun id

theorem steps_plainStatement (first : Option Kind) : Steps limit readers begun settled filled
    (plainStatement first) (fun _ => false) fun _ => true := by
  have hlocal : Steps limit readers begun settled filled isAtLocalDeclaration (fun _ => true)
      fun _ => filled := look.bind fun _ => asks _ upcoming
  exact hlocal.cond (steps_localDeclaration hr)
    (ite (steps_expressionStatement hr) (reportAndTake _))

theorem steps_stmtScript : Steps limit readers begun settled filled stmtScript (fun _ => false)
    fun _ => true := by
  refine deeper (look.bind fun next => ?_)
  split
  · exact steps_block hr
  · exact steps_returnStatement hr
  · exact steps_ifStatement hr
  · exact steps_foreachStatement hr
  · exact node take
  · exact steps_plainStatement hr _

/-! ### Declarations -/

omit hr in
theorem steps_dottedPath (what : String) : Steps limit readers begun settled filled
    (dottedPath what) (fun _ => false) fun _ => true :=
  (isAt .id).cond (node (take.bind fun _ => steps_segments.loose)) (report _ _)

omit hr in
theorem steps_usingDirective : Steps limit readers begun true filled usingDirective
    (fun _ => false) fun _ => true :=
  node ((require _).bind fun _ => take.bind fun _ => (steps_dottedPath _).bind fun _ =>
    expectSemicolon.bind fun _ => done nofun id)

/-- A namespace without braces ends behind its last item, although trivia may follow it. -/
theorem steps_namespaceDeclaration : Steps limit readers begun true filled namespaceDeclaration
    (fun _ => false) fun _ => true := by
  refine node ((require _).bind fun _ => take.bind fun _ => (steps_dottedPath _).bind fun _ => ?_)
  refine ifEat (hr.items _ _ _ _) ((isAt _).cond ?_ (report _ _))
  exact takeOpening.bind fun _ => (hr.items _ _ _ _).bind fun _ => expectClosing _ _

omit hr in
theorem steps_modifiers : Steps limit readers begun settled filled modifiers (fun _ => true)
    fun _ => filled := by
  have hat : ∀ {settled filled}, Steps limit readers begun settled filled isAtModifier
      (fun _ => true) fun _ => filled := asks _ look
  have hmore : Steps limit readers begun false true (Script.whileTrue isAtModifier Script.take)
      (fun _ => true) fun _ => true := whileTrue hat take
  exact hat.cond (take.bind fun _ => hmore.bind fun _ => done id fun _ => rfl) (done id id)

theorem steps_baseListIfAny : Steps limit readers begun settled true baseListIfAny
    (fun _ => false) fun _ => true :=
  (isAt _).cond (node (take.bind fun _ => repeatWhile (steps_typeItem hr))) (done nofun id)

theorem steps_typeBody : Steps limit readers begun settled filled typeBody (fun _ => false)
    fun _ => true :=
  (isAt _).cond (takeOpening.bind fun _ => (whileTrue (isBefore _) (hr.member _ _)).bind fun _ =>
    expectClosing _ _) (report _ _)

/-- The modifiers in front of a type are part of it. -/
theorem steps_typeFromKeyword : Steps limit readers true settled filled typeFromKeyword
    (fun _ => false) fun _ => true := by
  have hkeyword : Steps limit readers true settled filled eatTypeKeyword (fun _ => false)
      fun b => b || filled :=
    ifEat (done nofun fun _ => rfl) ((eats _).weaken id id (fun _ => nofun) fun _ => id)
  exact enclose (hkeyword.cond ((expectName _).bind fun _ => (steps_baseListIfAny hr).bind fun _ =>
    steps_typeBody hr) (report _ _))

theorem steps_typeDeclaration : Steps limit readers begun true filled typeDeclaration
    (fun _ => false) fun _ => true :=
  frame (steps_modifiers.bind fun _ => steps_typeFromKeyword hr)

theorem steps_param : Steps limit readers begun true filled param (fun _ => false)
    fun _ => true :=
  node ((hr.type _ _ _).bind fun _ => (expectName _).bind fun _ =>
    ifEat (steps_exprRequired hr _) (done nofun id))

theorem steps_paramItem : Steps limit readers begun settled true paramItem (fun _ => false)
    fun _ => true := by
  refine (isBefore _).cond (look.bind fun next => ?_) (done nofun id)
  split
  · exact (steps_param hr).bind fun _ => (eat _).loose
  · exact (steps_param hr).bind fun _ => (eat _).loose
  · exact (isAtOneOf _).cond (done nofun id) ((reportAndTake _).bind fun _ => done nofun id)

/-- What stands between a name and its parameters is a part of the parameters. -/
theorem steps_paramList : Steps limit readers begun settled true paramList (fun _ => false)
    fun _ => true :=
  params ((isAt _).cond (takeOpening.bind fun _ => (repeatWhile (steps_paramItem hr)).bind fun _ =>
    expectClosing _ _) (report _ _))

theorem steps_body (what : String) : Steps limit readers begun settled filled (body what)
    (fun _ => false) fun _ => true := by
  refine look.bind fun next => ?_
  split
  · exact steps_block hr
  · exact take.bind fun _ => (steps_exprRequired hr what).bind fun _ =>
      expectSemicolon.bind fun _ => done nofun id
  · exact expectSemicolon.bind fun _ => done nofun id

theorem steps_accessor : Steps limit readers begun true filled accessor (fun _ => false)
    fun _ => true := by
  have hat : Steps limit readers true true false isAtAccessor (fun _ => true) fun _ => false :=
    word.bind fun _ => (isAt _).cond (done id id) (done id id)
  exact frame (steps_modifiers.bind fun _ => hat.cond
    (enclose (take.bind fun _ => steps_body hr _)) (reportAndTake _))

theorem steps_accessorList : Steps limit readers begun true filled accessorList (fun _ => false)
    fun _ => true :=
  node (takeOpening.bind fun _ => (whileTrue (isBefore _) (steps_accessor hr)).bind fun _ =>
    expectClosing _ _)

/-- Whether the token behind the name of a member has been looked at. -/
def MemberShape.isSettled : MemberShape → Bool
  | .field _ => false
  | .method | .property | .computedProperty => true

/-- The name of a field becomes a variable of its own. -/
theorem steps_memberName : Steps limit readers begun true filled memberName
    MemberShape.isSettled fun _ => true := by
  have hfield : Steps limit readers true true true fieldDeclarator (fun _ => false)
      fun _ => true := enclose (ifEat (steps_exprRequired hr _) (done nofun id))
  refine frame ((expectName _).bind fun named => look.bind fun next => ?_)
  refine ite (done id id) (ite (done id id) (ite (done id id) ?_))
  exact bind (s := fun _ => false) (ite hfield (done nofun id)) fun _ => done id id

theorem steps_memberRest (shape : MemberShape) : Steps limit readers true shape.isSettled true
    (memberRest shape) (fun _ => false) fun _ => true := by
  cases shape with
  | method => exact enclose ((steps_paramList hr).bind fun _ => steps_body hr _)
  | property =>
      refine enclose ((steps_accessorList hr).bind fun _ => ifEat ?_ (done nofun id))
      exact (steps_exprRequired hr _).bind fun _ => expectSemicolon.bind fun _ => done nofun id
  | computedProperty =>
      exact enclose (take.bind fun _ => (steps_exprRequired hr _).bind fun _ =>
        expectSemicolon.bind fun _ => done nofun id)
  | field named =>
      have hmore : Steps limit readers true false true
          (Script.whenever named (Script.whileTrue (Script.eat .comma) varDeclarator))
          (fun _ => false) fun _ => true :=
        ite (whileTrue (eat _) (steps_varDeclarator hr)).loose (done nofun id)
      exact enclose (hmore.bind fun _ => expectSemicolon.bind fun _ => done nofun id)

theorem steps_typedMember : Steps limit readers true settled filled typedMember (fun _ => false)
    fun _ => true :=
  (hr.type _ _ _).bind fun _ => (steps_memberName hr).bind fun shape => steps_memberRest hr shape

theorem steps_memberScript : Steps limit readers begun true filled memberScript (fun _ => false)
    fun _ => true := by
  refine frame (steps_modifiers.bind fun modified => look.bind fun next => ?_)
  split
  · exact steps_typeFromKeyword hr
  · exact steps_typeFromKeyword hr
  · refine (nextIs _).cond (enclose ?_) (steps_typedMember hr)
    exact take.bind fun _ => (steps_paramList hr).bind fun _ => steps_body hr _
  · exact enclose (take.bind fun _ => (expectName _).bind fun _ =>
      (steps_paramList hr).bind fun _ => steps_body hr _)
  · exact steps_typedMember hr
  · exact ite (report _ _) (recover _ _)

theorem steps_item (braced : Bool) : Steps limit readers begun settled filled (item braced)
    (fun _ => false) fun _ => filled := by
  have htrue : ∀ {x : Script Unit}, Steps limit readers begun true filled x (fun _ => false)
      (fun _ => true) → Steps limit readers begun true filled (x >>= fun _ => pure true)
        (fun _ => false) fun _ => filled := fun hx => hx.bind fun _ => done id fun _ => rfl
  refine atEnd.cond (done nofun id) (look.bind fun next => ?_)
  split
  · exact htrue steps_usingDirective
  · exact htrue (steps_namespaceDeclaration hr)
  · exact htrue (steps_typeDeclaration hr)
  · exact htrue (steps_typeDeclaration hr)
  · exact ite (done nofun id) (ite (htrue (steps_typeDeclaration hr)) (htrue (hr.stmt _ _ _)))
  · exact htrue (hr.stmt _ _ _)

theorem steps_itemsScript (braced : Bool) : Steps limit readers begun settled filled
    (itemsScript braced) (fun _ => false) fun _ => filled := repeatWhile (steps_item hr braced)

end Productions

/-- A reference to a production is read like its script, one level of references below. -/
theorem Steps.call {n : Nat} {q : Production} {s f : q.Answer → Bool}
    (h : Steps limit (readProduction limit n) begun settled filled q.script s f) :
    Steps limit (readProduction limit (n + 1)) begun settled filled (Script.call q) s f := by
  intro p p' a hp hread
  rw [read_call] at hread
  exact h p p' a hp hread

/-- Nothing is read where no more references are followed. -/
theorem Steps.call_zero {q : Production} {s f : q.Answer → Bool} :
    Steps limit (readProduction limit 0) begun settled filled (Script.call q) s f :=
  fun p _ _ _ hread => nomatch (read_call q p).symm.trans hread

/-- All productions make tight nodes. -/
theorem stepping_readProduction (limit : Option Nat) (n : Nat) :
    Stepping limit (readProduction limit n) := by
  induction n with
  | zero =>
      exact ⟨fun _ _ _ _ => call_zero, fun _ _ => call_zero, fun _ _ _ => call_zero,
        fun _ _ _ => call_zero, fun _ _ _ => call_zero, fun _ _ _ => call_zero,
        fun _ _ _ => call_zero⟩
  | succ n hr =>
      exact
        { items := fun braced _ _ _ => Steps.call (steps_itemsScript hr braced)
          member := fun _ _ => Steps.call (steps_memberScript hr)
          stmt := fun _ _ _ => Steps.call (steps_stmtScript hr)
          expr := fun _ _ _ => Steps.call (steps_exprScript hr)
          binary := fun power _ _ => Steps.call (steps_binaryScript hr power)
          unary := fun _ _ _ => Steps.call (steps_unaryScript hr)
          type := fun _ _ _ => Steps.call (steps_typeScript hr) }

/-- What is read as a whole file is tight. -/
theorem tight_of_read {limit : Option Nat} {n : Nat} {p q : Place} {u : Unit}
    (hp : p.Tidy false false false)
    (h : fileScript.read limit (readProduction limit n) p = some (u, q)) :
    ∀ t ∈ q.output, t.IsTight := by
  rcases read_bind_some h with ⟨v, r, hitems, hkeep⟩
  have hr := (stepping_readProduction limit n).items false false false false p r v hp hitems
  rw [read_perform] at hkeep
  cases hkeep
  refine List.forall_mem_append.mpr ⟨hr.tight, fun t ht => ?_⟩
  rcases List.mem_map.mp ht with ⟨l, _, rfl⟩
  exact .token l

end Grammar

end Nominal
