import Nominal.Proofs.Precedence.Grouped

/-!
# Productions Without Operators

Nearly all productions collect grouped trees for a simple reason: they make no nodes of
operators themselves, and what they refer to collects such trees. An operand with what stands
behind it and the operators between operands are left out here.

## Theorems

* `groups_stmtScript`, `groups_memberScript`, `groups_itemsScript`: Statements and declarations.
* `groups_exprScript`: A conditional or an assignment encloses any trees, a lambda as well.
-/

namespace Nominal

namespace Grammar

open Script.Groups
open Syntax (Kind KindSet operandLevel)

variable {level : Nat} {encloses : Bool}

/-! ### Types -/

theorem groups_readType : readType.Groups encloses level := call trivial

theorem groups_typeItem : typeItem.Groups encloses level := by
  refine bind groups_readType fun kind => ?_
  cases kind with
  | none => exact pure _
  | some _ => exact eat _

theorem groups_typeArguments : typeArguments.Groups encloses level :=
  plain rfl (bind take fun _ => bind (repeatWhile groups_typeItem) fun _ => expect _ _)

theorem groups_segments : (Script.whileTrue isAtSegment segment).Groups encloses level :=
  whileTrue (bind (isAt _) fun _ => ite (nextIs _) (pure _)) (bind take fun _ => expect _ _)

theorem groups_namedType : namedType.Groups encloses level :=
  plain rfl (bind take fun _ => bind groups_segments fun _ => bind (isAt _) fun _ =>
    ite groups_typeArguments (pure _))

theorem groups_typeMark (kind : Kind) : (typeMark kind).Groups true level := by
  refine bind look fun next => ?_
  split
  · exact bind (nextIs _) fun _ => ite (bind (enclose rfl (bind take fun _ => expect _ _))
      fun _ => pure _) (pure _)
  · exact ite (pure _) (bind (enclose rfl take) fun _ => pure _)
  · exact pure _

theorem groups_typeMarks (kind : Kind) : (typeMarks kind).Groups true level :=
  loop groups_typeMark fun _ => pure _

theorem groups_typeScript : typeScript.Groups encloses level := by
  refine bind (perform .skipTrivia) fun _ => frame (bind look fun next => ?_)
  split
  · exact bind (plain rfl take) fun _ => groups_typeMarks _
  · exact bind groups_namedType fun _ => groups_typeMarks _
  · exact bind (report _ _) fun _ => pure _

/-! ### Expressions -/

/-- An expression may be any tree. -/
theorem groups_call_expr : (Script.call .expr).Groups encloses 0 := call rfl

theorem groups_exprRequired (what : String) : (exprRequired what).Groups encloses 0 :=
  bind (isAtOneOf _) fun _ => ite groups_call_expr (reportExpected _ _)

theorem groups_block : block.Groups encloses level :=
  plain rfl (bind (perform (.require _)) fun _ => bind takeOpening fun _ =>
    bind (whileTrue (isBefore _) (call trivial)) fun _ => expectClosing _ _)

theorem groups_commaItem {close : Kind} {item : Script Unit} (hitem : item.Groups encloses 0) :
    (commaItem close item).Groups encloses 0 :=
  bind (isBefore _) fun _ => ite (bind (isAtOneOf _) fun _ => ite (bind hitem fun _ => eat _)
    (bind (isAtOneOf _) fun _ => ite (pure _) (bind (reportAndTake _) fun _ => pure _))) (pure _)

theorem groups_commaList {close : Kind} {unclosed : Diagnostic.Kind} {item : Script Unit}
    (hitem : item.Groups encloses 0) : (commaList close unclosed item).Groups encloses 0 :=
  bind takeOpening fun _ => bind (repeatWhile (groups_commaItem hitem)) fun _ => expectClosing _ _

theorem groups_argumentList : argumentList.Groups encloses level :=
  plain rfl (groups_commaList groups_call_expr)

theorem groups_anonymousMember : anonymousMember.Groups encloses level :=
  plain rfl (bind (isAtPair _ _) fun _ => ite (bind take fun _ => bind (expect _ _) fun _ =>
    groups_exprRequired _) groups_call_expr)

theorem groups_initializerElement : initializerElement.Groups encloses 0 :=
  bind (isAtPair _ _) fun _ => ite (plain rfl (bind take fun _ => bind (expect _ _) fun _ =>
    groups_exprRequired _)) groups_call_expr

theorem groups_objectInitializer : objectInitializer.Groups encloses level :=
  plain rfl (groups_commaList groups_initializerElement)

theorem groups_arrayInitializer : arrayInitializer.Groups encloses level :=
  plain rfl (groups_commaList groups_call_expr)

theorem groups_arrayInitializerRequired : arrayInitializerRequired.Groups encloses level :=
  bind (isAt _) fun _ => ite groups_arrayInitializer (reportExpected _ _)

theorem groups_bracketed (what : String) : (bracketed what).Groups encloses 0 :=
  bind takeOpening fun _ => bind (groups_exprRequired _) fun _ => expectClosing _ _

theorem groups_initializerOf (type : Option Kind) (hasArguments : Bool) :
    (initializerOf type hasArguments).Groups encloses level :=
  bind (isAt _) fun _ => ite groups_objectInitializer (ite (reportExpected _ _) (pure _))

theorem groups_newOfType : newOfType.Groups true level := by
  refine bind groups_readType fun type => bind (isAt _) fun _ => ite ?_ (ite ?_ ?_)
  · exact enclose rfl (bind (groups_bracketed _) fun _ => bind (isAt _) fun _ =>
      ite groups_arrayInitializer (pure _))
  · exact enclose rfl groups_arrayInitializerRequired
  · have harguments : argumentsIfAny.Groups true 0 :=
      bind (isAt _) fun _ => ite (bind groups_argumentList fun _ => pure _) (pure _)
    exact enclose rfl (bind harguments fun _ => groups_initializerOf _ _)

theorem groups_newExpr : newExpr.Groups encloses level := by
  refine frame (bind (perform (.require _)) fun _ => bind take fun _ => bind look fun next => ?_)
  split
  · exact enclose rfl (groups_commaList groups_anonymousMember)
  · exact enclose rfl (bind take fun _ => bind (expect _ _) fun _ =>
      groups_arrayInitializerRequired)
  · exact groups_newOfType
  · exact groups_newOfType
  · exact enclose rfl (report _ _)

theorem groups_parenthesized : parenthesized.Groups encloses level :=
  plain rfl (bind takeOpening fun _ => bind (groups_exprRequired _) fun _ => expectClosing _ _)

theorem groups_primary : primary.Groups encloses level := by
  refine bind look fun next => ?_
  split
  · exact bind (plain rfl take) fun _ => pure _
  · exact bind (plain rfl take) fun _ => pure _
  · exact bind (plain rfl take) fun _ => pure _
  · exact bind groups_parenthesized fun _ => pure _
  · exact bind groups_newExpr fun _ => pure _
  · exact ite (bind (plain rfl take) fun _ => pure _) (bind (report _ _) fun _ => pure _)
  · exact bind (report _ _) fun _ => pure _

theorem groups_conditional : conditional.Groups encloses 0 :=
  frame (bind (call ⟨Nat.zero_le 1, Nat.zero_le operandLevel⟩) fun _ => bind (isAt _) fun _ =>
    ite (encloseLoose rfl (bind take fun _ => bind (groups_exprRequired _) fun _ =>
      bind (expect _ _) fun _ => groups_exprRequired _)) (pure _))

theorem groups_lambda : lambda.Groups encloses 0 := by
  have hparam : ∀ {encloses}, lambdaParam.Groups encloses 0 := plain rfl take
  have hitem : lambdaParamItem.Groups true 0 :=
    bind (isAt _) fun _ => ite (bind hparam fun _ => eat _) (pure _)
  have hparams : lambdaParams.Groups true 0 :=
    plain rfl (bind (isAt _) fun _ => ite hparam (bind take fun _ =>
      bind (repeatWhile hitem) fun _ => expect _ _))
  exact node ⟨nofun, nofun, fun _ => rfl⟩ (bind hparams fun _ => bind (expect _ _) fun _ =>
    bind (isAt _) fun _ => ite groups_block (groups_exprRequired _))

/-- A lambda, a conditional and an assignment may consist of any trees, and no operator may have
    one of them as its operand. -/
theorem groups_exprScript : exprScript.Groups encloses 0 := by
  have hlambda : ∀ {encloses}, isAtLambda.Groups encloses 0 := by
    intro encloses
    refine bind look fun next => ?_
    split
    · exact bind (perform .upcoming) fun _ => pure _
    · exact bind (perform .upcoming) fun _ => pure _
    · exact pure _
  exact deeper (bind hlambda fun _ => ite groups_lambda (frame (bind groups_conditional fun _ =>
    bind (isAtOneOf _) fun _ => ite (encloseLoose rfl (bind take fun _ => groups_exprRequired _))
      (pure _))))

/-! ### Statements -/

theorem groups_varDeclarator : varDeclarator.Groups encloses level :=
  bind (perform .skipTrivia) fun _ => plain rfl (bind (expectName _) fun _ => bind (eat _) fun _ =>
    ite (groups_exprRequired _) (pure _))

theorem groups_varOrType : varOrType.Groups encloses level :=
  bind (eat _) fun _ => ite (pure _) (bind groups_readType fun _ => pure _)

theorem groups_localDeclaration : localDeclaration.Groups encloses level :=
  plain rfl (bind groups_varOrType fun _ => bind groups_varDeclarator fun _ =>
    bind (whileTrue (eat _) groups_varDeclarator) fun _ => bind expectSemicolon fun _ => pure _)

theorem groups_returnStatement : returnStatement.Groups encloses level := by
  have hvalue : exprIfAny.Groups true 0 :=
    bind (isAtOneOf _) fun _ => ite groups_call_expr (pure _)
  exact plain rfl (bind take fun _ => bind hvalue fun _ => bind expectSemicolon fun _ => pure _)

theorem groups_embeddedStatement : embeddedStatement.Groups encloses level :=
  bind (isBefore _) fun _ => ite (call trivial) (report _ _)

theorem groups_ifStatement : ifStatement.Groups encloses level := by
  have hcondition : parenthesizedCondition.Groups true 0 :=
    bind (isAt _) fun _ => ite (bind takeOpening fun _ => bind (groups_exprRequired _) fun _ =>
      expectClosing _ _) (reportExpected _ _)
  exact plain rfl (bind take fun _ => bind hcondition fun _ => bind groups_embeddedStatement fun _ =>
    bind (eat _) fun _ => ite groups_embeddedStatement (pure _))

theorem groups_foreachStatement : foreachStatement.Groups encloses level := by
  have hrest : Script.Groups true 0
      (do Script.takeOpening
          varOrType
          let _ ← Script.expectName "loop variable"
          Script.expect .kwIn "`in`"
          exprRequired "collection"
          Script.expectClosing .parenClose .unclosedParen
          embeddedStatement : Script Unit) :=
    bind takeOpening fun _ => bind groups_varOrType fun _ => bind (expectName _) fun _ =>
      bind (expect _ _) fun _ => bind (groups_exprRequired _) fun _ => bind (expectClosing _ _)
        fun _ => groups_embeddedStatement
  exact plain rfl (bind take fun _ => bind (isAt _) fun _ => ite hrest (reportExpected _ _))

theorem groups_expressionStatement : expressionStatement.Groups encloses level :=
  plain rfl (bind groups_call_expr fun _ => bind expectSemicolon fun _ => ite (pure _)
    (bind (isAtOneOf _) fun _ => ite (pure _) (bind (recover _ _) fun _ =>
      bind (eat _) fun _ => pure _)))

theorem groups_stmtScript : stmtScript.Groups encloses level := by
  refine deeper (bind look fun first => ?_)
  split
  · exact groups_block
  · exact groups_returnStatement
  · exact groups_ifStatement
  · exact groups_foreachStatement
  · exact plain rfl take
  · have hlocal : isAtLocalDeclaration.Groups encloses level :=
      bind look fun _ => bind (perform .upcoming) fun _ => pure _
    exact bind hlocal fun _ => ite groups_localDeclaration
      (ite groups_expressionStatement (reportAndTake _))

/-! ### Declarations -/

theorem groups_dottedPath (what : String) : (dottedPath what).Groups encloses level :=
  bind (isAt _) fun _ => ite (plain rfl (bind take fun _ => groups_segments)) (reportExpected _ _)

theorem groups_usingDirective : usingDirective.Groups encloses level :=
  plain rfl (bind (perform (.require _)) fun _ => bind take fun _ => bind (groups_dottedPath _)
    fun _ => bind expectSemicolon fun _ => pure _)

theorem groups_namespaceDeclaration : namespaceDeclaration.Groups encloses level :=
  plain rfl (bind (perform (.require _)) fun _ => bind take fun _ => bind (groups_dottedPath _)
    fun _ => bind (eat _) fun _ => ite (call trivial) (bind (isAt _) fun _ =>
      ite (bind takeOpening fun _ => bind (call trivial) fun _ => expectClosing _ _)
        (reportExpected _ _)))

theorem groups_modifiers : modifiers.Groups encloses level := by
  have hat : isAtModifier.Groups encloses level := bind look fun _ => pure _
  exact bind hat fun _ => ite (bind take fun _ => bind (whileTrue hat take) fun _ => pure _) (pure _)

theorem groups_typeFromKeyword : typeFromKeyword.Groups true level := by
  have hkeyword : eatTypeKeyword.Groups true 0 := bind (eat _) fun _ => ite (pure _) (eat _)
  have hbases : baseListIfAny.Groups true 0 :=
    bind (isAt _) fun _ => ite (plain rfl (bind take fun _ => repeatWhile groups_typeItem)) (pure _)
  have hbody : typeBody.Groups true 0 :=
    bind (isAt _) fun _ => ite (bind takeOpening fun _ =>
      bind (whileTrue (isBefore _) (call trivial)) fun _ => expectClosing _ _) (reportExpected _ _)
  exact enclose rfl (bind hkeyword fun _ => ite (bind (expectName _) fun _ =>
    bind hbases fun _ => hbody) (reportExpected _ _))

theorem groups_typeDeclaration : typeDeclaration.Groups encloses level :=
  frame (bind groups_modifiers fun _ => groups_typeFromKeyword)

theorem groups_paramList : paramList.Groups encloses level := by
  have hparam : param.Groups true 0 :=
    plain rfl (bind groups_readType fun _ => bind (expectName _) fun _ => bind (eat _) fun _ =>
      ite (groups_exprRequired _) (pure _))
  have hitem : paramItem.Groups true 0 := by
    refine bind (isBefore _) fun _ => ite (bind look fun next => ?_) (pure _)
    split
    · exact bind hparam fun _ => eat _
    · exact bind hparam fun _ => eat _
    · exact bind (isAtOneOf _) fun _ => ite (pure _) (bind (reportAndTake _) fun _ => pure _)
  exact plain rfl (bind (isAt _) fun _ => ite (bind takeOpening fun _ =>
    bind (repeatWhile hitem) fun _ => expectClosing _ _) (reportExpected _ _))

theorem groups_body (what : String) : (body what).Groups encloses 0 := by
  refine bind look fun next => ?_
  split
  · exact groups_block
  · exact bind take fun _ => bind (groups_exprRequired _) fun _ => bind expectSemicolon fun _ => pure _
  · exact bind expectSemicolon fun _ => pure _

theorem groups_accessorList : accessorList.Groups encloses level := by
  have hat : isAtAccessor.Groups true 0 :=
    bind (perform .word) fun _ => bind (isAt _) fun _ => ite (pure _) (pure _)
  have haccessor : accessor.Groups true 0 :=
    frame (bind groups_modifiers fun _ => bind hat fun _ =>
      ite (enclose rfl (bind take fun _ => groups_body _)) (reportAndTake _))
  exact plain rfl (bind takeOpening fun _ => bind (whileTrue (isBefore _) haccessor) fun _ =>
    expectClosing _ _)

theorem groups_memberName : memberName.Groups encloses level := by
  have hfield : fieldDeclarator.Groups true level :=
    enclose rfl (bind (eat _) fun _ => ite (groups_exprRequired _) (pure _))
  exact frame (bind (expectName _) fun _ => bind look fun _ => ite (pure _) (ite (pure _)
    (ite (pure _) (bind (whenever hfield) fun _ => pure _))))

theorem groups_memberRest (shape : MemberShape) : (memberRest shape).Groups true level := by
  cases shape with
  | method => exact enclose rfl (bind groups_paramList fun _ => groups_body _)
  | property =>
      exact enclose rfl (bind groups_accessorList fun _ => bind (eat _) fun _ =>
        ite (bind (groups_exprRequired _) fun _ => bind expectSemicolon fun _ => pure _) (pure _))
  | computedProperty =>
      exact enclose rfl (bind take fun _ => bind (groups_exprRequired _) fun _ =>
        bind expectSemicolon fun _ => pure _)
  | field named =>
      exact enclose rfl (bind (whenever (whileTrue (eat _) groups_varDeclarator)) fun _ =>
        bind expectSemicolon fun _ => pure _)

theorem groups_memberScript : memberScript.Groups encloses level := by
  have htyped : typedMember.Groups true level :=
    bind groups_readType fun _ => bind groups_memberName fun shape => groups_memberRest shape
  refine frame (bind groups_modifiers fun modified => bind look fun next => ?_)
  split
  · exact groups_typeFromKeyword
  · exact groups_typeFromKeyword
  · exact bind (nextIs _) fun _ => ite (enclose rfl (bind take fun _ => bind groups_paramList
      fun _ => groups_body _)) htyped
  · exact enclose rfl (bind take fun _ => bind (expectName _) fun _ => bind groups_paramList
      fun _ => groups_body _)
  · exact htyped
  · exact ite (report _ _) (recover _ _)

theorem groups_itemsScript (braced : Bool) : (itemsScript braced).Groups encloses level := by
  refine repeatWhile (bind (perform .atEnd) fun _ => ite (pure _) (bind look fun next => ?_))
  split
  · exact bind groups_usingDirective fun _ => pure _
  · exact bind groups_namespaceDeclaration fun _ => pure _
  · exact bind groups_typeDeclaration fun _ => pure _
  · exact bind groups_typeDeclaration fun _ => pure _
  · exact ite (pure _) (ite (bind groups_typeDeclaration fun _ => pure _)
      (bind (call trivial) fun _ => pure _))
  · exact bind (call trivial) fun _ => pure _

end Grammar

end Nominal
