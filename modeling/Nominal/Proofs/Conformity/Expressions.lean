import Nominal.Proofs.Building

/-!
# Expressions Have the Shapes of Their Kinds

What the productions of types and expressions collect. Each production is followed with
the rules for `Builds`, under the assumption that the productions it refers to collect
what they have to.

The creation of an anonymous object is the exception. What is claimed of it is about
tokens, so its production is followed by hand.

## Theorems

* `builds_typeScript`: A type is collected as one type.
* `opens_commaList`: The creation of an anonymous object opens with keyword and brace.
* `builds_unaryScript`, `builds_binaryScript`, `builds_exprScript`: An expression is
  collected as one expression.
-/

namespace Nominal

namespace Grammar

open Syntax (Kind KindSet Lexeme Tree Slot Fits)
open Builds

variable {setting : Setting} {productions : Productions} {ps : List Slot}

variable (hf : Fulfilled setting productions)

include hf

/-! ### Types -/

theorem builds_typeItem :
    Builds setting productions typeItem [.many Kind.types] fun _ => [.many Kind.types] := by
  refine bind (merge [] (hf .type _) (by decide)) fun type => ?_
  cases type with
  | none => exact pure _
  | some kind => exact eat .comma

theorem builds_typeArguments :
    Builds setting productions typeArguments ps fun _ => ps ++ [.one [.typeArgList]] :=
  node (after (bind (perform .take) fun _ => bind (repeatWhile (builds_typeItem hf)) fun _ =>
    expect .gt _) (by decide)) (fun _ => by decide) nofun nofun

omit hf in
theorem builds_segments :
    Builds setting productions (Script.whileTrue isAtSegment segment) ps fun _ => ps :=
  whileTrue (bind (isAt .dot) fun _ => ite (nextIs .id) (pure _))
    (bind (perform .take) fun _ => expect .id _)

theorem builds_namedType :
    Builds setting productions namedType ps fun _ => ps ++ [.one [.namedType]] :=
  node (bind (perform .take) fun _ => bind builds_segments fun _ =>
    bind (isAt .lt) fun _ => ite (builds_typeArguments hf) (pad (pure _) _))
    (fun _ => by decide) nofun nofun

omit hf in
theorem builds_typeMark (kind : Kind) :
    Builds setting productions (typeMark kind) [.one Kind.types] fun _ => [.one Kind.types] := by
  refine bind (perform .look) fun next => ?_
  split
  · refine bind (nextIs .bracketClose) fun _ => ite (bind ?_ fun _ => pure _) (pure _)
    exact mono (enclose (bind (perform .take) fun _ => expect .bracketClose _)
      (fun _ => by decide) nofun nofun) fun _ => by decide
  · refine ite (pure _) (bind ?_ fun _ => pure _)
    exact mono (enclose (perform .take) (fun _ => by decide) nofun nofun) fun _ => by decide
  · exact pure _

omit hf in
theorem builds_typeMarks (kind : Kind) :
    Builds setting productions (typeMarks kind) [.one Kind.types] fun _ => [.one Kind.types] :=
  loop builds_typeMark fun _ => pure _

theorem builds_typeScript :
    Builds setting productions typeScript ps fun _ => ps ++ [.one Kind.types] := by
  refine bind (perform .skipTrivia) fun _ => frame (bind (perform .look) fun next => ?_)
  split
  · refine bind ?_ fun _ => builds_typeMarks .predefType
    exact mono (node (perform .take) (fun _ => by decide) nofun nofun) fun _ => by decide
  · refine bind ?_ fun _ => builds_typeMarks .namedType
    exact mono (builds_namedType hf) fun _ => by decide
  · exact bind (perform (.report _ _)) fun _ => pad (pure _) [.one Kind.types]

/-! ### Expressions -/

theorem builds_exprRequired (what : String) :
    Builds setting productions (exprRequired what) ps fun _ => ps ++ [.one Kind.expressions] :=
  bind (isAtOneOf _) fun _ => ite (hf .expr ps) (pad (perform (.report _ _)) _)

theorem builds_block :
    Builds setting productions block ps fun _ => ps ++ [.one [.block]] := by
  have hbody : Builds setting productions
      (do Script.perform (.require .braceOpen)
          Script.takeOpening
          Script.whileTrue (Script.isBefore .braceClose) (Script.call .stmt)
          Script.expectClosing .braceClose .unclosedBrace : Script Unit)
      [.many Kind.statements] fun _ => [.many Kind.statements] :=
    bind (perform (.require _)) fun _ => bind takeOpening fun _ =>
      bind (whileTrue (isBefore _) (merge [] (hf .stmt _) (by decide))) fun _ => expectClosing _ _
  exact node (after hbody (by decide)) (fun _ => by decide) nofun nofun

omit hf in
theorem builds_commaList (ps : List Slot) {item : Script Unit} (close : Kind)
    (unclosed : Diagnostic.Kind) (hitem : Builds setting productions item ps fun _ => ps) :
    Builds setting productions (commaList close unclosed item) ps fun _ => ps := by
  refine bind takeOpening fun _ => bind (repeatWhile ?_) fun _ => expectClosing _ _
  refine bind (isBefore close) fun _ => ite (bind (isAtOneOf _) fun _ => ite ?_ ?_) (pure _)
  · exact bind hitem fun _ => eat .comma
  · exact bind (isAtOneOf _) fun _ => ite (pure _) (bind (reportAndTake _) fun _ => pure _)

theorem builds_argumentList :
    Builds setting productions argumentList ps fun _ => ps ++ [.one [.argList]] :=
  node (after (builds_commaList [.many Kind.expressions] _ _
    (merge [] (hf .expr _) (by decide))) (by decide)) (fun _ => by decide) nofun nofun

theorem builds_anonymousMember :
    Builds setting productions anonymousMember ps fun _ => ps ++ [.one [.anonMember]] := by
  refine node (bind (isAtPair _ _) fun _ => ite ?_ (hf .expr [])) (fun _ => by decide) nofun nofun
  exact bind (perform .take) fun _ => bind (expect _ _) fun _ => builds_exprRequired hf _

theorem builds_initializerElement :
    Builds setting productions initializerElement [.many (.memberInit :: Kind.expressions)]
      fun _ => [.many (.memberInit :: Kind.expressions)] := by
  refine bind (isAtPair _ _) fun _ => ite ?_ (merge [] (hf .expr _) (by decide))
  refine merge [] (node ?_ (fun _ => (by decide : Slot.narrower [.one Kind.expressions] _ = true))
    nofun nofun) (by decide)
  exact bind (perform .take) fun _ => bind (expect _ _) fun _ => builds_exprRequired hf _

theorem builds_objectInitializer :
    Builds setting productions objectInitializer ps fun _ => ps ++ [.one [.objectInit]] :=
  node (after (builds_commaList _ _ _ (builds_initializerElement hf)) (by decide))
    (fun _ => by decide) nofun nofun

theorem builds_arrayInitializer :
    Builds setting productions arrayInitializer ps fun _ => ps ++ [.one [.arrayInit]] :=
  node (after (builds_commaList [.many Kind.expressions] _ _
    (merge [] (hf .expr _) (by decide))) (by decide)) (fun _ => by decide) nofun nofun

theorem builds_arrayInitializerRequired :
    Builds setting productions arrayInitializerRequired ps fun _ => ps ++ [.one [.arrayInit]] :=
  bind (isAt _) fun _ => ite (builds_arrayInitializer hf) (pad (perform (.report _ _)) _)

theorem builds_bracketed (what : String) :
    Builds setting productions (bracketed what) ps fun _ => ps ++ [.one Kind.expressions] :=
  bind takeOpening fun _ => bind (builds_exprRequired hf what) fun _ => expectClosing _ _

theorem builds_argumentsIfAny :
    Builds setting productions argumentsIfAny ps fun _ => ps ++ [.one [.argList]] :=
  bind (isAt _) fun _ => ite (bind (builds_argumentList hf) fun _ => pure _) (pad (pure _) _)

theorem builds_initializerOf (type : Option Kind) (hasArguments : Bool) :
    Builds setting productions (initializerOf type hasArguments) ps
      fun _ => ps ++ [.one [.objectInit]] :=
  bind (isAt _) fun _ => ite (builds_objectInitializer hf)
    (ite (pad (perform (.report _ _)) _) (pad (pure _) _))

theorem builds_newOfType :
    Builds setting productions newOfType [] fun _ => [.one [.objectCreation, .arrayCreation]] := by
  refine bind (hf .type _) fun type => bind (isAt _) fun _ => ite ?_ (ite ?_ ?_)
  · refine mono (enclose (bind (builds_bracketed hf _) fun _ => bind (isAt _) fun _ =>
      ite (builds_arrayInitializer hf) (pad (pure _) _)) (fun _ => by decide) nofun nofun)
      fun _ => by decide
  · exact mono (enclose (builds_arrayInitializerRequired hf) (fun _ => by decide) nofun nofun)
      fun _ => by decide
  · exact mono (enclose (bind (builds_argumentsIfAny hf) fun _ => builds_initializerOf hf _ _)
      (fun _ => (by decide : Slot.narrower (Kind.slots .objectCreation) _ = true)) nofun nofun)
      fun _ => by decide

omit hf in
theorem appends_commaItem {item : Script Unit} (close : Kind)
    (hitem : Appends setting productions item) :
    Appends setting productions (commaItem close item) := by
  refine .bind (.isBefore _) fun _ => .ite (.bind (.isAtOneOf _) fun _ => .ite ?_ ?_) (.pure _)
  · exact .bind hitem fun _ => .eat _
  · exact .bind (.isAtOneOf _) fun _ => .ite (.pure _) (.bind (.reportAndTake _) fun _ => .pure _)

omit hf in
/-- What is read behind the keyword of a creation opens with the keyword and the brace. -/
theorem opens_commaList {r s t : State} {keyword : Lexeme} {before : List Lexeme}
    {item : Script Unit} {unclosed : Diagnostic.Kind} {u : Unit}
    (hr : r.output = before.map .token ++ [.token keyword]) (hpending : r.pending = [])
    (hbefore : ∀ l ∈ before, l.isTrivia = true) (hkeyword : keyword.kind = .kwNew)
    (hlook : Script.look.exec setting productions r = .ok (some .braceOpen) s)
    (hitem : Appends setting productions item)
    (h : (commaList .braceClose unclosed item).exec setting productions s = .ok u t) :
    Tree.Opens t.output := by
  rcases exec_look hlook with ⟨hnext, ho, hp, hrest⟩
  rcases rest_of_next hnext.symm with ⟨brace, ls, hls, hbrace⟩
  have htrivia : brace.isTrivia = false := by rw [Lexeme.isTrivia, hbrace]; rfl
  rw [hls] at hrest
  -- The brace stands right behind what has been set aside.
  rw [commaList, exec_bind] at h
  rcases Outcome.andThen_eq_ok h with ⟨_, q, hopening, hbehind⟩
  rw [Script.takeOpening, exec_bind, exec_perform] at hopening
  rcases Outcome.andThen_eq_ok hopening with ⟨_, p, hop, htake⟩
  cases hop
  rcases exec_take htake with ⟨l, hl, hq, _⟩
  have hdrop : s.skipTrivia.rest = brace :: ls := by
    simp only [State.skipTrivia, hrest, List.dropWhile_cons_of_neg, htrivia, Bool.false_eq_true,
      not_false_eq_true]
  have hbetween : s.skipTrivia.pending = r.rest.takeWhile Lexeme.isTrivia := by
    simp only [State.skipTrivia, hp, hpending, hrest, List.takeWhile_cons_of_neg, htrivia,
      Bool.false_eq_true, not_false_eq_true, List.append_nil, List.nil_append]
  have hbraceEq : brace = l := (List.cons.inj (hdrop.symm.trans hl)).1
  have hopens : Tree.Opens q.output := by
    refine ⟨before, r.rest.takeWhile Lexeme.isTrivia, keyword, brace, [], ?_, hbefore, hkeyword,
      List.all_eq_true.mp List.all_takeWhile, hbrace⟩
    have hflush : q.output = s.output ++ s.skipTrivia.pending.map .token ++ [.token l] := hq
    rw [hflush, ho, hr, hbetween, hbraceEq]
    simp only [List.append_assoc, List.cons_append, List.nil_append]
  have hmore : Appends setting productions
      (do Script.repeatWhile (commaItem .braceClose item)
          Script.expectClosing .braceClose unclosed : Script Unit) :=
    .bind (.repeatWhile (appends_commaItem _ hitem)) fun _ => .expectClosing _ _
  rcases hmore q t u hbehind with ⟨us, ht⟩
  rw [ht]
  exact hopens.append us

/-- The trees of the group when the creation of an anonymous object has been read. -/
theorem holds_anonymous {r s t : State} {keyword : Lexeme} {before : List Lexeme} {u : Unit}
    (hr : r.output = before.map .token ++ [.token keyword]) (hpending : r.pending = [])
    (hbefore : ∀ l ∈ before, l.isTrivia = true) (hkeyword : keyword.kind = .kwNew)
    (hlook : Script.look.exec setting productions r = .ok (some .braceOpen) s)
    (h : (Script.enclose .anonObjectCreation
      (commaList .braceClose .unclosedBrace anonymousMember)).exec setting productions s = .ok u t) :
    t.Holds [.one Kind.expressions] := by
  rcases Outcome.andThen_eq_ok h with ⟨_, q, hbody, hdone⟩
  cases hdone
  have hopens := opens_commaList hr hpending hbefore hkeyword hlook (.node _ _) hbody
  have hs : s.Holds [.many [.anonMember]] := by
    have ho : s.output = (before ++ [keyword]).map .token := by
      rw [(exec_look hlook).2.1, hr, List.map_append, List.map_singleton]
    have hempty : State.Holds [.many [.anonMember]] { s with output := [] } := ⟨nofun, .skip .nil⟩
    exact hempty.tokens (before ++ [keyword]) (by rw [ho, List.nil_append])
  have hmember : Builds setting productions anonymousMember [.many [.anonMember]]
      fun _ => [.many [.anonMember]] :=
    merge [] (builds_anonymousMember hf) (by decide)
  have hq := builds_commaList [.many [.anonMember]] _ _ hmember s q _ hs hbody
  refine ⟨?_, ?_⟩
  · intro v hv
    rw [List.mem_singleton.mp hv]
    exact .node hq.2 (fun _ => hopens) hq.1
  · exact .one (by decide) .nil

theorem builds_newExpr :
    Builds setting productions newExpr ps fun _ => ps ++ [.one Kind.expressions] := by
  refine frame_fresh fun s t u ho hp h => ?_
  rw [exec_bind] at h
  rcases Outcome.andThen_eq_ok h with ⟨_, p, hrequire, h⟩
  rw [exec_bind] at h
  rcases Outcome.andThen_eq_ok h with ⟨_, q, htake, h⟩
  rw [exec_bind] at h
  rcases Outcome.andThen_eq_ok h with ⟨next, r, hlook, h⟩
  rcases exec_require hrequire with ⟨hnext, hpo, hpp, hpr⟩
  rcases exec_take htake with ⟨keyword, hkeyword, hqo, hqp⟩
  have hq : q.output = (s.rest.takeWhile Lexeme.isTrivia).map .token ++ [.token keyword] := by
    rw [hqo, State.flush, hpo, ho, hpp, State.skipTrivia, hp, List.nil_append, List.nil_append]
  have hkind : keyword.kind = .kwNew := by
    rw [State.next?, ← hpr, hkeyword] at hnext
    exact Option.some.inj hnext
  have hr : r.Holds [] := by
    have hempty : State.Holds [] { s with output := [] } := ⟨List.forall_mem_nil _, .nil⟩
    refine hempty.tokens (s.rest.takeWhile Lexeme.isTrivia ++ [keyword]) ?_
    rw [(exec_look hlook).2.1, hq, List.nil_append, List.map_append, List.map_singleton]
  have hbranch : ∀ {x : Script Unit}, x.exec setting productions r = .ok u t →
      (Builds setting productions x [] fun _ => [.one Kind.expressions]) →
        t.Holds [.one Kind.expressions] := fun h hx => hx r t u hr h
  split at h
  · exact holds_anonymous hf hq hqp (List.all_eq_true.mp List.all_takeWhile) hkind hlook h
  · refine hbranch h (mono (enclose (bind (perform .take) fun _ => bind (expect _ _) fun _ =>
      builds_arrayInitializerRequired hf) (fun _ => by decide) (by decide) (by decide))
      fun _ => by decide)
  · exact hbranch h (mono (builds_newOfType hf) fun _ => by decide)
  · exact hbranch h (mono (builds_newOfType hf) fun _ => by decide)
  · exact hbranch h (mono (enclose (perform (.report _ _)) (fun _ => by decide) (by decide)
      (by decide)) fun _ => by decide)

theorem builds_parenthesized :
    Builds setting productions parenthesized ps fun _ => ps ++ [.one [.parenExpr]] :=
  node (bind takeOpening fun _ => bind (builds_exprRequired hf _) fun _ => expectClosing _ _)
    (fun _ => by decide) nofun nofun

/-- What a leaf of an expression is read into. -/
theorem builds_primary :
    Builds setting productions primary [] fun _ => [.one Kind.expressions] := by
  refine bind (perform .look) fun next => ?_
  split
  · exact bind (node (perform .take) (fun _ => by decide) nofun nofun) fun _ => done (by decide)
  · exact bind (node (perform .take) (fun _ => by decide) nofun nofun) fun _ => done (by decide)
  · exact bind (node (perform .take) (fun _ => by decide) nofun nofun) fun _ => done (by decide)
  · exact bind (builds_parenthesized hf) fun _ => done (by decide)
  · exact bind (builds_newExpr hf) fun _ => done (by decide)
  · refine ite ?_ (bind (perform (.report _ _)) fun _ => done (by decide))
    exact bind (node (perform .take) (fun _ => by decide) nofun nofun) fun _ => done (by decide)
  · exact bind (perform (.report _ _)) fun _ => done (by decide)

theorem builds_postfixForm :
    Builds setting productions postfixForm [.one Kind.expressions]
      fun _ => [.one Kind.expressions] := by
  refine bind (perform .look) fun next => ?_
  split
  · refine bind (enclose (bind (perform .take) fun _ => bind (expectName _) fun _ => pure _)
      (fun _ => by decide) nofun nofun) fun _ => done (by decide)
  · exact bind (enclose (builds_argumentList hf) (fun _ => by decide) nofun nofun)
      fun _ => done (by decide)
  · exact bind (enclose (builds_bracketed hf _) (fun _ => by decide) nofun nofun)
      fun _ => done (by decide)
  · exact bind (enclose (perform .take) (fun _ => by decide) nofun nofun) fun _ => done (by decide)
  · exact bind (enclose (perform .take) (fun _ => by decide) nofun nofun) fun _ => done (by decide)
  · exact pure _

theorem builds_operand :
    Builds setting productions operand ps fun _ => ps ++ [.one Kind.expressions] :=
  frame (bind (builds_primary hf) fun _ => ite (repeatWhile (builds_postfixForm hf)) (pure _))

theorem builds_unaryScript :
    Builds setting productions unaryScript ps fun _ => ps ++ [.one Kind.expressions] := by
  refine bind (isAtOneOf _) fun _ => ite (deeper ?_) (bind ?_ fun _ => ite ?_ (builds_operand hf))
  · have hbody : Builds setting productions
        (do Script.take
            if ← Script.isAtOneOf KindSet.exprFirst then
              Script.call .unary
            else
              Script.reportExpected .expectedExpression "operand" : Script Unit)
        [] fun _ => [.one Kind.expressions] :=
      bind (perform .take) fun _ => bind (isAtOneOf _) fun _ =>
        ite (hf .unary []) (pad (perform (.report _ _)) [.one Kind.expressions])
    exact widen (node hbody (fun _ => by decide) nofun nofun) (by decide)
  · exact bind (isAt _) fun _ => ite (bind (perform .upcoming) fun _ => pure _) (pure _)
  · have hbody : Builds setting productions
        (do Script.take
            let _ ← readType
            Script.expect .parenClose "`)`"
            Script.call .unary : Script Unit)
        [] fun _ => [.one Kind.types, .one Kind.expressions] :=
      bind (perform .take) fun _ => bind (hf .type []) fun _ => bind (expect _ _) fun _ =>
        hf .unary [.one Kind.types]
    exact widen (node hbody (fun _ => by decide) nofun nofun) (by decide)

theorem builds_binaryOperation (power : Nat) :
    Builds setting productions (binaryOperation power) [.one Kind.expressions]
      fun _ => [.one Kind.expressions] := by
  refine bind (perform .look) fun next => ?_
  cases next with
  | none => exact pure _
  | some op =>
      dsimp only
      cases bindingPower? op with
      | none => exact pure _
      | some p =>
          refine ite (pure _) (bind (enclose ?_ (fun _ => (by decide : Slot.narrower
            [.one Kind.expressions, .one Kind.expressions] (Kind.slots .binaryExpr) = true))
            (by decide) (by decide)) fun _ => done (by decide))
          exact bind (perform .take) fun _ => bind (isAtOneOf _) fun _ =>
            ite (hf (.binary _) _) (pad (perform (.report _ _)) [.one Kind.expressions])

theorem builds_binaryScript (power : Nat) :
    Builds setting productions (binaryScript power) ps fun _ => ps ++ [.one Kind.expressions] :=
  frame (bind (hf .unary []) fun _ => repeatWhile (builds_binaryOperation hf power))

theorem builds_conditional :
    Builds setting productions conditional ps fun _ => ps ++ [.one Kind.expressions] := by
  refine frame (bind (hf (.binary 1) []) fun _ => bind (isAt _) fun _ => ite ?_ (pure _))
  refine mono (enclose ?_ (fun _ => (by decide : Slot.narrower
    [.one Kind.expressions, .one Kind.expressions, .one Kind.expressions] _ = true)) nofun nofun)
    fun _ => by decide
  exact bind (perform .take) fun _ => bind (builds_exprRequired hf _) fun _ =>
    bind (expect _ _) fun _ => builds_exprRequired hf _

omit hf in
theorem builds_lambdaParams :
    Builds setting productions lambdaParams ps fun _ => ps ++ [.one [.lambdaParamList]] := by
  have hparam : Builds setting productions lambdaParam [.many [.lambdaParam]]
      fun _ => [.many [.lambdaParam]] :=
    merge [] (node (perform .take) (fun _ => by decide) nofun nofun) (by decide)
  have hitem : Builds setting productions lambdaParamItem [.many [.lambdaParam]]
      fun _ => [.many [.lambdaParam]] :=
    bind (isAt _) fun _ => ite (bind hparam fun _ => eat _) (pure _)
  exact node (after (bind (isAt _) fun _ => ite hparam (bind (perform .take) fun _ =>
    bind (repeatWhile hitem) fun _ => expect _ _)) (by decide)) (fun _ => by decide) nofun nofun

theorem builds_lambda :
    Builds setting productions lambda ps fun _ => ps ++ [.one [.lambda]] := by
  refine node (bind builds_lambdaParams fun _ => bind (expect _ _) fun _ => bind (isAt _) fun _ =>
    ite (widen (builds_block hf) (by decide)) (widen (builds_exprRequired hf _) ?_))
    (fun _ => (by decide : Slot.narrower (Kind.slots .lambda) _ = true)) nofun nofun
  decide

theorem builds_exprScript :
    Builds setting productions exprScript ps fun _ => ps ++ [.one Kind.expressions] := by
  refine deeper (bind ?_ fun _ => ite (widen (builds_lambda hf) (by decide)) (frame ?_))
  · refine bind (perform .look) fun next => ?_
    split
    · exact bind (perform .upcoming) fun _ => pure _
    · exact bind (perform .upcoming) fun _ => pure _
    · exact pure _
  · refine bind (builds_conditional hf) fun _ => bind (isAtOneOf _) fun _ => ite ?_ (pure _)
    refine mono (enclose ?_ (fun _ => (by decide : Slot.narrower
      [.one Kind.expressions, .one Kind.expressions] _ = true)) nofun nofun) fun _ => by decide
    exact bind (perform .take) fun _ => builds_exprRequired hf _

end Grammar

end Nominal
