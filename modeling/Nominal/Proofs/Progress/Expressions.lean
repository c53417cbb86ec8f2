import Nominal.Proofs.Progress.Rules
import Nominal.Grammar.Statements

/-!
# Types, Expressions and Statements Get On

The productions of types, expressions and statements, followed with the rules for
`Proceeds`. What is shown of each of them is that nothing is taken where no token is known
to come, that every round of a loop gets further, and that a production which its caller
counts on gets further from each of the tokens that it may start with.

## Theorems

* `proceeds_typeScript`: A type gets further if it is read at all.
* `proceeds_unaryScript`, `proceeds_binaryScript`, `proceeds_exprScript`: So does an
  expression from a token that may start one.
* `proceeds_stmtScript`: So does a statement from any token.
-/

namespace Nominal

namespace Grammar

open Syntax (Kind KindSet)
open Proceeds

variable {setting : Setting} {watched : Productions} {N level : Nat} {p : Pace}
variable {S : Set (Option Kind)}

variable (hs : Serves setting N level watched)

include hs

/-! ### Types -/

theorem proceeds_typeItem (hp : p.Allows level 0) :
    Proceeds setting watched (State.Stands setting N p S) typeItem
      fun b => State.Stands setting N (if b then .moved else p.rest) Set.univ := by
  refine (hs.callType hp).bind fun kind => ?_
  cases kind with
  | none => exact pure fun _ h => h
  | some kind =>
      refine (eat .comma).post fun b s h => ?_
      cases b with
      | true => exact h
      | false => exact h.forget.rest_of_moved

theorem proceeds_typeItems :
    Proceeds setting watched (State.Stands setting N .moved S) (Script.repeatWhile typeItem)
      fun _ => State.Stands setting N .moved Set.univ :=
  repeatWhile fun _ hM =>
    proceeds_typeItem (hs.inner .moved hM) (.inr (Nat.lt_succ_self _))

theorem proceeds_typeArguments (hS : none ∉ S) :
    Proceeds setting watched (State.Stands setting N p S) typeArguments
      fun _ => State.Stands setting N .moved Set.univ :=
  node _ (takeBind hS ((proceeds_typeItems hs).bind fun _ => expect _ _))

omit hs in
theorem proceeds_isAtSegment :
    Proceeds setting watched (State.Stands setting N p S) isAtSegment
      fun b => State.Stands setting N p {o | o ∈ S ∧ (b = true → o = some .dot)} := by
  refine ifAt (fun hdot => (nextIs .id).post fun b s h => h.mono ?_)
    (pure fun s h => h.mono fun o ho => ⟨ho.1, nofun⟩)
  rintro o rfl
  exact ⟨hdot, fun _ => rfl⟩

omit hs in
theorem proceeds_segments :
    Proceeds setting watched (State.Stands setting N p S) (Script.whileTrue isAtSegment segment)
      fun _ => State.Stands setting N p.rest Set.univ := by
  refine whileTrue (fun _ => proceeds_isAtSegment) (fun _ _ => takeBind ?_ (expect _ _))
    fun _ _ h => h.forget
  exact fun hnone => nomatch hnone.2 rfl

theorem proceeds_namedType (hS : none ∉ S) :
    Proceeds setting watched (State.Stands setting N p S) namedType
      fun _ => State.Stands setting N .moved Set.univ :=
  node _ (takeBind hS (proceeds_segments.bind fun _ =>
    ifAt (fun _ => proceeds_typeArguments hs nofun) done))

omit hs in
theorem proceeds_typeMark (kind : Kind) :
    Proceeds setting watched (State.Stands setting N .still S) (typeMark kind)
      fun r => State.Stands setting N (if r.1 then .moved else .still) Set.univ := by
  refine lookBind fun o _ => ?_
  split
  · refine (nextIs .bracketClose).bind fun b => ite (fun _ => ?_) fun _ => pure fun _ h => h.forget
    exact (enclose _ (takeBind none_notMem (expect _ _))).bind fun _ => pure fun _ h => h
  · refine ite (fun _ => pure fun _ h => h.forget) fun _ => ?_
    exact (enclose _ (take none_notMem)).bind fun _ => pure fun _ h => h
  · exact pure fun _ h => h.forget

/-- A type gets further if it is read, and it is read from a token that may start it. -/
theorem proceeds_typeScript (hS : p = .live → S ⊆ Production.type.first) :
    Proceeds setting watched (State.Stands setting N p S) typeScript
      fun kind => State.Stands setting N (p.past .type kind) Set.univ := by
  have hmarks : ∀ kind, Proceeds setting watched (State.Stands setting N .moved Set.univ)
      (typeMarks kind) fun answer => State.Stands setting N (p.past .type answer) Set.univ := by
    refine fun kind => loop (fun _ _ => proceeds_typeMark) fun _ => pure fun _ h => ?_
    exact h
  refine skipTrivia.bind fun _ => frame (lookBind fun o ho => ?_)
  split
  · exact (node _ (take none_notMem)).bind fun _ => hmarks _
  · exact (proceeds_namedType hs none_notMem).bind fun _ => hmarks _
  · next hnamed hbuiltIn =>
      refine (report _ _).bind fun _ => pure fun s h => ?_
      cases p with
      | still => exact h.forget
      | moved => exact h.forget
      | live =>
          rcases hS rfl ho with rfl | rfl
          · exact (hbuiltIn rfl).elim
          · exact (hnamed rfl).elim

/-! ### Expressions -/

theorem proceeds_exprRequired (what : String) (hp : p.Allows level 3) :
    Proceeds setting watched (State.Stands setting N p S) (exprRequired what)
      fun _ => State.Stands setting N p.rest Set.univ :=
  ifAtOneOf (hs.callRest .expr hp) ((report _ _).post fun _ _ h => h.rest.forget)

/-- Behind a token, an expression is read where one has to stand. -/
theorem proceeds_exprBehind (what : String) :
    Proceeds setting watched (State.Stands setting N .moved S) (exprRequired what)
      fun _ => State.Stands setting N .moved Set.univ :=
  proceeds_exprRequired hs what .moved

theorem proceeds_block (hS : ∀ o ∈ S, o = some .braceOpen) :
    Proceeds setting watched (State.Stands setting N p S) block
      fun _ => State.Stands setting N .moved Set.univ := by
  refine node _ ((require hS).bind fun _ => (takeOpening fun h => nomatch hS _ h).bind fun _ => ?_)
  refine Proceeds.bind (whileTrue (fun _ => isBefore .braceClose) (fun M hM => ?_) fun _ _ h => h)
    fun _ => expectClosing _ _
  have hstmt : Serves setting M 5 watched := hs.inner .moved hM
  exact hstmt.callOn .stmt (.inr (Nat.lt_succ_self _)) fun _ o ho => ho.2.1

omit hs in
/-- An item of a list gets further where more items may follow. -/
theorem proceeds_commaItem {item : Script Unit} (close : Kind)
    (hitem : ∀ S ⊆ Production.expr.first, Proceeds setting watched
      (State.Stands setting N .live S) item fun _ => State.Stands setting N .moved Set.univ) :
    Proceeds setting watched (State.Stands setting N .still S) (commaItem close item)
      fun b => State.Stands setting N (if b then .moved else .still) Set.univ := by
  refine ifBefore (ifAtOneOf ?_ (ifAtOneOf ?_ ?_)) (pure fun _ h => h)
  · refine (hitem _ fun o ho => ho.2).bind fun _ => (eat .comma).post fun b s h => ?_
    cases b with
    | true => exact h
    | false => exact h.forget.still
  · exact pure fun _ h => h.still.forget
  · exact (reportAndTake _ fun _ hnone => hnone.1.1.2.1 rfl).bind fun _ => pure fun _ h => h

theorem proceeds_commaList {item : Script Unit} (close : Kind) (unclosed : Diagnostic.Kind)
    (hS : none ∉ S)
    (hitem : ∀ M, Serves setting M 4 watched → ∀ S ⊆ Production.expr.first,
      Proceeds setting watched (State.Stands setting M .live S) item
        fun _ => State.Stands setting M .moved Set.univ) :
    Proceeds setting watched (State.Stands setting N p S) (commaList close unclosed item)
      fun _ => State.Stands setting N .moved Set.univ := by
  refine (takeOpening hS).bind fun _ => Proceeds.bind (repeatWhile fun M hM => ?_)
    fun _ => expectClosing _ _
  exact proceeds_commaItem close (hitem M (hs.inner .moved hM))

/-- An expression that stands for itself in a list. -/
theorem proceeds_exprItem (h : 3 < level) (hS : S ⊆ Production.expr.first) :
    Proceeds setting watched (State.Stands setting N .live S) (Script.call .expr)
      fun _ => State.Stands setting N .moved Set.univ :=
  hs.callOn .expr (.inr h) fun _ => hS

theorem proceeds_argumentList (hS : none ∉ S) :
    Proceeds setting watched (State.Stands setting N p S) argumentList
      fun _ => State.Stands setting N .moved Set.univ :=
  node _ (proceeds_commaList hs _ _ hS fun _ hM _ => proceeds_exprItem hM (by decide))

theorem proceeds_anonymousMember (h : 3 < level) (hS : S ⊆ Production.expr.first) :
    Proceeds setting watched (State.Stands setting N .live S) anonymousMember
      fun _ => State.Stands setting N .moved Set.univ := by
  refine node _ ((isAtPair _ _).cond (takeBind (fun h => nomatch h.2 rfl) ?_) ?_)
  · exact (expect _ _).bind fun _ => proceeds_exprBehind hs _
  · exact proceeds_exprItem hs h fun o ho => hS ho.1

theorem proceeds_initializerElement (h : 3 < level) (hS : S ⊆ Production.expr.first) :
    Proceeds setting watched (State.Stands setting N .live S) initializerElement
      fun _ => State.Stands setting N .moved Set.univ := by
  refine (isAtPair _ _).cond (node _ (takeBind (fun h => nomatch h.2 rfl) ?_)) ?_
  · exact (expect _ _).bind fun _ => proceeds_exprBehind hs _
  · exact proceeds_exprItem hs h fun o ho => hS ho.1

theorem proceeds_objectInitializer (hS : none ∉ S) :
    Proceeds setting watched (State.Stands setting N p S) objectInitializer
      fun _ => State.Stands setting N .moved Set.univ :=
  node _ (proceeds_commaList hs _ _ hS fun _ hM _ => proceeds_initializerElement hM (by decide))

theorem proceeds_arrayInitializer (hS : none ∉ S) :
    Proceeds setting watched (State.Stands setting N p S) arrayInitializer
      fun _ => State.Stands setting N .moved Set.univ :=
  node _ (proceeds_commaList hs _ _ hS fun _ hM _ => proceeds_exprItem hM (by decide))

theorem proceeds_arrayInitializerRequired :
    Proceeds setting watched (State.Stands setting N .moved S) arrayInitializerRequired
      fun _ => State.Stands setting N .moved Set.univ :=
  ifAt (fun _ => proceeds_arrayInitializer hs none_notMem)
    ((report _ _).post fun _ _ h => h.forget)

theorem proceeds_bracketed (what : String) (hS : none ∉ S) :
    Proceeds setting watched (State.Stands setting N p S) (bracketed what)
      fun _ => State.Stands setting N .moved Set.univ :=
  (takeOpening hS).bind fun _ => (proceeds_exprBehind hs what).bind fun _ => expectClosing _ _

theorem proceeds_argumentsIfAny :
    Proceeds setting watched (State.Stands setting N .moved S) argumentsIfAny
      fun _ => State.Stands setting N .moved Set.univ :=
  ifAt (fun _ => (proceeds_argumentList hs none_notMem).bind fun _ => done) done

theorem proceeds_initializerOf (type : Option Kind) (hasArguments : Bool) :
    Proceeds setting watched (State.Stands setting N .moved S) (initializerOf type hasArguments)
      fun _ => State.Stands setting N .moved Set.univ :=
  ifAt (fun _ => proceeds_objectInitializer hs none_notMem)
    (ite (fun _ => (report _ _).post fun _ _ h => h.forget) fun _ => done)

theorem proceeds_newOfType :
    Proceeds setting watched (State.Stands setting N .moved S) newOfType
      fun _ => State.Stands setting N .moved Set.univ := by
  refine Proceeds.bind (hs.callRest .type .moved) fun type => ifAt (fun _ => enclose _ ?_) ?_
  · exact (proceeds_bracketed hs _ none_notMem).bind fun _ =>
      ifAt (fun _ => proceeds_arrayInitializer hs none_notMem) done
  · refine ite (fun _ => enclose _ (proceeds_arrayInitializerRequired hs)) fun _ => enclose _ ?_
    exact (proceeds_argumentsIfAny hs).bind fun _ => proceeds_initializerOf hs _ _

theorem proceeds_newExpr (hS : ∀ o ∈ S, o = some .kwNew) :
    Proceeds setting watched (State.Stands setting N p S) newExpr
      fun _ => State.Stands setting N .moved Set.univ := by
  refine frame ((require hS).bind fun _ => takeBind (fun h => nomatch hS _ h)
    (lookBind fun o _ => ?_))
  split
  · exact enclose _ (proceeds_commaList hs _ _ none_notMem fun _ hM _ =>
      proceeds_anonymousMember hM (by decide))
  · exact enclose _ (takeBind none_notMem
      ((expect _ _).bind fun _ => proceeds_arrayInitializerRequired hs))
  · exact proceeds_newOfType hs
  · exact proceeds_newOfType hs
  · exact enclose _ ((report _ _).post fun _ _ h => h.forget)

theorem proceeds_parenthesized (hS : none ∉ S) :
    Proceeds setting watched (State.Stands setting N p S) parenthesized
      fun _ => State.Stands setting N .moved Set.univ :=
  node _ ((takeOpening hS).bind fun _ =>
    (proceeds_exprBehind hs _).bind fun _ => expectClosing _ _)

omit hs in
/-- The tokens that an operand may start with, when nothing stands before it. -/
theorem primary_first {k : Kind} (hfirst : KindSet.exprFirst.contains k = true)
    (hplain : KindSet.prefixOps.contains k = false) :
    k = .id ∨ k = .predefinedType ∨ k = .kwThis ∨ k = .parenOpen ∨ k = .kwNew
      ∨ KindSet.literals.contains k = true := by
  revert hfirst hplain
  cases k <;> decide

theorem proceeds_primary
    (hS : p = .live → ∀ o ∈ S, o.any KindSet.exprFirst.contains = true
      ∧ o.any KindSet.prefixOps.contains = false) :
    Proceeds setting watched (State.Stands setting N p S) primary
      fun b => State.Stands setting N (if b then .moved else p.on) Set.univ := by
  have hread : ∀ {k : Kind} {x : Script Unit}, Proceeds setting watched
      (State.Stands setting N p {some k}) x (fun _ => State.Stands setting N .moved Set.univ) →
      Proceeds setting watched (State.Stands setting N p {some k}) (x >>= fun _ => pure true)
        fun b => State.Stands setting N (if b then .moved else p.on) Set.univ :=
    fun hx => hx.bind fun _ => pure fun _ h => h
  refine lookBind fun o ho => ?_
  split
  · exact hread (node _ (take none_notMem))
  · exact hread (node _ (take none_notMem))
  · exact hread (node _ (take none_notMem))
  · exact hread (proceeds_parenthesized hs none_notMem)
  · exact hread (proceeds_newExpr hs fun _ h => h)
  · next kind hid hbuiltIn hthis hparen hnew =>
      refine ite (fun _ => hread (node _ (take none_notMem))) fun hliteral => ?_
      refine (report _ _).bind fun _ => pure fun s h => ?_
      cases p with
      | still => exact h.forget
      | moved => exact h.forget
      | live =>
          have hfirst := hS rfl _ ho
          rcases primary_first hfirst.1 hfirst.2 with rfl | rfl | rfl | rfl | rfl | hkind
          · exact (hid rfl).elim
          · exact (hbuiltIn rfl).elim
          · exact (hthis rfl).elim
          · exact (hparen rfl).elim
          · exact (hnew rfl).elim
          · exact (hliteral hkind).elim
  · refine (report _ _).bind fun _ => pure fun s h => ?_
    cases p with
    | still => exact h.forget
    | moved => exact h.forget
    | live => cases (hS rfl _ ho).1

theorem proceeds_postfixForm :
    Proceeds setting watched (State.Stands setting N .still S) postfixForm
      fun b => State.Stands setting N (if b then .moved else .still) Set.univ := by
  have hread : ∀ {k : Kind} {x : Script Unit}, Proceeds setting watched
      (State.Stands setting N .still {some k}) x (fun _ => State.Stands setting N .moved Set.univ) →
      Proceeds setting watched (State.Stands setting N .still {some k}) (x >>= fun _ => pure true)
        fun b => State.Stands setting N (if b then .moved else .still) Set.univ :=
    fun hx => hx.bind fun _ => pure fun _ h => h
  refine lookBind fun o _ => ?_
  split
  · exact hread (enclose _ (takeBind none_notMem ((expectName _).bind fun _ => done)))
  · exact hread (enclose _ (proceeds_argumentList hs none_notMem))
  · exact hread (enclose _ (proceeds_bracketed hs _ none_notMem))
  · exact hread (enclose _ (take none_notMem))
  · exact hread (enclose _ (take none_notMem))
  · exact pure fun _ h => h.forget

theorem proceeds_operand
    (hS : p = .live → ∀ o ∈ S, o.any KindSet.exprFirst.contains = true
      ∧ o.any KindSet.prefixOps.contains = false) :
    Proceeds setting watched (State.Stands setting N p S) operand
      fun _ => State.Stands setting N p.on Set.univ := by
  refine frame ((proceeds_primary hs hS).cond ?_ (pure fun _ h => h))
  refine Proceeds.post (repeatWhile (p := .moved) fun M hM => ?_) fun _ _ h => h.on_of_moved
  exact proceeds_postfixForm (hs.inner (k := 0) .moved hM)

omit hs in
theorem proceeds_isAtCast :
    Proceeds setting watched (State.Stands setting N p S) isAtCast
      fun b => State.Stands setting N p {o | o ∈ S ∧ (b = true → o = some .parenOpen)} := by
  refine ifAt (fun hparen => upcoming.bind fun ks => pure fun s h => h.mono ?_)
    (pure fun s h => h.mono fun o ho => ⟨ho.1, nofun⟩)
  rintro o ⟨rfl, _⟩
  exact ⟨hparen, fun _ => rfl⟩

/-- An operand gets further from a token that may start an expression. -/
theorem proceeds_unaryScript (hS : p = .live → S ⊆ Production.unary.first) :
    Proceeds setting watched (State.Stands setting N p S) unaryScript
      fun _ => State.Stands setting N p.on Set.univ := by
  have hsome : ∀ {S : Set (Option Kind)} {ks : KindSet},
      none ∉ {o | o ∈ S ∧ o.any ks.contains = true} := fun h => nomatch h.2
  refine ifAtOneOf (deeper (node _ (takeBind hsome ?_))) (proceeds_isAtCast.cond ?_ ?_)
  · exact (ifAtOneOf (hs.callRest .unary .moved) ((report _ _).post fun _ _ h => h.forget)).post
      fun _ _ h => h.on_of_moved
  · refine node _ (takeBind (fun h => nomatch h.2 rfl) (Proceeds.bind (hs.callRest .type .moved)
      fun _ => (expect _ _).bind fun _ => ?_))
    exact (hs.callRest .unary .moved).post fun _ _ h => h.on_of_moved
  · exact proceeds_operand hs fun hp o ho => ⟨hS hp ho.1.1, ho.1.2⟩

theorem proceeds_binaryOperation (power : Nat) :
    Proceeds setting watched (State.Stands setting N .still S) (binaryOperation power)
      fun b => State.Stands setting N (if b then .moved else .still) Set.univ := by
  refine lookBind fun o _ => ?_
  split
  · exact pure fun _ h => h.forget
  · split
    · exact pure fun _ h => h.forget
    · refine ite (fun _ => pure fun _ h => h.forget) fun _ => ?_
      refine (enclose _ (takeBind none_notMem ?_)).bind fun _ => pure fun _ h => h
      exact ifAtOneOf (hs.callRest (.binary _) .moved) ((report _ _).post fun _ _ h => h.forget)

theorem proceeds_binaryScript (power : Nat) (h : 1 < level)
    (hS : p = .live → S ⊆ (Production.binary power).first) :
    Proceeds setting watched (State.Stands setting N p S) (binaryScript power)
      fun _ => State.Stands setting N p.on Set.univ := by
  refine frame ((hs.callOn .unary (.inr h) hS).bind fun _ => ?_)
  refine (repeatWhile fun M hM => ?_).post fun _ _ h => by rwa [Pace.rest_on] at h
  exact proceeds_binaryOperation (hs.inner (k := 1) (.inr h) hM) power

theorem proceeds_conditional (h : 2 < level) (hS : p = .live → S ⊆ Production.expr.first) :
    Proceeds setting watched (State.Stands setting N p S) conditional
      fun _ => State.Stands setting N p.on Set.univ := by
  refine frame ((hs.callOn (.binary 1) (.inr h) hS).bind fun _ => ifAt (fun _ => ?_) done)
  refine (enclose _ (takeBind none_notMem ?_)).post fun _ _ h => h.on_of_moved
  exact (proceeds_exprBehind hs _).bind fun _ => (expect _ _).bind fun _ => proceeds_exprBehind hs _

omit hs in
theorem proceeds_isAtLambda :
    Proceeds setting watched (State.Stands setting N p S) isAtLambda
      fun b => State.Stands setting N p {o | o ∈ S ∧ (b = true → o ≠ none)} := by
  refine lookBind fun o ho => ?_
  split
  · refine upcoming.bind fun ks => pure fun s h => h.mono ?_
    rintro o ⟨rfl, _⟩
    exact ⟨ho, nofun⟩
  · refine upcoming.bind fun ks => pure fun s h => h.mono ?_
    rintro o ⟨rfl, _⟩
    exact ⟨ho, nofun⟩
  · refine pure fun s h => h.mono ?_
    rintro o' rfl
    exact ⟨ho, nofun⟩

omit hs in
theorem proceeds_lambdaParamItem :
    Proceeds setting watched (State.Stands setting N .still S) lambdaParamItem
      fun b => State.Stands setting N (if b then .moved else .still) Set.univ := by
  refine ifAt (fun _ => (node _ (take none_notMem)).bind fun _ => (eat .comma).post fun b s h => ?_)
    (pure fun _ h => h.forget)
  cases b with
  | true => exact h
  | false => exact h.forget.still

omit hs in
theorem proceeds_lambdaParams (hS : none ∉ S) :
    Proceeds setting watched (State.Stands setting N p S) lambdaParams
      fun _ => State.Stands setting N .moved Set.univ :=
  node _ (ifAt (fun _ => node _ (take none_notMem)) (takeBind (fun h => hS h.1)
    (Proceeds.bind (repeatWhile fun _ _ => proceeds_lambdaParamItem) fun _ => expect _ _)))

theorem proceeds_lambda (hS : none ∉ S) :
    Proceeds setting watched (State.Stands setting N p S) lambda
      fun _ => State.Stands setting N .moved Set.univ :=
  node _ ((proceeds_lambdaParams hS).bind fun _ => (expect _ _).bind fun _ =>
    ifAt (fun _ => proceeds_block hs fun _ h => h) (proceeds_exprBehind hs _))

/-- An expression gets further from a token that may start one. -/
theorem proceeds_exprScript (h : 2 < level) (hS : p = .live → S ⊆ Production.expr.first) :
    Proceeds setting watched (State.Stands setting N p S) exprScript
      fun _ => State.Stands setting N p.on Set.univ := by
  refine deeper (proceeds_isAtLambda.cond ?_ (frame ?_))
  · exact (proceeds_lambda hs fun hnone => hnone.2 rfl rfl).post fun _ _ h => h.on_of_moved
  · refine (proceeds_conditional hs h fun hp o ho => hS hp ho.1).bind fun _ => ifAtOneOf ?_ done
    refine (enclose _ (takeBind (fun hnone => nomatch hnone.2) ?_)).post fun _ _ h => h.on_of_moved
    exact proceeds_exprBehind hs _

/-! ### Statements -/

theorem proceeds_varDeclarator :
    Proceeds setting watched (State.Stands setting N p S) varDeclarator
      fun _ => State.Stands setting N p.rest Set.univ := by
  refine skipTrivia.bind fun _ => node _ ((expectName _).bind fun _ => (eat .equals).cond ?_ ?_)
  · refine (proceeds_exprBehind hs _).post fun _ _ h => ?_
    rw [← Pace.rest_rest]
    exact h.rest_of_moved
  · exact pure fun _ h => h.forget

/-- The tokens that a declaration of variables may start with. -/
def declarationFirst : Set (Option Kind) :=
  {o | o = some .kwVar ∨ o = some .id ∨ o = some .predefinedType}

theorem proceeds_varOrType (hp : p.Allows level 0) (hS : p = .live → S ⊆ declarationFirst) :
    Proceeds setting watched (State.Stands setting N p S) varOrType
      fun _ => State.Stands setting N p.on Set.univ := by
  refine (eat .kwVar).cond (pure fun _ h => h.on_of_moved) ?_
  refine Proceeds.bind (hs.callOn .type hp fun hlive o ho => ?_) fun _ => done
  exact (hS hlive ho.1).resolve_left ho.2

theorem proceeds_localDeclaration (hp : p.Allows level 0) (hS : p = .live → S ⊆ declarationFirst) :
    Proceeds setting watched (State.Stands setting N p S) localDeclaration
      fun _ => State.Stands setting N p.on Set.univ := by
  refine node _ ((proceeds_varOrType hs hp hS).bind fun _ =>
    (proceeds_varDeclarator hs).bind fun _ => ?_)
  refine Proceeds.bind (whileTrue (fun _ => eat .comma) (fun M hM => ?_) fun _ _ h => h.forget)
    fun _ => expectSemicolon.bind fun _ => pure fun _ h => ?_
  · exact (proceeds_varDeclarator (hs.inner (k := 0) hp.on.rest hM)).post fun _ _ h => h
  · simpa only [Pace.rest_rest, Pace.rest_on] using h

theorem proceeds_exprIfAny (hp : p.Allows level 3) :
    Proceeds setting watched (State.Stands setting N p S) exprIfAny
      fun _ => State.Stands setting N p.rest Set.univ :=
  ifAtOneOf (hs.callRest .expr hp) (pure fun _ h => h.rest.forget)

theorem proceeds_returnStatement (hS : none ∉ S) :
    Proceeds setting watched (State.Stands setting N p S) returnStatement
      fun _ => State.Stands setting N .moved Set.univ :=
  node _ (takeBind hS ((proceeds_exprIfAny hs .moved).bind fun _ =>
    expectSemicolon.bind fun _ => done))

theorem proceeds_parenthesizedCondition :
    Proceeds setting watched (State.Stands setting N .moved S) parenthesizedCondition
      fun _ => State.Stands setting N .moved Set.univ :=
  ifAt (fun _ => (takeOpening none_notMem).bind fun _ =>
    (proceeds_exprBehind hs _).bind fun _ => expectClosing _ _)
    ((report _ _).post fun _ _ h => h.forget)

theorem proceeds_embeddedStatement :
    Proceeds setting watched (State.Stands setting N .moved S) embeddedStatement
      fun _ => State.Stands setting N .moved Set.univ :=
  ifBefore (hs.callRest .stmt .moved) ((report _ _).post fun _ _ h => h.forget)

theorem proceeds_ifStatement (hS : none ∉ S) :
    Proceeds setting watched (State.Stands setting N p S) ifStatement
      fun _ => State.Stands setting N .moved Set.univ :=
  node _ (takeBind hS ((proceeds_parenthesizedCondition hs).bind fun _ =>
    (proceeds_embeddedStatement hs).bind fun _ => (eat .kwElse).cond
      (proceeds_embeddedStatement hs) (pure fun _ h => h.forget)))

theorem proceeds_foreachStatement (hS : none ∉ S) :
    Proceeds setting watched (State.Stands setting N p S) foreachStatement
      fun _ => State.Stands setting N .moved Set.univ := by
  refine node _ (takeBind hS (ifAt (fun _ => (takeOpening none_notMem).bind fun _ => ?_)
    ((report _ _).post fun _ _ h => h.forget)))
  exact (proceeds_varOrType hs .moved nofun).bind fun _ => (expectName _).bind fun _ =>
    (expect _ _).bind fun _ => (proceeds_exprBehind hs _).bind fun _ =>
      (expectClosing _ _).bind fun _ => proceeds_embeddedStatement hs

theorem proceeds_expressionStatement (h : 3 < level) (hS : p = .live → S ⊆ Production.expr.first) :
    Proceeds setting watched (State.Stands setting N p S) expressionStatement
      fun _ => State.Stands setting N p.on Set.univ := by
  refine node _ ((hs.callOn .expr (.inr h) hS).bind fun _ => expectSemicolon.bind fun ended => ?_)
  refine ite (fun _ => pure fun _ h => ?_) fun _ => (isAtOneOf _).bind fun stops =>
    ite (fun _ => pure fun _ h => ?_) fun _ => ?_
  · simpa only [Pace.rest_on] using h
  · simpa only [Pace.rest_on] using h.forget
  · refine (recover _ fun hlive => (Pace.rest_ne_live _ hlive).elim).bind fun _ =>
      eatBind fun _ => pure fun _ h => ?_
    simpa only [Pace.rest_on, Pace.on_on] using h

omit hs in
/-- Where a type is recognised, a token comes that a type may start with. -/
theorem first_typeEnd? {ks ls : List Kind} (h : typeEnd? ks = some ls) :
    ks.head? ∈ Production.type.first := by
  rw [typeEnd?, typeEndWithin.eq_def] at h
  split at h
  · exact .inr rfl
  · exact .inl rfl
  · cases h

omit hs in
theorem first_declaresLocal {ks : List Kind} (h : declaresLocal ks = true) :
    ks.head? ∈ declarationFirst := by
  rw [declaresLocal.eq_def] at h
  split at h
  · exact .inl rfl
  · split at h
    · next htype => exact .inr (first_typeEnd? htype)
    · cases h

omit hs in
theorem proceeds_isAtLocalDeclaration :
    Proceeds setting watched (State.Stands setting N p S) isAtLocalDeclaration
      fun b => State.Stands setting N p {o | o ∈ S ∧ (b = true → o ∈ declarationFirst)} := by
  refine look.bind fun _ => upcoming.bind fun ks => pure fun s h => h.mono ?_
  rintro o ⟨⟨ho, _⟩, rfl⟩
  exact ⟨ho, first_declaresLocal⟩

theorem proceeds_plainStatement (first : Option Kind) (h : 3 < level)
    (hfirst : p = .live → first ≠ none) :
    Proceeds setting watched (State.Stands setting N p {first}) (plainStatement first)
      fun _ => State.Stands setting N p.on Set.univ := by
  refine proceeds_isAtLocalDeclaration.cond ?_ (ite (fun hexpr => ?_) fun _ => ?_)
  · exact proceeds_localDeclaration hs (.inr (Nat.zero_lt_of_lt h)) fun _ o ho => ho.2 rfl
  · refine proceeds_expressionStatement hs h fun _ o ho => ?_
    rcases ho with ⟨rfl, _⟩
    exact hexpr
  · refine reportAndTake _ fun hlive hnone => hfirst hlive ?_
    exact (Set.mem_singleton_iff.mp hnone.1).symm

/-- A statement gets further from any token. -/
theorem proceeds_stmtScript (h : 3 < level) (hS : p = .live → S ⊆ Production.stmt.first) :
    Proceeds setting watched (State.Stands setting N p S) stmtScript
      fun _ => State.Stands setting N p.on Set.univ := by
  have hon : ∀ {x : Script Unit} {T : Set (Option Kind)},
      Proceeds setting watched (State.Stands setting N p T) x
        (fun _ => State.Stands setting N .moved Set.univ) →
      Proceeds setting watched (State.Stands setting N p T) x
        fun _ => State.Stands setting N p.on Set.univ :=
    fun hx => hx.post fun _ _ h => h.on_of_moved
  refine deeper (lookBind fun o ho => ?_)
  split
  · exact hon (proceeds_block hs fun _ h => h)
  · exact hon (proceeds_returnStatement hs none_notMem)
  · exact hon (proceeds_ifStatement hs none_notMem)
  · exact hon (proceeds_foreachStatement hs none_notMem)
  · exact hon (node _ (take none_notMem))
  · exact proceeds_plainStatement hs o h fun hlive => hS hlive ho

end Grammar

end Nominal
