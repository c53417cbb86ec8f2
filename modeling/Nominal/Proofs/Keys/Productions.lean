import Nominal.Proofs.Keys.Rules
import Nominal.Proofs.Layout.Anchored
import Nominal.Proofs.Progress.Expressions

/-!
# Productions Keep Empty Variables Apart

All productions are gone through. Variables are declared at two places, in statements and as the
fields of a type. A statement only declares variables if it starts with `var` or with a type, so
there is a token in front of its first variable, and further variables have a comma in front of
them. The first variable of a field has its name.

## Theorems

* `isSome_typeScript`: A type is read where one starts.
* `spaces_localDeclaration`: The variables of a statement are kept apart.
* `spacing_watchProduction`: All productions keep empty variables apart.
* `spaced_parseLexemes`: So the tree of some lexemes is spaced.
-/

namespace Nominal

namespace Grammar

open Syntax (Kind KindSet Lexeme Tree)

/-- The productions that are referred to keep empty variables apart. Behind a type there is a
    token, and there is a type where one starts. -/
structure Spacing (setting : Setting) (watched : Productions) : Prop where
  call (p : Production) {last : Bool} : Spaces setting watched (Script.call p) last fun _ => false
  type {last : Bool} :
    Spaces setting watched (Script.call .type) last fun kind => last || kind.isSome
  isSome {s t : State} {kind : Option Kind} : s.upcoming.head? ∈ Production.type.first →
    watched .type s = .ok kind t → kind.isSome = true

section Upcoming

variable {setting : Setting} {watched : Productions} {s t : State}

/-- What is answered about the next token is its kind. -/
theorem watch_look_ok {o : Option Kind} (h : Script.look.watch setting watched s = .ok o t) :
    o = s.upcoming.head? ∧ t.upcoming = s.upcoming := by
  rw [Script.look, watch_perform] at h
  have hrun := run_of_watch h
  simp only [Op.run] at hrun
  split at hrun
  · cases hrun
  · cases hrun
    rw [Proceeds.head?_upcoming, upcoming_skipTrivia]
    exact ⟨rfl, upcoming_skipTrivia s⟩

/-- Where a token is not taken, another one comes. -/
theorem watch_eat_false {k : Kind} (h : (Script.eat k).watch setting watched s = .ok false t) :
    s.upcoming.head? ≠ some k ∧ t.upcoming = s.upcoming := by
  rw [Script.eat, watch_bind] at h
  rcases Outcome.andThen_eq_ok h with ⟨isNext, r, hat, hbranch⟩
  rw [Script.isAt, watch_bind] at hat
  rcases Outcome.andThen_eq_ok hat with ⟨o, q, hlook, hanswer⟩
  rcases watch_look_ok hlook with ⟨rfl, hsame⟩
  cases hanswer
  split at hbranch
  · rw [watch_bind] at hbranch
    rcases Outcome.andThen_eq_ok hbranch with ⟨_, _, _, hdone⟩
    cases hdone
  · next hother =>
      cases hbranch
      rw [beq_iff_eq] at hother
      exact ⟨hother, hsame⟩

/-- A declaration of variables starts with `var` or a type. -/
theorem watch_isAtLocalDeclaration
    (h : isAtLocalDeclaration.watch setting watched s = .ok true t) :
    t.upcoming.head? ∈ declarationFirst := by
  rw [isAtLocalDeclaration, watch_bind] at h
  rcases Outcome.andThen_eq_ok h with ⟨_, r, _, hnext⟩
  rw [watch_bind] at hnext
  rcases Outcome.andThen_eq_ok hnext with ⟨ks, q, hupcoming, hdone⟩
  rw [Script.upcoming, watch_perform] at hupcoming
  cases hupcoming
  injection hdone with hdeclares hstate
  rw [← hstate]
  exact first_declaresLocal hdeclares

/-- Behind its marks a type is answered. -/
theorem isSome_typeMarks {kind : Kind} {answer : Option Kind}
    (h : (typeMarks kind).watch setting watched s = .ok answer t) : answer.isSome = true := by
  rcases Outcome.andThen_eq_ok h with ⟨outermost, r, _, hdone⟩
  cases hdone
  rfl

/-- A type is read where one starts. -/
theorem isSome_typeScript {answer : Option Kind} (hfirst : s.upcoming.head? ∈ Production.type.first)
    (h : typeScript.watch setting watched s = .ok answer t) : answer.isSome = true := by
  rw [typeScript, watch_bind] at h
  rcases Outcome.andThen_eq_ok h with ⟨_, r, hskip, hframe⟩
  rw [watch_perform] at hskip
  cases hskip
  rcases Outcome.andThen_eq_ok hframe with ⟨_, q, hbody, hdone⟩
  cases hdone
  rw [watch_bind] at hbody
  rcases Outcome.andThen_eq_ok hbody with ⟨o, p, hlook, hrest⟩
  have hsame : (Grouping.frame.begin s.skipTrivia).upcoming = s.upcoming := upcoming_skipTrivia s
  rcases watch_look_ok hlook with ⟨rfl, -⟩
  rw [hsame] at hrest
  rcases hfirst with hname | hkeyword
  · rw [hname] at hrest
    simp only [watch_bind] at hrest
    rcases Outcome.andThen_eq_ok hrest with ⟨_, _, _, hmarks⟩
    exact isSome_typeMarks hmarks
  · rw [hkeyword] at hrest
    simp only [watch_bind] at hrest
    rcases Outcome.andThen_eq_ok hrest with ⟨_, _, _, hmarks⟩
    exact isSome_typeMarks hmarks

end Upcoming

section Productions

open Spaces

variable {setting : Setting} {watched : Productions} {last : Bool}

variable (hf : Spacing setting watched)

include hf

/-! ### Types -/

theorem spaces_typeItem : Spaces setting watched typeItem last fun _ => last := by
  refine bind hf.type fun type => ?_
  cases type with
  | none => exact done fun h => by rw [h, Bool.true_or]
  | some kind => exact (eat .comma).weaken fun _ h => by rw [h, Bool.true_or]

theorem spaces_typeArguments : Spaces setting watched typeArguments last fun _ => true :=
  node (bind take fun _ => bind (repeatWhile (spaces_typeItem hf)) fun _ => expect .gt _) rfl

omit hf in
theorem spaces_segments :
    Spaces setting watched (Script.whileTrue isAtSegment segment) last fun _ => last :=
  whileTrue (bind (isAt .dot) fun _ => ite (nextIs .id) (pure _))
    (bind take fun _ => (expect .id _).weaken fun _ _ => rfl) id

theorem spaces_namedType : Spaces setting watched namedType last fun _ => true :=
  node (bind take fun _ => bind spaces_segments fun _ =>
    bind (isAt .lt) fun _ => ite (spaces_typeArguments hf) (pure _)) rfl

omit hf in
theorem spaces_typeMark (kind : Kind) :
    Spaces setting watched (typeMark kind) true fun _ => true := by
  refine bind (perform .look) fun next => ?_
  split
  · refine bind (nextIs .bracketClose) fun _ => ite (bind ?_ fun _ => pure _) (pure _)
    exact enclose (bind take fun _ => expect .bracketClose _) rfl
  · exact ite (pure _) (bind (enclose take rfl) fun _ => pure _)
  · exact pure _

theorem spaces_typeScript :
    Spaces setting watched typeScript last fun kind => last || kind.isSome := by
  refine bind (perform .skipTrivia) fun _ => frame (bind (perform .look) fun next => ?_)
  have hmarks : ∀ kind, Spaces setting watched (typeMarks kind) true
      fun kind => last || kind.isSome :=
    fun kind => loop spaces_typeMark fun _ => done fun _ => rfl
  split
  · exact bind (node take rfl) fun _ => hmarks .predefType
  · exact bind (spaces_namedType hf) fun _ => hmarks .namedType
  · exact bind (perform (.report _ _)) fun _ => done (Bool.or_false last).symm.trans

/-! ### Expressions -/

theorem spaces_exprRequired (what : String) :
    Spaces setting watched (exprRequired what) last fun _ => false :=
  bind (isAtOneOf _) fun _ => ite (hf.call .expr) (perform (.report _ _)).loose

theorem spaces_block : Spaces setting watched block last fun _ => false :=
  node (bind (perform (.require _)) fun _ => bind takeOpening fun _ =>
    bind (whiles (isBefore _) (hf.call .stmt)) fun _ => expectClosing _ _) rfl

omit hf in
theorem spaces_commaList {item : Script Unit} (close : Kind) (unclosed : Diagnostic.Kind)
    (hitem : Spaces setting watched item false fun _ => false) :
    Spaces setting watched (commaList close unclosed item) last fun _ => false := by
  refine bind takeOpening fun _ => bind (repeats ?_) fun _ => expectClosing _ _
  refine bind (isBefore close) fun _ => ite (bind (isAtOneOf _) fun _ => ite ?_ ?_) (pure _)
  · exact bind hitem fun _ => eat .comma
  · exact bind (isAtOneOf _) fun _ => ite (pure _) (bind (reportAndTake _) fun _ => pure _)

theorem spaces_argumentList : Spaces setting watched argumentList last fun _ => false :=
  node (spaces_commaList _ _ (hf.call .expr)) rfl

theorem spaces_anonymousMember : Spaces setting watched anonymousMember last fun _ => false := by
  refine node (bind (isAtPair _ _) fun _ => ite ?_ (hf.call .expr)) rfl
  exact bind take fun _ => bind (expect _ _) fun _ => spaces_exprRequired hf _

theorem spaces_initializerElement :
    Spaces setting watched initializerElement last fun _ => false := by
  refine bind (isAtPair _ _) fun _ => ite (node ?_ rfl) (hf.call .expr)
  exact bind take fun _ => bind (expect _ _) fun _ => spaces_exprRequired hf _

theorem spaces_objectInitializer : Spaces setting watched objectInitializer last fun _ => false :=
  node (spaces_commaList _ _ (spaces_initializerElement hf)) rfl

theorem spaces_arrayInitializer : Spaces setting watched arrayInitializer last fun _ => false :=
  node (spaces_commaList _ _ (hf.call .expr)) rfl

theorem spaces_arrayInitializerRequired :
    Spaces setting watched arrayInitializerRequired last fun _ => false :=
  bind (isAt _) fun _ => ite (spaces_arrayInitializer hf) (perform (.report _ _)).loose

theorem spaces_bracketed (what : String) :
    Spaces setting watched (bracketed what) last fun _ => false :=
  bind takeOpening fun _ => bind (spaces_exprRequired hf what) fun _ => expectClosing _ _

theorem spaces_argumentsIfAny : Spaces setting watched argumentsIfAny last fun _ => false :=
  bind (isAt _) fun _ => ite (bind (spaces_argumentList hf) fun _ => pure _) (pure _).loose

theorem spaces_initializerOf (type : Option Kind) (hasArguments : Bool) :
    Spaces setting watched (initializerOf type hasArguments) last fun _ => false :=
  bind (isAt _) fun _ => ite (spaces_objectInitializer hf)
    (ite (perform (.report _ _)).loose (pure _).loose)

theorem spaces_newOfType : Spaces setting watched newOfType last fun _ => false := by
  refine bind (hf.call .type) fun type => bind (isAt _) fun _ => ite ?_ (ite ?_ ?_)
  · exact enclose (bind (spaces_bracketed hf _) fun _ => bind (isAt _) fun _ =>
      ite (spaces_arrayInitializer hf) (pure _)) rfl
  · exact enclose (spaces_arrayInitializerRequired hf) rfl
  · exact enclose (bind (spaces_argumentsIfAny hf) fun _ => spaces_initializerOf hf _ _) rfl

theorem spaces_newExpr : Spaces setting watched newExpr last fun _ => false := by
  refine frame (bind (perform (.require _)) fun _ => bind take fun _ =>
    bind (perform .look) fun next => ?_)
  split
  · exact enclose (spaces_commaList _ _ (spaces_anonymousMember hf)) rfl
  · exact enclose (bind take fun _ => bind (expect _ _) fun _ =>
      spaces_arrayInitializerRequired hf) rfl
  · exact spaces_newOfType hf
  · exact spaces_newOfType hf
  · exact enclose (perform (.report _ _)).loose rfl

theorem spaces_parenthesized : Spaces setting watched parenthesized last fun _ => false :=
  node (bind takeOpening fun _ => bind (spaces_exprRequired hf _) fun _ => expectClosing _ _) rfl

theorem spaces_primary : Spaces setting watched primary last fun _ => false := by
  refine bind (perform .look) fun next => ?_
  have hsingle : ∀ k, [Kind.varDeclarator, .lambdaParam].contains k = false →
      Spaces setting watched (do Script.node k Script.take; return true) last fun _ => false :=
    fun k hk => bind (node take hk) fun _ => (pure _).loose
  split
  · exact hsingle _ rfl
  · exact hsingle _ rfl
  · exact hsingle _ rfl
  · exact bind (spaces_parenthesized hf) fun _ => pure _
  · exact bind (spaces_newExpr hf) fun _ => pure _
  · exact ite (hsingle _ rfl) (bind (perform (.report _ _)) fun _ => (pure _).loose)
  · exact bind (perform (.report _ _)) fun _ => (pure _).loose

theorem spaces_postfixForm : Spaces setting watched postfixForm last fun _ => false := by
  refine bind (perform .look) fun next => ?_
  split
  · exact bind (enclose (bind take fun _ => bind (expectName _) fun _ => pure _) rfl)
      fun _ => (pure _).loose
  · exact bind (enclose (spaces_argumentList hf) rfl) fun _ => pure _
  · exact bind (enclose (spaces_bracketed hf _) rfl) fun _ => pure _
  · exact bind (enclose take rfl) fun _ => (pure _).loose
  · exact bind (enclose take rfl) fun _ => (pure _).loose
  · exact (pure _).loose

theorem spaces_operand : Spaces setting watched operand last fun _ => false :=
  frame (bind (spaces_primary hf) fun _ => ite (repeats (spaces_postfixForm hf)) (pure _))

theorem spaces_unaryScript : Spaces setting watched unaryScript last fun _ => false := by
  have hat : Spaces setting watched isAtCast last fun _ => last :=
    bind (isAt _) fun _ => ite (bind (perform .upcoming) fun _ => pure _) (pure _)
  refine bind (isAtOneOf _) fun _ => ite (deeper ?_) (bind hat fun _ => ite ?_ (spaces_operand hf))
  · exact node (bind take fun _ => bind (isAtOneOf _) fun _ =>
      ite (hf.call .unary) (perform (.report _ _)).loose) rfl
  · exact node (bind take fun _ => bind (hf.call .type) fun _ => bind (expect _ _) fun _ =>
      hf.call .unary) rfl

theorem spaces_binaryOperation (power : Nat) :
    Spaces setting watched (binaryOperation power) last fun _ => false := by
  refine bind (perform .look) fun next => ?_
  cases next with
  | none => exact (pure _).loose
  | some op =>
      dsimp only
      cases bindingPower? op with
      | none => exact (pure _).loose
      | some p =>
          refine ite (pure _).loose (bind (enclose ?_ rfl) fun _ => pure _)
          exact bind take fun _ => bind (isAtOneOf _) fun _ =>
            ite (hf.call (.binary _)) (perform (.report _ _)).loose

theorem spaces_binaryScript (power : Nat) :
    Spaces setting watched (binaryScript power) last fun _ => false :=
  frame (bind (hf.call .unary) fun _ => repeats (spaces_binaryOperation hf power))

theorem spaces_conditional : Spaces setting watched conditional last fun _ => false := by
  refine frame (bind (hf.call (.binary 1)) fun _ => bind (isAt _) fun _ => ite ?_ (pure _))
  exact enclose (bind take fun _ => bind (spaces_exprRequired hf _) fun _ =>
    bind (expect _ _) fun _ => spaces_exprRequired hf _) rfl

omit hf in
/-- A parameter is the token that is taken for it. -/
theorem spaces_lambdaParam : Spaces setting watched lambdaParam last fun _ => false := by
  intro first s t u hs h
  rcases Outcome.andThen_eq_ok h with ⟨_, r, hbody, hdone⟩
  cases hdone
  rw [Script.take, watch_perform] at hbody
  rcases watch_take_ok hbody with ⟨l, ls, -, hl, rfl⟩
  have ho : (((Grouping.node .lambdaParam).begin s).takeLexeme l ls).output = [.token l] := by
    simp only [State.takeLexeme, State.flush, output_spend, pending_spend, Grouping.begin,
      List.map_nil, List.append_nil, List.nil_append]
  have hflush : s.flush.Spaced first last := hs.tokens s.pending rfl
  have hparam : Tree.Spaced last [.node .lambdaParam [.token l]] true :=
    .node (absurd · (by decide)) (fun _ => ⟨l, hl, rfl⟩) (.token hl (.nil true)) (.nil true)
  exact hflush.append hparam (fun _ => rfl)
    (congrArg (fun ts => s.flush.output ++ [Syntax.Tree.node .lambdaParam ts]) ho)

omit hf in
theorem spaces_lambdaParams : Spaces setting watched lambdaParams last fun _ => false := by
  have hitem : Spaces setting watched lambdaParamItem false fun _ => false :=
    bind (isAt _) fun _ => ite (bind spaces_lambdaParam fun _ => eat _) (pure _)
  exact node (bind (isAt _) fun _ => ite spaces_lambdaParam (bind take fun _ =>
    bind (repeats hitem) fun _ => expect _ _)) rfl

theorem spaces_lambda : Spaces setting watched lambda last fun _ => false :=
  node (bind spaces_lambdaParams fun _ => bind (expect _ _) fun _ => bind (isAt _) fun _ =>
    ite (spaces_block hf) (spaces_exprRequired hf _)) rfl

theorem spaces_exprScript : Spaces setting watched exprScript last fun _ => false := by
  have hat : Spaces setting watched isAtLambda last fun _ => last := by
    refine bind (perform .look) fun next => ?_
    split
    · exact bind (perform .upcoming) fun _ => pure _
    · exact bind (perform .upcoming) fun _ => pure _
    · exact pure _
  refine deeper (bind hat fun _ => ite (spaces_lambda hf) (frame ?_))
  refine bind (spaces_conditional hf) fun _ => bind (isAtOneOf _) fun _ => ite ?_ (pure _)
  exact enclose (bind take fun _ => spaces_exprRequired hf _) rfl

/-! ### Variables -/

/-- A variable may be empty behind a token. -/
theorem spaces_varDeclarator : Spaces setting watched varDeclarator true fun _ => false := by
  have hbody : Spaces setting watched
      (do let _ ← Script.expectName "variable name"
          if ← Script.eat .equals then
            exprRequired "initializer" : Script Unit) true fun _ => false :=
    bind (expectName _) fun _ => bind (eat _) fun _ => ite (spaces_exprRequired hf _) (pure _).loose
  refine bind (perform .skipTrivia) fun _ first s t u hs h => ?_
  rcases Outcome.andThen_eq_ok h with ⟨_, r, hrun, hdone⟩
  cases hdone
  rcases hbody true _ r u (.start true rfl) hrun with ⟨final, hr, _⟩
  have hflush : s.flush.Spaced first true := hs.tokens s.pending rfl
  have hvariable : ∃ final, Tree.Spaced true [.node .varDeclarator r.output] final := by
    by_cases hempty : r.output = []
    · rw [hempty]
      exact ⟨false, .empty (.nil false)⟩
    · exact ⟨final, .node (fun _ => hempty) nofun hr (.nil final)⟩
  rcases hvariable with ⟨final', hvariable⟩
  exact hflush.append hvariable nofun rfl

/-- Further variables have a comma in front of them. -/
theorem spaces_moreVariables : Spaces setting watched
    (Script.whileTrue (Script.eat .comma) varDeclarator) last fun _ => false := by
  have hrounds : Spaces setting watched (Script.whileTrue (Script.eat .comma) varDeclarator) false
      fun _ => false := whileTrue (eats .comma) (spaces_varDeclarator hf) nofun
  exact hrounds.pre

/-- Where a declaration of variables starts, there is a token in front of the first one. -/
theorem spaced_varOrType {first : Bool} {s t : State} {u : Unit} (hs : s.Spaced first last)
    (hfirst : s.upcoming.head? ∈ declarationFirst)
    (h : varOrType.watch setting watched s = .ok u t) : t.Spaced first true := by
  rw [varOrType, watch_bind] at h
  rcases Outcome.andThen_eq_ok h with ⟨taken, r, heat, hrest⟩
  have hr := eats .kwVar first s r taken hs heat
  cases taken with
  | true =>
      cases hrest
      exact hr.weaken fun _ => Bool.or_true last
  | false =>
      rcases watch_eat_false heat with ⟨hother, hsame⟩
      simp only [Bool.false_eq_true, if_false, watch_bind] at hrest
      rcases Outcome.andThen_eq_ok hrest with ⟨kind, q, htype, hdone⟩
      cases hdone
      have hq := hf.type first r _ kind hr htype
      rw [readType, watch_call] at htype
      have hkind := hf.isSome (by rw [hsame]; exact hfirst.resolve_left hother) htype
      exact hq.weaken fun _ => by simp only [hkind, Bool.or_true]

/-- The variables of a statement are kept apart. -/
theorem spaces_localDeclaration {first : Bool} {s t : State} {u : Unit} (hs : s.Spaced first last)
    (hfirst : s.upcoming.head? ∈ declarationFirst)
    (h : localDeclaration.watch setting watched s = .ok u t) : t.Spaced first false := by
  have hmore : Spaces setting watched
      (do varDeclarator
          Script.whileTrue (Script.eat .comma) varDeclarator
          let _ ← Script.expectSemicolon : Script Unit) true fun _ => false :=
    bind (spaces_varDeclarator hf) fun _ => bind (spaces_moreVariables hf) fun _ =>
      bind expectSemicolon fun _ => pure _
  rcases Outcome.andThen_eq_ok h with ⟨_, r, hbody, hdone⟩
  cases hdone
  rw [watch_bind] at hbody
  rcases Outcome.andThen_eq_ok hbody with ⟨_, q, htype, hrest⟩
  have hstart : State.Spaced last last ((Grouping.node Kind.localDecl).begin s) := .start last rfl
  have hq := spaced_varOrType hf hstart hfirst htype
  rcases hmore last q r _ hq hrest with ⟨final, hr, _⟩
  have hflush : s.flush.Spaced first last := hs.tokens s.pending rfl
  have hnode : Tree.Spaced last [.node .localDecl r.output] final :=
    .node nofun nofun hr (.nil final)
  exact hflush.append hnode nofun rfl

/-! ### Statements -/

theorem spaces_exprIfAny : Spaces setting watched exprIfAny last fun _ => false :=
  bind (isAtOneOf _) fun _ => ite (hf.call .expr) (pure _).loose

theorem spaces_returnStatement : Spaces setting watched returnStatement last fun _ => false :=
  node (bind take fun _ => bind (spaces_exprIfAny hf) fun _ =>
    bind expectSemicolon fun _ => pure _) rfl

theorem spaces_parenthesizedCondition :
    Spaces setting watched parenthesizedCondition last fun _ => false :=
  bind (isAt _) fun _ => ite (bind takeOpening fun _ => bind (spaces_exprRequired hf _) fun _ =>
    expectClosing _ _) (perform (.report _ _)).loose

theorem spaces_embeddedStatement : Spaces setting watched embeddedStatement last fun _ => false :=
  bind (isBefore _) fun _ => ite (hf.call .stmt) (perform (.report _ _)).loose

theorem spaces_ifStatement : Spaces setting watched ifStatement last fun _ => false :=
  node (bind take fun _ => bind (spaces_parenthesizedCondition hf) fun _ =>
    bind (spaces_embeddedStatement hf) fun _ => bind (eat _) fun _ =>
    ite (spaces_embeddedStatement hf) (pure _)) rfl

theorem spaces_varOrType : Spaces setting watched varOrType last fun _ => false :=
  bind (eat _) fun _ => ite (pure _).loose (bind (hf.call .type) fun _ => pure _)

theorem spaces_foreachStatement : Spaces setting watched foreachStatement last fun _ => false := by
  refine node (bind take fun _ => bind (isAt _) fun _ => ite ?_ (perform (.report _ _)).loose) rfl
  exact bind takeOpening fun _ => bind (spaces_varOrType hf) fun _ => bind (expectName _) fun _ =>
    bind (expect _ _) fun _ => bind (spaces_exprRequired hf _) fun _ =>
    bind (expectClosing _ _) fun _ => spaces_embeddedStatement hf

theorem spaces_expressionStatement :
    Spaces setting watched expressionStatement last fun _ => false := by
  refine node (bind (hf.call .expr) fun _ => bind expectSemicolon fun _ => ite (pure _)
    (bind (isAtOneOf _) fun _ => ite (pure _) (bind (recover _ _) fun _ => ?_))) rfl
  exact bind (eat _) fun _ => pure _

theorem spaces_plainStatement (next : Option Kind) :
    Spaces setting watched (plainStatement next) last fun _ => false := by
  intro first s t u hs h
  rw [plainStatement, watch_bind] at h
  rcases Outcome.andThen_eq_ok h with ⟨declares, r, hat, hrest⟩
  have hlookahead : Spaces setting watched isAtLocalDeclaration last fun _ => last :=
    bind (perform .look) fun _ => bind (perform .upcoming) fun _ => pure _
  have hr := hlookahead first s r declares hs hat
  cases declares with
  | true => exact spaces_localDeclaration hf hr (watch_isAtLocalDeclaration hat) hrest
  | false =>
      have hother : Spaces setting watched
          (if next.any KindSet.exprFirst.contains then expressionStatement
            else Script.reportAndTake .expectedStatement) last fun _ => false :=
        ite (spaces_expressionStatement hf) (reportAndTake _).loose
      exact hother first r t u hr hrest

theorem spaces_stmtScript : Spaces setting watched stmtScript last fun _ => false := by
  refine deeper (bind (perform .look) fun next => ?_)
  split
  · exact spaces_block hf
  · exact spaces_returnStatement hf
  · exact spaces_ifStatement hf
  · exact spaces_foreachStatement hf
  · exact node take.loose rfl
  · exact spaces_plainStatement hf _

/-! ### Declarations -/

omit hf in
theorem spaces_dottedPath (what : String) :
    Spaces setting watched (dottedPath what) last fun _ => last :=
  bind (isAt _) fun _ => ite
    ((node (bind take fun _ => spaces_segments) rfl).weaken fun _ _ => rfl) (perform (.report _ _))

omit hf in
theorem spaces_usingDirective : Spaces setting watched usingDirective last fun _ => false :=
  node (bind (perform (.require _)) fun _ => bind take fun _ =>
    bind (spaces_dottedPath _) fun _ => bind expectSemicolon fun _ => (pure _).loose) rfl

theorem spaces_namespaceDeclaration :
    Spaces setting watched namespaceDeclaration last fun _ => false := by
  refine node (bind (perform (.require _)) fun _ => bind take fun _ =>
    bind (spaces_dottedPath _) fun _ => bind (eat _) fun _ => ite (hf.call (.items false))
    (bind (isAt _) fun _ => ite ?_ (perform (.report _ _)).loose)) rfl
  exact bind takeOpening fun _ => bind (hf.call (.items true)) fun _ => expectClosing _ _

omit hf in
theorem spaces_modifiers : Spaces setting watched modifiers last fun _ => last := by
  have hat : ∀ {last}, Spaces setting watched isAtModifier last fun _ => last :=
    bind (perform .look) fun _ => pure _
  exact bind hat fun _ => ite
    (bind take fun _ => bind (whileTrue hat take id) fun _ => done fun _ => rfl) (pure _)

theorem spaces_baseListIfAny : Spaces setting watched baseListIfAny last fun _ => false :=
  bind (isAt _) fun _ => ite
    (node (bind take fun _ => (repeatWhile (spaces_typeItem hf)).loose) rfl) (pure _).loose

theorem spaces_typeBody : Spaces setting watched typeBody last fun _ => false := by
  refine bind (isAt _) fun _ => ite ?_ (perform (.report _ _)).loose
  exact bind takeOpening fun _ => bind (whiles (isBefore _) (hf.call .member)) fun _ =>
    expectClosing _ _

theorem spaces_typeFromKeyword : Spaces setting watched typeFromKeyword last fun _ => false := by
  have hkeyword : Spaces setting watched eatTypeKeyword last fun _ => last :=
    bind (eat _) fun _ => ite (pure _) (eat _)
  exact enclose (bind hkeyword fun _ => ite (bind (expectName _) fun _ =>
    bind (spaces_baseListIfAny hf) fun _ => spaces_typeBody hf) (perform (.report _ _)).loose) rfl

theorem spaces_typeDeclaration : Spaces setting watched typeDeclaration last fun _ => false :=
  frame (bind spaces_modifiers fun _ => spaces_typeFromKeyword hf)

theorem spaces_param : Spaces setting watched param last fun _ => false :=
  node (bind (hf.call .type) fun _ => bind (expectName _) fun _ => bind (eat _) fun _ =>
    ite (spaces_exprRequired hf _) (pure _)) rfl

theorem spaces_paramItem : Spaces setting watched paramItem last fun _ => false := by
  refine bind (isBefore _) fun _ => ite (bind (perform .look) fun next => ?_) (pure _).loose
  split
  · exact bind (spaces_param hf) fun _ => eat _
  · exact bind (spaces_param hf) fun _ => eat _
  · exact bind (isAtOneOf _) fun _ => ite (pure _).loose
      (bind (reportAndTake _) fun _ => (pure _).loose)

theorem spaces_paramList : Spaces setting watched paramList last fun _ => false := by
  refine node (bind (isAt _) fun _ => ite ?_ (perform (.report _ _)).loose) rfl
  exact bind takeOpening fun _ => bind (repeats (spaces_paramItem hf)) fun _ => expectClosing _ _

theorem spaces_body (what : String) : Spaces setting watched (body what) last fun _ => false := by
  refine bind (perform .look) fun next => ?_
  split
  · exact spaces_block hf
  · exact bind take fun _ => bind (spaces_exprRequired hf _) fun _ =>
      bind expectSemicolon fun _ => pure _
  · exact bind expectSemicolon fun _ => (pure _).loose

theorem spaces_accessor : Spaces setting watched accessor last fun _ => false := by
  have hat : Spaces setting watched isAtAccessor last fun _ => last :=
    bind (perform .word) fun _ => bind (isAt _) fun _ => ite (pure _) (pure _)
  exact frame (bind spaces_modifiers fun _ => bind hat fun _ =>
    ite (enclose (bind take fun _ => spaces_body hf _) rfl) (reportAndTake _).loose)

theorem spaces_accessorList : Spaces setting watched accessorList last fun _ => false :=
  node (bind takeOpening fun _ =>
    bind (whiles (isBefore _) (spaces_accessor hf)) fun _ => expectClosing _ _) rfl

/-- The variable that a field starts with has its name, so it is not empty. -/
theorem spaces_fieldDeclarator (ha : Anchoring setting watched) {first : Bool} {s t : State}
    {u : Unit} (hs : s.Spaced first last) (hnamed : s.Anchored true)
    (h : fieldDeclarator.watch setting watched s = .ok u t) : t.Spaced first false := by
  have hbody : Spaces setting watched
      (do if ← Script.eat .equals then
            exprRequired "field initializer" : Script Unit) last fun _ => false :=
    bind (eat _) fun _ => ite (spaces_exprRequired hf _) (pure _).loose
  have hkept : Anchors setting watched
      (do if ← Script.eat .equals then
            exprRequired "field initializer" : Script Unit) true fun _ => true :=
    .bind (.eat _) fun _ => .ite (anchors_exprRequired ha _) (.pure _)
  rcases Outcome.andThen_eq_ok h with ⟨_, r, hrun, hdone⟩
  cases hdone
  rcases hbody first s r u hs hrun with ⟨final, hr, _⟩
  have howned := (hkept s r u hnamed hrun).2 rfl
  refine ⟨final, .node (fun _ hnil => ?_) nofun hr (.nil final), nofun⟩
  rw [hnil] at howned
  cases howned

theorem spaces_memberName (ha : Anchoring setting watched) :
    Spaces setting watched memberName last fun _ => false := by
  intro first s t shape hs h
  rcases Outcome.andThen_eq_ok h with ⟨_, r, hbody, hdone⟩
  cases hdone
  rw [watch_bind] at hbody
  rcases Outcome.andThen_eq_ok hbody with ⟨named, p, hname, hrest⟩
  rw [watch_bind] at hrest
  rcases Outcome.andThen_eq_ok hrest with ⟨next, q, hlook, hshape⟩
  have hq := perform .look last p q next (expectName _ last _ p named (.start last rfl) hname) hlook
  have hnamed :=
    Anchors.perform .look p q next (Anchors.expectsName _ _ p named (.empty rfl) hname) hlook
  have hr : r.Spaced last false := by
    split at hshape
    · cases hshape
      exact hq.weaken nofun
    · split at hshape
      · cases hshape
        exact hq.weaken nofun
      · split at hshape
        · cases hshape
          exact hq.weaken nofun
        · rw [watch_bind] at hshape
          rcases Outcome.andThen_eq_ok hshape with ⟨_, o, hfield, hanswer⟩
          cases hanswer
          cases named with
          | false =>
              cases hfield
              exact hq.weaken nofun
          | true => exact spaces_fieldDeclarator hf ha hq hnamed hfield
  rcases hr with ⟨final, hr, _⟩
  have hflush : s.flush.Spaced first last := hs.tokens s.pending rfl
  exact hflush.append hr nofun rfl

theorem spaces_memberRest (shape : MemberShape) :
    Spaces setting watched (memberRest shape) last fun _ => false := by
  cases shape with
  | method => exact enclose (bind (spaces_paramList hf) fun _ => spaces_body hf _) rfl
  | property =>
      exact enclose (bind (spaces_accessorList hf) fun _ => bind (eat _) fun _ =>
        ite (bind (spaces_exprRequired hf _) fun _ => bind expectSemicolon fun _ => pure _)
          (pure _)) rfl
  | computedProperty =>
      exact enclose (bind take fun _ => bind (spaces_exprRequired hf _) fun _ =>
        bind expectSemicolon fun _ => pure _) rfl
  | field named =>
      have hmore : Spaces setting watched
          (Script.whenever named (Script.whileTrue (Script.eat .comma) varDeclarator)) last
          fun _ => false := ite (spaces_moreVariables hf) (pure _).loose
      exact enclose (bind hmore fun _ => bind expectSemicolon fun _ => pure _) rfl

theorem spaces_typedMember (ha : Anchoring setting watched) :
    Spaces setting watched typedMember last fun _ => false :=
  bind (hf.call .type) fun _ => bind (spaces_memberName hf ha) fun shape =>
    spaces_memberRest hf shape

theorem spaces_memberScript (ha : Anchoring setting watched) :
    Spaces setting watched memberScript last fun _ => false := by
  refine frame (bind spaces_modifiers fun modified => bind (perform .look) fun next => ?_)
  split
  · exact spaces_typeFromKeyword hf
  · exact spaces_typeFromKeyword hf
  · refine bind (nextIs _) fun _ => ite ?_ (spaces_typedMember hf ha)
    exact enclose (bind take fun _ => bind (spaces_paramList hf) fun _ => spaces_body hf _) rfl
  · exact enclose (bind take fun _ => bind (expectName _) fun _ =>
      bind (spaces_paramList hf) fun _ => spaces_body hf _) rfl
  · exact spaces_typedMember hf ha
  · exact ite (perform (.report _ _)).loose (recover _ _).loose

theorem spaces_item (braced : Bool) :
    Spaces setting watched (item braced) last fun _ => false := by
  refine bind (perform .atEnd) fun _ => ite (pure _).loose (bind (perform .look) fun next => ?_)
  split
  · exact bind spaces_usingDirective fun _ => pure _
  · exact bind (spaces_namespaceDeclaration hf) fun _ => pure _
  · exact bind (spaces_typeDeclaration hf) fun _ => pure _
  · exact bind (spaces_typeDeclaration hf) fun _ => pure _
  · refine ite (pure _).loose (ite ?_ (bind (hf.call .stmt) fun _ => pure _))
    exact bind (spaces_typeDeclaration hf) fun _ => pure _
  · exact bind (hf.call .stmt) fun _ => pure _

omit hf in
/-- All productions keep empty variables apart. -/
theorem spacing_watchProduction (n : Nat) : Spacing setting (watchProduction setting n) := by
  induction n with
  | zero =>
      refine ⟨fun p _ first s t a _ h => ?_, fun first s t a _ h => ?_, fun _ h => ?_⟩
      · rw [watch_call] at h
        cases h
      · rw [watch_call] at h
        cases h
      · cases h
  | succ n ih =>
      have ha : Anchoring setting (watchProduction setting n) := anchors_watchProduction n
      refine ⟨fun p _ first s t a hs h => ?_, fun first s t a hs h => ?_, isSome_typeScript⟩
      · rw [watch_call] at h
        cases p with
        | items braced => exact repeats (spaces_item ih braced) first s t a hs h
        | member => exact spaces_memberScript ih ha first s t a hs h
        | stmt => exact spaces_stmtScript ih first s t a hs h
        | expr => exact spaces_exprScript ih first s t a hs h
        | binary power => exact spaces_binaryScript ih power first s t a hs h
        | unary => exact spaces_unaryScript ih first s t a hs h
        | type => exact (spaces_typeScript ih).loose first s t a hs h
      · rw [watch_call] at h
        exact spaces_typeScript ih first s t a hs h

end Productions

/-- In the tree of some lexemes empty variables are kept apart. -/
theorem spaced_parseLexemes {limits : Limits} {lexemes : List Lexeme} {parsed : Parsed}
    (h : parseLexemes limits lexemes = .ok parsed) :
    ∃ children final, parsed.tree = .node .root children ∧ Tree.Spaced false children final := by
  rw [parseLexemes_eq_watch] at h
  cases hrun : watchFile limits lexemes with
  | ok u t =>
      rw [hrun, Outcome.result, State.result] at h
      split at h
      · cases h
      · cases h
        have hfile : Spaces ⟨limits.depth, Lexeme.widthOf lexemes⟩ (watchProduction _
            (levels * (lexemes.length + 1))) fileScript false fun _ => false :=
          .bind ((spacing_watchProduction _).call (.items false)) fun _ => .perform .keepTrivia
        rcases hfile false _ t u (.start false rfl) hrun with ⟨final, ht, _⟩
        exact ⟨t.output, final, rfl, ht⟩
  | stuck =>
      rw [hrun] at h
      cases h
  | broken fault =>
      rw [hrun] at h
      cases h

end Grammar

end Nominal
