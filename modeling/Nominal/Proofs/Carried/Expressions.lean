import Nominal.Proofs.Carried.Creations

/-!
# Carrying Over Expressions and Statements

With creations carried over, so are all forms of expressions and statements. Three of them
look further ahead than to the next token, and what they see is borne out by what they read.

## Main definitions

* `Course.IsReady`: What is asked of the productions that are referred to.

## Theorems

* `carries_exprScript`: Expressions.
* `carries_stmtScript`: Statements.
-/

namespace Nominal

open Syntax (Kind KindSet Lexeme Tree)

namespace Grammar

open Script

/-- What is asked of the productions that are referred to. -/
structure Course.IsReady (c : Course) : Prop where
  followed : c.IsFollowed
  framed : IsFramed (c.behind .expr)
  makes : MakesNode (c.behind .expr)
  names : ReadsNames c.behind
  steps : StepsOverTypes c.behind

variable {c : Course} {items : Bool}

open Course (Carries)

theorem Course.Carries.deeper {x : Script Unit} (hx : c.Carries items x) :
    c.Carries items (Script.deeper x) := fun i => .deeper (hx i)

theorem Course.Carries.expectName (what : String) : c.Carries items (Script.expectName what) :=
  fun _ => .expectName (peels_trees c items) what

theorem Course.Carries.expectSemicolon : c.Carries items Script.expectSemicolon :=
  fun _ => .expectSemicolon (peels_trees c items)

theorem Course.Carries.recover (kind : Diagnostic.Kind) (recovery : KindSet) :
    c.Carries items (Script.recover kind recovery) := fun _ => .recover kind recovery

section Productions

variable (hc : c.IsReady)

include hc

/-! ### Operands -/

theorem carries_primary : c.Carries items primary := by
  refine .bind .look fun next => ?_
  split
  · exact .bind (.node rfl .take) fun _ => .pure _
  · exact .bind (.node rfl .take) fun _ => .pure _
  · exact .bind (.node rfl .take) fun _ => .pure _
  · exact .bind (carries_parenthesized hc.followed) fun _ => .pure _
  · exact .bind (carries_newExpr hc.followed hc.framed hc.makes hc.names) fun _ => .pure _
  · exact .ite (.bind (.node rfl .take) fun _ => .pure _) (.bind (.report _ _) fun _ => .pure _)
  · exact .bind (.report _ _) fun _ => .pure _

theorem carries_postfixForm : c.Carries items postfixForm := by
  refine .bind .look fun next => ?_
  split
  · exact .bind (.enclose rfl (.bind .take fun _ => .bind (.expectName _) fun _ => .pure _)) fun _ =>
      .pure _
  · exact .bind (.enclose rfl (carries_argumentList hc.followed)) fun _ => .pure _
  · exact .bind (.enclose rfl (carries_bracketed hc.followed _)) fun _ => .pure _
  · exact .bind (.enclose rfl .take) fun _ => .pure _
  · exact .bind (.enclose rfl .take) fun _ => .pure _
  · exact .pure _

theorem carries_operand : c.Carries items operand :=
  .frame (.bind (carries_primary hc) fun _ =>
    .ite (.repeatWhile (carries_postfixForm hc)) (.pure ()))

/-- A type in parentheses and the operand behind it. -/
def castExpression : Script Unit :=
  node .castExpr do
    take
    let _ ← readType
    expect .parenClose "`)`"
    call .unary

theorem carries_castExpression : c.Carries items castExpression :=
  .node rfl (.bind .take fun _ => .bind (carries_call hc.followed .type nofun) fun _ =>
    .bind (.expect _ _) fun _ => carries_call hc.followed .unary nofun)

/-- The type of a cast is what looking ahead steps over. -/
theorem over_castExpression {p : Place} {r : Unit × Place} (hp : p.IsSettled)
    (h : castExpression.read c.limit c.behind p = some r) :
    ∃ ks, Over false p.upcoming.tail ks := by
  rcases read_group h with ⟨p', q', hbody, hrest, _⟩
  rcases read_bind_some hbody with ⟨_, s, htake, hbody⟩
  rcases read_take (hp.of_rest hrest) htake with ⟨k, hk⟩
  rcases read_bind_some hbody with ⟨a, t, htype, _⟩
  rw [readType, read_call] at htype
  rw [← upcoming_of_rest hrest, hk]
  exact ⟨_, (hc.steps _ _ _ htype).2⟩

theorem carries_unaryScript : c.Carries items unaryScript := by
  refine .bind (.isAtOneOf _) fun _ => .ite ?_ fun i => ?_
  · exact .deeper (.node rfl (.bind .take fun _ => .bind (.isAtOneOf _) fun _ =>
      .ite (carries_call hc.followed .unary nofun) (.report _ _)))
  · exact Follows.ifCast (carries_castExpression hc i) (carries_operand hc i)
      fun hp h => over_castExpression hc hp h

/-! ### Expressions -/

theorem carries_binaryOperation (power : Nat) : c.Carries items (binaryOperation power) := by
  refine .bind .look fun next => ?_
  split
  · exact .pure _
  · split
    · exact .pure _
    · exact .ite (.pure _) (.bind (.enclose rfl (.bind .take fun _ => .bind (.isAtOneOf _) fun _ =>
        .ite (carries_call hc.followed _ nofun) (.report _ _))) fun _ => .pure _)

theorem carries_binaryScript (power : Nat) : c.Carries items (binaryScript power) :=
  .frame (.bind (carries_call hc.followed .unary nofun) fun _ =>
    .repeatWhile (carries_binaryOperation hc power))

theorem carries_conditional : c.Carries items conditional :=
  .frame (.bind (carries_call hc.followed _ nofun) fun _ => .bind (.isAt _) fun _ =>
    .ite (.enclose rfl (.bind .take fun _ => .bind (carries_exprRequired hc.followed _) fun _ =>
      .bind (.expect _ _) fun _ => carries_exprRequired hc.followed _)) (.pure ()))

omit hc in
theorem carries_lambdaParam : c.Carries items lambdaParam := .node rfl .take

omit hc in
theorem carries_lambdaParams : c.Carries items lambdaParams :=
  .node rfl (.bind (.isAt _) fun _ => .ite carries_lambdaParam
    (.bind .take fun _ => .bind (.repeatWhile (.bind (.isAt _) fun _ =>
      .ite (.bind carries_lambdaParam fun _ => .eat _) (.pure _))) fun _ => .expect _ _))

theorem carries_lambda : c.Carries items lambda :=
  .node rfl (.bind carries_lambdaParams fun _ => .bind (.expect _ _) fun _ => .bind (.isAt _) fun _ =>
    .ite (carries_block hc.followed) (carries_exprRequired hc.followed _))

omit hc in
/-- The parameters of a lambda are the names that looking ahead sees. -/
theorem names_lambda {p : Place} {r : Unit × Place} (hp : p.IsSettled)
    (h : lambda.read c.limit c.behind p = some r) {ks : List Kind}
    (hks : p.upcoming = .parenOpen :: ks) : Names ks := by
  rcases read_group h with ⟨p', q', hbody, hrest, _⟩
  rcases read_bind_some hbody with ⟨_, s, hparams, _⟩
  exact names_lambdaParams (hp.of_rest hrest) hparams ((upcoming_of_rest hrest).trans hks)

theorem carries_exprScript : c.Carries items exprScript := by
  refine .deeper fun i => Follows.ifLambda (carries_lambda hc i) ?_ fun hp h _ => names_lambda hp h
  exact Carries.frame (.bind (carries_conditional hc) fun _ => .bind (.isAtOneOf _) fun _ =>
    .ite (.enclose rfl (.bind .take fun _ => carries_exprRequired hc.followed _)) (.pure ())) i

/-! ### Statements -/

theorem carries_varDeclarator : c.Carries items varDeclarator :=
  .bind .skipTrivia fun _ => .node rfl (.bind (.expectName _) fun _ => .bind (.eat _) fun _ =>
    .ite (carries_exprRequired hc.followed _) (.pure ()))

theorem carries_varOrType : c.Carries items varOrType :=
  .bind (.eat _) fun _ => .ite (.pure ())
    (.bind (carries_call hc.followed .type nofun) fun _ => .pure ())

theorem carries_localDeclaration : c.Carries items localDeclaration :=
  .node rfl (.bind (carries_varOrType hc) fun _ => .bind (carries_varDeclarator hc) fun _ =>
    .bind (.whileTrue (.eat _) (carries_varDeclarator hc)) fun _ =>
      .bind .expectSemicolon fun _ => .pure ())

/-- The type of variables is what looking ahead steps over. -/
theorem over_localDeclaration {p : Place} {r : Unit × Place}
    (h : localDeclaration.read c.limit c.behind p = some r)
    (hvar : p.upcoming.head? ≠ some .kwVar) : ∃ ks, Over false p.upcoming ks := by
  rcases read_group h with ⟨p', q', hbody, hrest, _⟩
  rcases read_bind_some hbody with ⟨_, s, htype, _⟩
  rcases read_bind_some htype with ⟨b, t, heat, htype⟩
  rcases read_eat heat with ⟨_, hhead⟩ | ⟨rfl, _, rfl⟩
  · rw [← upcoming_of_rest hrest, hhead] at hvar
    exact absurd rfl hvar
  · rcases read_bind_some htype with ⟨a, w, htype, _⟩
    rw [readType, read_call] at htype
    rw [← upcoming_of_rest hrest, ← upcoming_skip]
    exact ⟨_, (hc.steps _ _ _ htype).2⟩

theorem carries_exprIfAny : c.Carries items exprIfAny :=
  .bind (.isAtOneOf _) fun _ => .ite (carries_call hc.followed .expr nofun) (.pure ())

theorem carries_parenthesizedCondition : c.Carries items parenthesizedCondition :=
  .bind (.isAt _) fun _ => .ite (.delimited (carries_exprRequired hc.followed _) _ _) (.report _ _)

theorem carries_embeddedStatement : c.Carries items embeddedStatement :=
  .bind (.isBefore _) fun _ => .ite (carries_call hc.followed .stmt nofun) (.report _ _)

theorem carries_returnStatement : c.Carries items returnStatement :=
  .node rfl (.bind .take fun _ => .bind (carries_exprIfAny hc) fun _ =>
    .bind .expectSemicolon fun _ => .pure ())

theorem carries_ifStatement : c.Carries items ifStatement :=
  .node rfl (.bind .take fun _ => .bind (carries_parenthesizedCondition hc) fun _ =>
    .bind (carries_embeddedStatement hc) fun _ => .bind (.eat _) fun _ =>
      .ite (carries_embeddedStatement hc) (.pure ()))

theorem carries_foreachStatement : c.Carries items foreachStatement := by
  refine .node rfl (.bind .take fun _ => .bind (.isAt _) fun _ => .ite (fun i => ?_) (.report _ _))
  have hO := peels_trees c false
  exact .bind (.takeOpening hO) fun _ => .bind (carries_varOrType hc (i + 1)) fun _ =>
    .bind (.expectName hO _) fun _ => .bind (.expect hO _ _) fun _ =>
      .bind (carries_exprRequired hc.followed _ (i + 1)) fun _ =>
        .bind (.expectClosing hO _ _) fun _ => carries_embeddedStatement hc i

theorem carries_expressionStatement : c.Carries items expressionStatement :=
  .node rfl (.bind (carries_call hc.followed .expr nofun) fun _ => .bind .expectSemicolon fun _ =>
    .ite (.pure ()) (.bind (.isAtOneOf _) fun _ => .ite (.pure ())
      (.bind (.recover _ _) fun _ => .bind (.eat _) fun _ => .pure ())))

theorem carries_plainStatement (first : Option Kind) : c.Carries items (plainStatement first) :=
  fun i => Follows.ifLocal (carries_localDeclaration hc i)
    (Carries.ite (carries_expressionStatement hc) (.reportAndTake _) i)
    fun _ h hvar => over_localDeclaration hc h hvar

theorem carries_stmtScript : c.Carries items stmtScript := by
  refine .deeper (.bind .look fun next => ?_)
  split
  · exact carries_block hc.followed
  · exact carries_returnStatement hc
  · exact carries_ifStatement hc
  · exact carries_foreachStatement hc
  · exact .node rfl .take
  · exact carries_plainStatement hc _

end Productions

end Grammar

end Nominal
