import Nominal.Proofs.Nested.Rules
import Nominal.Proofs.Limited

/-!
# The Limit on Depth Bounds the Nesting of Trees

Every production stays within the levels that are left, or within one more. Expressions and
statements go down a level before they collect anything, and so they are the productions that
stay within the levels left; what is read below them has one level less, which makes up for the
one node of a counted kind that stands around it.

A tree that there is under a limit is therefore nested at most one deeper than the limit. Since
a looser limit makes no difference to a tree that there is, a source whose tree is nested deeper
is turned down under that limit. Either the limit on depth is met, or the run is stuck on the
way back out of the nesting.

## Main definitions

* `Production.slack`: How much further than the levels left a production may go.
* `Confined`: The productions that are referred to stay within their bounds.

## Theorems

* `stays_exprScript`, `stays_stmtScript`, `stays_memberScript`: What these productions stay
  within.
* `confined_runProduction`: Every production stays within its bound.
* `nesting_le`: A tree is nested at most one deeper than the limit.
* `parse_nested`: No lineage has more nodes of the counted kinds than that, and what would have
  more is turned down.
-/

namespace Nominal

namespace Grammar

open Syntax (Kind KindSet Lexeme Tree)
open Stays

/-- How much further than the levels left a production may go: it is none for the productions
    that go down a level themselves, and for types, which have no counted nodes. -/
def Production.slack : Production → Nat
  | .stmt | .expr | .type => 0
  | .items _ | .member | .binary _ | .unary => 1

/-- The productions that are referred to stay within their bounds. -/
def Confined (setting : Setting) (productions : Productions) (limit : Nat) : Prop :=
  ∀ p : Production, Stays setting productions limit p.slack (Script.call p)

variable {setting : Setting} {productions : Productions} {limit k : Nat}

variable (hp : Confined setting productions limit)

include hp

/-! ### Types -/

theorem stays_readType : Stays setting productions limit k readType := (hp .type).mono k.zero_le

theorem stays_typeItem : Stays setting productions limit k typeItem := by
  refine bind (stays_readType hp) fun type => ?_
  cases type with
  | none => exact pure _
  | some kind => exact eat .comma

theorem stays_typeArguments : Stays setting productions limit k typeArguments :=
  node (bind take fun _ => bind (repeatWhile (stays_typeItem hp)) fun _ => expect .gt _)
    (Nat.le_refl k)

omit hp in
theorem stays_segments : Stays setting productions limit k (Script.whileTrue isAtSegment segment) :=
  whileTrue (bind (isAt .dot) fun _ => ite (nextIs .id) (pure _)) (bind take fun _ => expect .id _)

theorem stays_namedType : Stays setting productions limit k namedType :=
  node (bind take fun _ => bind stays_segments fun _ => bind (isAt .lt) fun _ =>
    ite (stays_typeArguments hp) (pure _)) (Nat.le_refl k)

omit hp in
theorem stays_typeMark (kind : Kind) : Stays setting productions limit k (typeMark kind) := by
  refine bind (perform rfl) fun next => ?_
  split
  · exact bind (nextIs _) fun _ => ite
      (bind (enclose (bind take fun _ => expect _ _) rfl) fun _ => pure _) (pure _)
  · exact ite (pure _) (bind (enclose take rfl) fun _ => pure _)
  · exact pure _

theorem stays_typeScript : Stays setting productions limit k typeScript := by
  refine bind (perform rfl) fun _ => frameStaying (bind (perform rfl) fun next => ?_)
  have hmarks : ∀ kind, Stays setting productions limit k (typeMarks kind) :=
    fun kind => loop stays_typeMark fun _ => pure _
  split
  · exact bind (node take (Nat.le_refl k)) fun _ => hmarks _
  · exact bind (stays_namedType hp) fun _ => hmarks _
  · exact bind (report _ _) fun _ => pure _

/-! ### Expressions -/

theorem stays_expr : Stays setting productions limit k (Script.call .expr) :=
  (hp .expr).mono k.zero_le

theorem stays_exprRequired (what : String) :
    Stays setting productions limit k (exprRequired what) :=
  bind (isAtOneOf _) fun _ => ite (stays_expr hp) (report _ _)

theorem stays_stmt : Stays setting productions limit k (Script.call .stmt) :=
  (hp .stmt).mono k.zero_le

theorem stays_block : Stays setting productions limit 1 block :=
  node (bind (perform rfl) fun _ => bind takeOpening fun _ =>
    bind (whileTrue (isBefore _) (stays_stmt hp)) fun _ => expectClosing _ _) (Nat.le_refl 1)

omit hp in
theorem stays_commaList {item : Script Unit} (close : Kind) (unclosed : Diagnostic.Kind)
    (hitem : Stays setting productions limit k item) :
    Stays setting productions limit k (commaList close unclosed item) := by
  refine bind takeOpening fun _ => bind (repeatWhile ?_) fun _ => expectClosing _ _
  refine bind (isBefore close) fun _ => ite (bind (isAtOneOf _) fun _ => ite ?_ ?_) (pure _)
  · exact bind hitem fun _ => eat .comma
  · exact bind (isAtOneOf _) fun _ => ite (pure _) (bind (reportAndTake _) fun _ => pure _)

theorem stays_argumentList : Stays setting productions limit 1 argumentList :=
  node (stays_commaList _ _ (stays_expr hp)) (Nat.le_refl 1)

theorem stays_anonymousMember : Stays setting productions limit k anonymousMember :=
  node (bind (isAtPair _ _) fun _ => ite
    (bind take fun _ => bind (expect _ _) fun _ => stays_exprRequired hp _) (stays_expr hp))
    (Nat.le_refl k)

theorem stays_initializerElement : Stays setting productions limit k initializerElement :=
  bind (isAtPair _ _) fun _ => ite
    (node (bind take fun _ => bind (expect _ _) fun _ => stays_exprRequired hp _) (Nat.le_refl k))
    (stays_expr hp)

theorem stays_objectInitializer : Stays setting productions limit 1 objectInitializer :=
  node (stays_commaList _ _ (stays_initializerElement hp)) (Nat.le_refl 1)

theorem stays_arrayInitializer : Stays setting productions limit 1 arrayInitializer :=
  node (stays_commaList _ _ (stays_expr hp)) (Nat.le_refl 1)

theorem stays_arrayInitializerRequired :
    Stays setting productions limit 1 arrayInitializerRequired :=
  bind (isAt _) fun _ => ite (stays_arrayInitializer hp) (report _ _)

theorem stays_bracketed (what : String) : Stays setting productions limit k (bracketed what) :=
  bind takeOpening fun _ => bind (stays_exprRequired hp what) fun _ => expectClosing _ _

theorem stays_argumentsIfAny : Stays setting productions limit 1 argumentsIfAny :=
  bind (isAt _) fun _ => ite (bind (stays_argumentList hp) fun _ => pure _) (pure _)

theorem stays_initializerOf (type : Option Kind) (hasArguments : Bool) :
    Stays setting productions limit 1 (initializerOf type hasArguments) :=
  bind (isAt _) fun _ => ite (stays_objectInitializer hp) (ite (report _ _) (pure _))

theorem stays_newOfType : Stays setting productions limit 1 newOfType := by
  refine bind (stays_readType hp) fun type => bind (isAt _) fun _ => ite ?_ (ite ?_ ?_)
  · exact enclose (bind (stays_bracketed hp _) fun _ => bind (isAt _) fun _ =>
      ite (stays_arrayInitializer hp) (pure _)) rfl
  · exact enclose (stays_arrayInitializerRequired hp) rfl
  · exact enclose (bind (stays_argumentsIfAny hp) fun _ => stays_initializerOf hp _ _) rfl

/-- The keyword and the members of an anonymous object stay within the levels left, so the
    node that encloses them in the end is one more. -/
theorem stays_newExpr : Stays setting productions limit 1 newExpr := by
  have hkeyword : ∀ {α : Type} {op : Op} {f : op.Answer → Script α}, op.keepsLevel = true →
      (∀ a, Reaches setting productions limit 0 (f a) 1) →
        Reaches setting productions limit 0 (Script.perform op >>= f) 1 :=
    fun hop hf => (perform (k := 0) hop).reaches (Nat.le_refl 0) (Nat.le_refl 0) |>.bind hf
  refine frame (hkeyword rfl fun _ => hkeyword rfl fun _ => hkeyword rfl fun next => ?_)
  have hother : ∀ {x : Script Unit}, Stays setting productions limit 1 x →
      Reaches setting productions limit 0 x 1 := by
    intro x hx s t a h
    rcases hx 1 (Nat.le_refl 1) s t a h with ⟨hdepth, ht⟩
    exact ⟨hdepth, fun hs => ht (Nat.le_succ_of_le hs)⟩
  split
  · have hmembers : Stays setting productions limit 0
        (commaList .braceClose .unclosedBrace anonymousMember) :=
      stays_commaList _ _ (stays_anonymousMember hp)
    exact (hmembers.reaches (Nat.le_refl 0) (Nat.le_refl 0)).enclose (Nat.le_refl 1)
  · exact hother (enclose (bind take fun _ => bind (expect _ _) fun _ =>
      stays_arrayInitializerRequired hp) rfl)
  · exact hother (stays_newOfType hp)
  · exact hother (stays_newOfType hp)
  · exact hother (enclose (report _ _) rfl)

theorem stays_parenthesized : Stays setting productions limit 1 parenthesized :=
  node (bind takeOpening fun _ => bind (stays_exprRequired hp _) fun _ => expectClosing _ _)
    (Nat.le_refl 1)

theorem stays_primary : Stays setting productions limit 1 primary := by
  have hleaf : ∀ kind : Kind, kind.isNested = false →
      Stays setting productions limit 1 (Script.node kind Script.take) := fun kind hkind =>
    node (j := 1) take (by rw [hkind]; exact Nat.le_refl 1)
  refine bind (perform rfl) fun next => ?_
  split
  · exact bind (hleaf .nameRef rfl) fun _ => pure _
  · exact bind (hleaf .nameRef rfl) fun _ => pure _
  · exact bind (hleaf .thisExpr rfl) fun _ => pure _
  · exact bind (stays_parenthesized hp) fun _ => pure _
  · exact bind (stays_newExpr hp) fun _ => pure _
  · exact ite (bind (hleaf .literal rfl) fun _ => pure _) (bind (report _ _) fun _ => pure _)
  · exact bind (report _ _) fun _ => pure _

theorem stays_postfixForm : Stays setting productions limit 1 postfixForm := by
  refine bind (perform rfl) fun next => ?_
  split
  · exact bind (enclose (bind take fun _ => bind (expectName _) fun _ => pure _) rfl)
      fun _ => pure _
  · exact bind (enclose (stays_argumentList hp) rfl) fun _ => pure _
  · exact bind (enclose (stays_bracketed hp _) rfl) fun _ => pure _
  · exact bind (enclose take rfl) fun _ => pure _
  · exact bind (enclose take rfl) fun _ => pure _
  · exact pure _

theorem stays_operand : Stays setting productions limit 1 operand :=
  frameStaying (bind (stays_primary hp) fun _ =>
    ite (repeatWhile (stays_postfixForm hp)) (pure _))

/-- The operand of a prefix operator is one level further down, behind a node of a counted
    kind. That of a cast is not, which stands behind a node that is not counted. -/
theorem stays_unaryScript (hlimit : setting.depthLimit = some limit) :
    Stays setting productions limit 1 unaryScript := by
  refine bind (isAtOneOf _) fun _ => ite ?_ (bind ?_ fun _ => ite ?_ (stays_operand hp))
  · exact deeper hlimit (node (j := 1) (bind take fun _ => bind (isAtOneOf _) fun _ =>
      ite (hp .unary) (report _ _)) (Nat.le_refl 2))
  · exact bind (isAt _) fun _ => ite (bind (perform rfl) fun _ => pure _) (pure _)
  · exact node (bind take fun _ => bind (stays_readType hp) fun _ => bind (expect _ _) fun _ =>
      hp .unary) (Nat.le_refl 1)

theorem stays_binaryOperation (power : Nat) :
    Stays setting productions limit 1 (binaryOperation power) := by
  refine bind (perform rfl) fun next => ?_
  cases next with
  | none => exact pure _
  | some op =>
      dsimp only
      cases bindingPower? op with
      | none => exact pure _
      | some tightness =>
          refine ite (pure _) (bind (enclose ?_ rfl) fun _ => pure _)
          exact bind take fun _ => bind (isAtOneOf _) fun _ => ite (hp (.binary _)) (report _ _)

theorem stays_binaryScript (power : Nat) :
    Stays setting productions limit 1 (binaryScript power) :=
  frameStaying (bind (hp .unary) fun _ => repeatWhile (stays_binaryOperation hp power))

theorem stays_conditional : Stays setting productions limit 1 conditional := by
  refine frameStaying (bind (hp (.binary 1)) fun _ => bind (isAt _) fun _ =>
    ite (enclose ?_ rfl) (pure _))
  exact bind take fun _ => bind (stays_exprRequired hp _) fun _ =>
    bind (expect _ _) fun _ => stays_exprRequired hp _

omit hp in
theorem stays_lambdaParams : Stays setting productions limit k lambdaParams := by
  have hparam : Stays setting productions limit k lambdaParam := node take (Nat.le_refl k)
  have hitem : Stays setting productions limit k lambdaParamItem :=
    bind (isAt _) fun _ => ite (bind hparam fun _ => eat _) (pure _)
  exact node (bind (isAt _) fun _ => ite hparam (bind take fun _ =>
    bind (repeatWhile hitem) fun _ => expect _ _)) (Nat.le_refl k)

theorem stays_lambda : Stays setting productions limit 1 lambda :=
  node (bind stays_lambdaParams fun _ => bind (expect _ _) fun _ => bind (isAt _) fun _ =>
    ite (stays_block hp) (stays_exprRequired hp _)) (Nat.le_refl 1)

theorem stays_exprScript (hlimit : setting.depthLimit = some limit) :
    Stays setting productions limit 0 exprScript := by
  refine deeper hlimit (bind ?_ fun _ => ite (stays_lambda hp) (frameStaying ?_))
  · refine bind (perform rfl) fun next => ?_
    split
    · exact bind (perform rfl) fun _ => pure _
    · exact bind (perform rfl) fun _ => pure _
    · exact pure _
  · exact bind (stays_conditional hp) fun _ => bind (isAtOneOf _) fun _ =>
      ite (enclose (bind take fun _ => stays_exprRequired hp _) rfl) (pure _)

/-! ### Statements -/

theorem stays_varDeclarator : Stays setting productions limit k varDeclarator :=
  bind (perform rfl) fun _ => node (bind (expectName _) fun _ =>
    bind (eat _) fun _ => ite (stays_exprRequired hp _) (pure _)) (Nat.le_refl k)

theorem stays_varOrType : Stays setting productions limit k varOrType :=
  bind (eat _) fun _ => ite (pure _) (bind (stays_readType hp) fun _ => pure _)

theorem stays_localDeclaration : Stays setting productions limit 1 localDeclaration :=
  node (bind (stays_varOrType hp) fun _ => bind (stays_varDeclarator hp) fun _ =>
    bind (whileTrue (eat _) (stays_varDeclarator hp)) fun _ =>
    bind expectSemicolon fun _ => pure _) (Nat.le_refl 1)

theorem stays_returnStatement : Stays setting productions limit 1 returnStatement := by
  have hvalue : Stays setting productions limit 0 exprIfAny :=
    bind (isAtOneOf _) fun _ => ite (stays_expr hp) (pure _)
  exact node (bind take fun _ => bind hvalue fun _ => bind expectSemicolon fun _ => pure _)
    (Nat.le_refl 1)

theorem stays_parenthesizedCondition :
    Stays setting productions limit k parenthesizedCondition :=
  bind (isAt _) fun _ => ite (bind takeOpening fun _ => bind (stays_exprRequired hp _) fun _ =>
    expectClosing _ _) (report _ _)

theorem stays_embeddedStatement : Stays setting productions limit k embeddedStatement :=
  bind (isBefore _) fun _ => ite (stays_stmt hp) (report _ _)

theorem stays_ifStatement : Stays setting productions limit 1 ifStatement :=
  node (bind take fun _ => bind (stays_parenthesizedCondition hp) fun _ =>
    bind (stays_embeddedStatement hp) fun _ => bind (eat _) fun _ =>
    ite (stays_embeddedStatement hp) (pure _)) (Nat.le_refl 1)

theorem stays_foreachStatement : Stays setting productions limit 1 foreachStatement := by
  refine node (bind take fun _ => bind (isAt _) fun _ => ite ?_ (report _ _)) (Nat.le_refl 1)
  exact bind takeOpening fun _ => bind (stays_varOrType hp) fun _ => bind (expectName _) fun _ =>
    bind (expect _ _) fun _ => bind (stays_exprRequired hp _) fun _ =>
    bind (expectClosing _ _) fun _ => stays_embeddedStatement hp

theorem stays_expressionStatement : Stays setting productions limit 1 expressionStatement := by
  refine node (bind (stays_expr hp) fun _ => bind expectSemicolon fun _ => ite (pure _)
    (bind (isAtOneOf _) fun _ => ite (pure _) (bind (recover _ _) fun _ => ?_))) (Nat.le_refl 1)
  exact bind (eat _) fun _ => pure _

theorem stays_plainStatement (first : Option Kind) :
    Stays setting productions limit 1 (plainStatement first) :=
  bind (bind (perform rfl) fun _ => bind (perform rfl) fun _ => pure _) fun _ =>
    ite (stays_localDeclaration hp) (ite (stays_expressionStatement hp) (reportAndTake _))

theorem stays_stmtScript (hlimit : setting.depthLimit = some limit) :
    Stays setting productions limit 0 stmtScript := by
  refine deeper hlimit (bind (perform rfl) fun first => ?_)
  split
  · exact stays_block hp
  · exact stays_returnStatement hp
  · exact stays_ifStatement hp
  · exact stays_foreachStatement hp
  · exact node take (Nat.le_refl 1)
  · exact stays_plainStatement hp _

/-! ### Declarations -/

omit hp in
theorem stays_dottedPath (what : String) : Stays setting productions limit k (dottedPath what) :=
  bind (isAt _) fun _ => ite (node (bind take fun _ => stays_segments) (Nat.le_refl k))
    (report _ _)

omit hp in
theorem stays_usingDirective : Stays setting productions limit k usingDirective :=
  node (bind (perform rfl) fun _ => bind take fun _ => bind (stays_dottedPath _) fun _ =>
    bind expectSemicolon fun _ => pure _) (Nat.le_refl k)

theorem stays_namespaceDeclaration : Stays setting productions limit 1 namespaceDeclaration := by
  refine node (bind (perform rfl) fun _ => bind take fun _ => bind (stays_dottedPath _) fun _ =>
    bind (eat _) fun _ => ite (hp (.items false)) (bind (isAt _) fun _ => ite ?_ (report _ _)))
    (Nat.le_refl 1)
  exact bind takeOpening fun _ => bind (hp (.items true)) fun _ => expectClosing _ _

omit hp in
theorem stays_modifiers : Stays setting productions limit k modifiers := by
  have hat : Stays setting productions limit k isAtModifier := bind (perform rfl) fun _ => pure _
  exact bind hat fun _ => ite (bind take fun _ => bind (whileTrue hat take) fun _ => pure _)
    (pure _)

/-- A type with its members may stand below any number of others at the same level. -/
theorem stays_typeFromKeyword : Stays setting productions limit 1 typeFromKeyword := by
  have hkeyword : Stays setting productions limit 1 eatTypeKeyword :=
    bind (eat _) fun _ => ite (pure _) (eat _)
  have hbases : Stays setting productions limit 1 baseListIfAny :=
    bind (isAt _) fun _ => ite
      (node (bind take fun _ => repeatWhile (stays_typeItem hp)) (Nat.le_refl 1)) (pure _)
  have hbody : Stays setting productions limit 1 typeBody :=
    bind (isAt _) fun _ => ite (bind takeOpening fun _ =>
      bind (whileTrue (isBefore _) (hp .member)) fun _ => expectClosing _ _) (report _ _)
  exact enclose (bind hkeyword fun _ => ite (bind (expectName _) fun _ => bind hbases fun _ =>
    hbody) (report _ _)) rfl

theorem stays_typeDeclaration : Stays setting productions limit 1 typeDeclaration :=
  frameStaying (bind stays_modifiers fun _ => stays_typeFromKeyword hp)

theorem stays_paramItem : Stays setting productions limit k paramItem := by
  have hparam : Stays setting productions limit k param :=
    node (bind (stays_readType hp) fun _ => bind (expectName _) fun _ => bind (eat _) fun _ =>
      ite (stays_exprRequired hp _) (pure _)) (Nat.le_refl k)
  refine bind (isBefore _) fun _ => ite (bind (perform rfl) fun next => ?_) (pure _)
  split
  · exact bind hparam fun _ => eat _
  · exact bind hparam fun _ => eat _
  · exact bind (isAtOneOf _) fun _ => ite (pure _) (bind (reportAndTake _) fun _ => pure _)

theorem stays_paramList : Stays setting productions limit k paramList :=
  node (bind (isAt _) fun _ => ite (bind takeOpening fun _ =>
    bind (repeatWhile (stays_paramItem hp)) fun _ => expectClosing _ _) (report _ _))
    (Nat.le_refl k)

theorem stays_body (what : String) : Stays setting productions limit 1 (body what) := by
  refine bind (perform rfl) fun next => ?_
  split
  · exact stays_block hp
  · exact bind take fun _ => bind (stays_exprRequired hp _) fun _ =>
      bind expectSemicolon fun _ => pure _
  · exact bind expectSemicolon fun _ => pure _

theorem stays_accessor : Stays setting productions limit 1 accessor := by
  have hat : Stays setting productions limit 1 isAtAccessor :=
    bind (perform rfl) fun _ => bind (isAt _) fun _ => ite (pure _) (pure _)
  exact frameStaying (bind stays_modifiers fun _ => bind hat fun _ =>
    ite (enclose (bind take fun _ => stays_body hp _) rfl) (reportAndTake _))

theorem stays_accessorList : Stays setting productions limit 1 accessorList :=
  node (bind takeOpening fun _ => bind (whileTrue (isBefore _) (stays_accessor hp)) fun _ =>
    expectClosing _ _) (Nat.le_refl 1)

theorem stays_memberName : Stays setting productions limit 1 memberName := by
  refine frameStaying (bind (expectName _) fun named => bind (perform rfl) fun next => ?_)
  refine ite (pure _) (ite (pure _) (ite (pure _) (bind ?_ fun _ => pure _)))
  exact ite (enclose (bind (eat _) fun _ => ite (stays_exprRequired hp _) (pure _)) rfl) (pure _)

theorem stays_memberRest (shape : MemberShape) :
    Stays setting productions limit 1 (memberRest shape) := by
  cases shape with
  | method => exact enclose (bind (stays_paramList hp) fun _ => stays_body hp _) rfl
  | property =>
      exact enclose (bind (stays_accessorList hp) fun _ => bind (eat _) fun _ =>
        ite (bind (stays_exprRequired hp _) fun _ => bind expectSemicolon fun _ => pure _)
          (pure _)) rfl
  | computedProperty =>
      exact enclose (bind take fun _ => bind (stays_exprRequired hp _) fun _ =>
        bind expectSemicolon fun _ => pure _) rfl
  | field named =>
      exact enclose (bind (ite (whileTrue (eat _) (stays_varDeclarator hp)) (pure _)) fun _ =>
        bind expectSemicolon fun _ => pure _) rfl

theorem stays_memberScript : Stays setting productions limit 1 memberScript := by
  have htyped : Stays setting productions limit 1 typedMember :=
    bind (stays_readType hp) fun _ => bind (stays_memberName hp) fun _ => stays_memberRest hp _
  refine frameStaying (bind stays_modifiers fun _ => bind (perform rfl) fun next => ?_)
  split
  · exact stays_typeFromKeyword hp
  · exact stays_typeFromKeyword hp
  · exact bind (nextIs _) fun _ => ite (enclose (bind take fun _ =>
      bind (stays_paramList hp) fun _ => stays_body hp _) rfl) htyped
  · exact enclose (bind take fun _ => bind (expectName _) fun _ =>
      bind (stays_paramList hp) fun _ => stays_body hp _) rfl
  · exact htyped
  · exact ite (report _ _) (recover _ _)

theorem stays_itemsScript (braced : Bool) :
    Stays setting productions limit 1 (itemsScript braced) := by
  refine repeatWhile (bind (perform rfl) fun _ => ite (pure _) (bind (perform rfl) fun next => ?_))
  split
  · exact bind stays_usingDirective fun _ => pure _
  · exact bind (stays_namespaceDeclaration hp) fun _ => pure _
  · exact bind (stays_typeDeclaration hp) fun _ => pure _
  · exact bind (stays_typeDeclaration hp) fun _ => pure _
  · exact ite (pure _) (ite (bind (stays_typeDeclaration hp) fun _ => pure _)
      (bind (stays_stmt hp) fun _ => pure _))
  · exact bind (stays_stmt hp) fun _ => pure _

omit hp

/-! ### Whole trees -/

/-- Every production stays within its bound. -/
theorem confined_runProduction (hlimit : setting.depthLimit = some limit) (n : Nat) :
    Confined setting (runProduction setting n) limit := by
  -- The induction is on how many references may follow each other.
  induction n with
  | zero =>
      intro p q _ s t a h
      rw [exec_call] at h
      cases h
  | succ n ih =>
      intro p q hq s t a h
      rw [exec_call] at h
      cases p with
      | items braced => exact stays_itemsScript ih braced q hq s t a h
      | member => exact stays_memberScript ih q hq s t a h
      | stmt => exact stays_stmtScript ih hlimit q hq s t a h
      | expr => exact stays_exprScript ih hlimit q hq s t a h
      | binary power => exact stays_binaryScript ih power q hq s t a h
      | unary => exact stays_unaryScript ih hlimit q hq s t a h
      | type => exact stays_typeScript ih q hq s t a h

/-- A tree is nested at most one deeper than the limit. -/
theorem nesting_le {limits : Limits} (hlimit : limits.depth = some limit) {lexemes : List Lexeme}
    {parsed : Parsed} (h : parseLexemes limits lexemes = .ok parsed) :
    parsed.tree.nesting ≤ limit + 1 := by
  rcases runFile_of_ok h with ⟨s, hrun, hlost, hresult⟩
  have hfile : Stays ⟨limits.depth, Lexeme.widthOf lexemes⟩ (runProduction _
      (levels * (lexemes.length + 1))) limit 1 fileScript :=
    bind (confined_runProduction hlimit _ (.items false)) fun _ => perform rfl
  have hnested := (hfile 1 (Nat.le_refl 1) _ s () hrun).2 (Nat.zero_le _)
  rw [State.result, hlost] at hresult
  cases hresult
  exact hnested

/-- A source that has a tree under one limit on depth, but not under another one, is turned down
    there for its depth or because the run is stuck. As many tokens may be taken as before. -/
theorem turnedDown_of_depth {tokens : Option Nat} {tight loose : Option Nat}
    {lexemes : List Lexeme} {parsed : Parsed}
    (hloose : parseLexemes ⟨tokens, loose⟩ lexemes = .ok parsed)
    (hnot : ∀ parsed, parseLexemes ⟨tokens, tight⟩ lexemes ≠ .ok parsed) :
    parseLexemes ⟨tokens, tight⟩ lexemes = .error (.exceeded .depth) ∨
      parseLexemes ⟨tokens, tight⟩ lexemes = .error .stuck := by
  cases hparse : parseLexemes ⟨tokens, tight⟩ lexemes with
  | ok parsed => exact absurd hparse (hnot parsed)
  | error failure =>
      cases failure with
      | exceeded limit =>
          cases limit with
          | depth => exact .inl rfl
          | tokens =>
              rcases runFile_of_ok hloose with ⟨s, hrun, hlost, -⟩
              rcases runFile_of_exceeded hparse with ⟨t, hrun', hlost'⟩
              have htaken := taken_runFile (Lexeme.bare lexemes).length hrun hlost
              rcases (counted_runFile hrun').beyond hlost' with ⟨fuel, hfuel, hlt⟩
              have hwithin := (counted_runFile hrun).within hlost fuel hfuel
              have hall : t.taken (Lexeme.bare lexemes).length ≤ (Lexeme.bare lexemes).length :=
                Nat.sub_le _ _
              omega
      | stuck => exact .inr rfl
      | broken fault =>
          rw [parseLexemes_eq_watch] at hparse
          cases hwatch : watchFile ⟨tokens, tight⟩ lexemes with
          | ok u s =>
              rw [hwatch, Outcome.result, State.result] at hparse
              split at hparse <;> cases hparse
          | stuck =>
              rw [hwatch] at hparse
              cases hparse
          | broken fault' => exact absurd hwatch (watchFile_not_broken _ _ fault')

/-- The limit on depth bounds how deep blocks, statements, initializers, arguments, parentheses
    and prefix operators are nested. Where there is a tree, at most one more of these nodes than
    the limit stand on any lineage, all kinds together. A source whose tree without a limit has
    more of them on some lineage is turned down under the limit: its depth exceeds it, or the run
    is stuck. -/
theorem parse_nested (tokens : Option Nat) (limit : Nat) (source : String) :
    (∀ parsed, parseWith ⟨tokens, some limit⟩ source = .ok parsed →
      ∀ l ∈ parsed.tree.locations, Tree.countNested l.lineage ≤ limit + 1) ∧
    ∀ parsed, parseWith ⟨tokens, none⟩ source = .ok parsed →
      ∀ l ∈ parsed.tree.locations, limit + 1 < Tree.countNested l.lineage →
        parseWith ⟨tokens, some limit⟩ source = .error (.exceeded .depth) ∨
          parseWith ⟨tokens, some limit⟩ source = .error .stuck := by
  constructor
  · intro parsed hparsed l hl
    exact Nat.le_trans (Tree.countNested_le_nesting hl) (nesting_le rfl hparsed)
  · intro parsed hparsed l hl hdeep
    refine turnedDown_of_depth hparsed fun parsed' hparsed' => ?_
    -- A tree under the limit would be the same tree.
    have hloosen : Limits.Loosen ⟨tokens, some limit⟩ ⟨tokens, none⟩ := by
      refine ⟨?_, trivial⟩
      cases tokens with
      | none => trivial
      | some n => exact Nat.le_refl n
    rcases parseLexemes_loosened hloosen hparsed' with ⟨parsed'', hloose, htree, -⟩
    cases hloose.symm.trans hparsed
    rw [htree] at hl
    have hnested := Nat.le_trans (Tree.countNested_le_nesting hl) (nesting_le rfl hparsed')
    omega

/-- Types are nested here as deep as blocks are, but only the blocks are counted: one level is
    enough for two of them, and too little without it. -/
theorem parse_nested_blocks :
    ∃ source parsed parsed', source = "class A { class B { class C { void M() { { } } } } }" ∧
      parseWith ⟨none, some 1⟩ source = .ok parsed ∧
      (∀ l ∈ parsed.tree.locations, Tree.countNested l.lineage ≤ 1 + 1) ∧
      parseWith ⟨none, none⟩ source = .ok parsed' ∧
      (∃ l ∈ parsed'.tree.locations, 0 + 1 < Tree.countNested l.lineage) ∧
      (parseWith ⟨none, some 0⟩ source = .error (.exceeded .depth) ∨
        parseWith ⟨none, some 0⟩ source = .error .stuck) := by
  generalize hsource : "class A { class B { class C { void M() { { } } } } }" = source
  have hok : (parseWith ⟨none, some 1⟩ source).isOk = true := by
    rw [← hsource]
    decide +kernel
  have hdeep : ((parseWith ⟨none, none⟩ source).toOption.any fun parsed =>
      parsed.tree.locations.any fun l => 0 + 1 < Tree.countNested l.lineage) = true := by
    rw [← hsource]
    decide +kernel
  cases hparse : parseWith ⟨none, some 1⟩ source with
  | error failure =>
      rw [hparse] at hok
      cases hok
  | ok parsed =>
      cases hloose : parseWith ⟨none, none⟩ source with
      | error failure =>
          rw [hloose] at hdeep
          cases hdeep
      | ok parsed' =>
          rw [hloose] at hdeep
          rcases List.any_eq_true.mp hdeep with ⟨l, hl, hcount⟩
          rw [decide_eq_true_iff] at hcount
          exact ⟨source, parsed, parsed', rfl, hparse,
            (parse_nested none 1 source).1 parsed hparse, hloose, ⟨l, hl, hcount⟩,
            (parse_nested none 0 source).2 parsed' hloose l hl hcount⟩

end Grammar

end Nominal
