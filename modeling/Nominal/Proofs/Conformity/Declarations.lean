import Nominal.Proofs.Conformity.Expressions

/-!
# Trees Have the Shapes of Their Kinds

What the productions of statements and declarations collect, and from that what all of
them do. The induction over the nesting of references takes away the assumption under
which each production was followed: where no more references are allowed, there is no
answer, and so nothing to be shown.

So every tree that the parser makes conforms, whatever is wrong with its source.

## Theorems

* `builds_stmtScript`, `builds_memberScript`, `builds_itemsScript`: What these productions
  collect.
* `fulfilled_runProduction`: Every production collects what it has to.
* `conforms_parseLexemes`: The tree of some lexemes conforms.
-/

namespace Nominal

namespace Grammar

open Syntax (Kind KindSet Lexeme Tree Slot Fits)
open Builds

variable {setting : Setting} {productions : Productions} {ps : List Slot}

variable (hf : Fulfilled setting productions)

include hf

/-! ### Statements -/

theorem builds_varDeclarator :
    Builds setting productions varDeclarator ps fun _ => ps ++ [.one [.varDeclarator]] := by
  refine bind (perform .skipTrivia) fun _ => node (bind (expectName _) fun _ =>
    bind (eat _) fun _ => ite (builds_exprRequired hf _) (pad (pure _) [.one Kind.expressions]))
    (fun _ => by decide) nofun nofun

theorem builds_declarators (os : List Slot) :
    Builds setting productions varDeclarator (os ++ [.many [.varDeclarator]])
      fun _ => os ++ [.many [.varDeclarator]] :=
  merge os (builds_varDeclarator hf) (by decide)

theorem builds_varOrType :
    Builds setting productions varOrType ps fun _ => ps ++ [.one Kind.types] :=
  bind (eat _) fun _ => ite (pad (pure _) _) (bind (hf .type _) fun _ => pure _)

theorem builds_localDeclaration :
    Builds setting productions localDeclaration ps fun _ => ps ++ [.one [.localDecl]] := by
  refine node (bind (builds_varOrType hf) fun _ => bind ?_ fun _ =>
    bind (whileTrue (eat _) (builds_declarators hf [.one Kind.types])) fun _ =>
    bind expectSemicolon fun _ => pure _) (fun _ => by decide) nofun nofun
  exact mono (builds_varDeclarator hf) fun _ => by decide

theorem builds_exprIfAny :
    Builds setting productions exprIfAny ps fun _ => ps ++ [.one Kind.expressions] :=
  bind (isAtOneOf _) fun _ => ite (hf .expr _) (pad (pure _) _)

theorem builds_returnStatement :
    Builds setting productions returnStatement ps fun _ => ps ++ [.one [.returnStmt]] :=
  node (bind (perform .take) fun _ => bind (builds_exprIfAny hf) fun _ =>
    bind expectSemicolon fun _ => pure _) (fun _ => by decide) nofun nofun

theorem builds_parenthesizedCondition :
    Builds setting productions parenthesizedCondition ps fun _ => ps ++ [.one Kind.expressions] :=
  bind (isAt _) fun _ => ite (bind takeOpening fun _ => bind (builds_exprRequired hf _) fun _ =>
    expectClosing _ _) (pad (perform (.report _ _)) _)

theorem builds_embeddedStatement :
    Builds setting productions embeddedStatement ps fun _ => ps ++ [.one Kind.statements] :=
  bind (isBefore _) fun _ => ite (hf .stmt _) (pad (perform (.report _ _)) _)

theorem builds_ifStatement :
    Builds setting productions ifStatement ps fun _ => ps ++ [.one [.ifStmt]] := by
  refine node (bind (perform .take) fun _ => bind (builds_parenthesizedCondition hf) fun _ =>
    bind (builds_embeddedStatement hf) fun _ => bind (eat _) fun _ =>
    ite (builds_embeddedStatement hf) (pad (pure _) _)) (fun _ => by decide) nofun nofun

theorem builds_foreachStatement :
    Builds setting productions foreachStatement ps fun _ => ps ++ [.one [.foreachStmt]] := by
  have hrest : Builds setting productions
      (do Script.takeOpening
          varOrType
          let _ ← Script.expectName "loop variable"
          Script.expect .kwIn "`in`"
          exprRequired "collection"
          Script.expectClosing .parenClose .unclosedParen
          embeddedStatement : Script Unit) [] fun _ => Kind.slots .foreachStmt :=
    bind takeOpening fun _ => bind (builds_varOrType hf) fun _ => bind (expectName _) fun _ =>
      bind (expect _ _) fun _ => bind (builds_exprRequired hf _) fun _ =>
      bind (expectClosing _ _) fun _ => builds_embeddedStatement hf
  exact node (bind (perform .take) fun _ => bind (isAt _) fun _ =>
    ite hrest (pad (perform (.report _ _)) _)) (fun _ => by decide) nofun nofun

theorem builds_expressionStatement :
    Builds setting productions expressionStatement ps fun _ => ps ++ [.one [.exprStmt]] := by
  refine node (bind (hf .expr _) fun _ => bind expectSemicolon fun _ => ite (pure _)
    (bind (isAtOneOf _) fun _ => ite (pure _) (bind (recover _ _) fun _ => ?_)))
    (fun _ => by decide) nofun nofun
  exact bind (eat _) fun _ => pure _

theorem builds_plainStatement (first : Option Kind) :
    Builds setting productions (plainStatement first) ps fun _ => ps ++ [.one Kind.statements] := by
  refine bind (bind (perform .look) fun _ => bind (perform .upcoming) fun _ => pure _) fun _ =>
    ite (widen (builds_localDeclaration hf) (by decide)) (ite ?_ (pad (reportAndTake _) _))
  exact widen (builds_expressionStatement hf) (by decide)

theorem builds_stmtScript :
    Builds setting productions stmtScript ps fun _ => ps ++ [.one Kind.statements] := by
  refine deeper (bind (perform .look) fun first => ?_)
  split
  · exact widen (builds_block hf) (by decide)
  · exact widen (builds_returnStatement hf) (by decide)
  · exact widen (builds_ifStatement hf) (by decide)
  · exact widen (builds_foreachStatement hf) (by decide)
  · exact widen (node (perform .take) (fun _ => by decide) nofun nofun) (by decide)
  · exact builds_plainStatement hf _

/-! ### Declarations -/

omit hf in
theorem builds_dottedPath (what : String) :
    Builds setting productions (dottedPath what) ps fun _ => ps ++ [.one [.path]] :=
  bind (isAt _) fun _ => ite (node (bind (perform .take) fun _ => builds_segments)
    (fun _ => by decide) nofun nofun) (pad (perform (.report _ _)) _)

omit hf in
theorem builds_usingDirective :
    Builds setting productions usingDirective ps fun _ => ps ++ [.one [.usingDirective]] :=
  node (bind (perform (.require _)) fun _ => bind (perform .take) fun _ =>
    bind (builds_dottedPath _) fun _ => bind expectSemicolon fun _ => pure _)
    (fun _ => by decide) nofun nofun

theorem builds_namespaceDeclaration :
    Builds setting productions namespaceDeclaration ps fun _ => ps ++ [.one [.namespaceDecl]] := by
  refine node (bind (perform (.require _)) fun _ => bind (perform .take) fun _ =>
    bind (builds_dottedPath _) fun _ => bind (eat _) fun _ => ite (hf (.items false) _)
    (bind (isAt _) fun _ => ite ?_ (pad (perform (.report _ _)) [.many Kind.items])))
    (fun _ => by decide) nofun nofun
  exact bind takeOpening fun _ => bind (hf (.items true) _) fun _ => expectClosing _ _

omit hf in
theorem builds_modifiers : Builds setting productions modifiers ps fun _ => ps := by
  have hat : ∀ ps, Builds setting productions isAtModifier ps fun _ => ps := fun ps =>
    bind (perform .look) fun _ => pure _
  exact bind (hat ps) fun _ => ite (bind (perform .take) fun _ =>
    bind (whileTrue (hat ps) (perform .take)) fun _ => pure _) (pure _)

theorem builds_baseListIfAny :
    Builds setting productions baseListIfAny ps fun _ => ps ++ [.one [.baseList]] := by
  have hlist : Builds setting productions baseList ps fun _ => ps ++ [.one [.baseList]] :=
    node (after (bind (perform .take) fun _ => repeatWhile (builds_typeItem hf)) (by decide))
      (fun _ => by decide) nofun nofun
  exact bind (isAt _) fun _ => ite hlist (pad (pure _) _)

theorem builds_typeBody :
    Builds setting productions typeBody (ps ++ [.many Kind.members])
      fun _ => ps ++ [.many Kind.members] := by
  refine bind (isAt _) fun _ => ite (bind takeOpening fun _ => bind ?_ fun _ =>
    expectClosing _ _) (perform (.report _ _))
  exact whileTrue (isBefore _) (merge ps (hf .member _) (by decide))

theorem builds_typeFromKeyword :
    Builds setting productions typeFromKeyword [] fun _ => [.one [.typeDecl]] := by
  have hkeyword : Builds setting productions eatTypeKeyword [] fun _ => [] :=
    bind (eat _) fun _ => ite (pure _) (eat _)
  have hrest : Builds setting productions
      (do let _ ← Script.expectName "type name"
          baseListIfAny
          typeBody : Script Unit) [] fun _ => Kind.slots .typeDecl :=
    bind (expectName _) fun _ => bind (pad (builds_baseListIfAny hf) [.many Kind.members])
      fun _ => builds_typeBody hf
  exact enclose (bind hkeyword fun _ => ite hrest (mono (perform (.report _ _)) fun _ => by decide))
    (fun _ => by decide) nofun nofun

theorem builds_typeDeclaration :
    Builds setting productions typeDeclaration ps fun _ => ps ++ [.one [.typeDecl]] :=
  frame (bind builds_modifiers fun _ => builds_typeFromKeyword hf)

theorem builds_param :
    Builds setting productions param ps fun _ => ps ++ [.one [.param]] :=
  node (bind (hf .type _) fun _ => bind (expectName _) fun _ => bind (eat _) fun _ =>
    ite (builds_exprRequired hf _) (pad (pure _) [.one Kind.expressions]))
    (fun _ => by decide) nofun nofun

theorem builds_paramItem :
    Builds setting productions paramItem [.many [.param]] fun _ => [.many [.param]] := by
  have hparam : Builds setting productions param [.many [.param]] fun _ => [.many [.param]] :=
    merge [] (builds_param hf) (by decide)
  refine bind (isBefore _) fun _ => ite (bind (perform .look) fun next => ?_) (pure _)
  split
  · exact bind hparam fun _ => eat _
  · exact bind hparam fun _ => eat _
  · exact bind (isAtOneOf _) fun _ => ite (pure _) (bind (reportAndTake _) fun _ => pure _)

theorem builds_paramList :
    Builds setting productions paramList ps fun _ => ps ++ [.one [.paramList]] :=
  node (after (bind (isAt _) fun _ => ite (bind takeOpening fun _ =>
    bind (repeatWhile (builds_paramItem hf)) fun _ => expectClosing _ _) (perform (.report _ _)))
    (by decide)) (fun _ => by decide) nofun nofun

theorem builds_body (what : String) :
    Builds setting productions (body what) ps
      fun _ => ps ++ [.one (.block :: Kind.expressions)] := by
  refine bind (perform .look) fun next => ?_
  split
  · exact widen (builds_block hf) (by decide)
  · exact bind (perform .take) fun _ =>
      bind (widen (builds_exprRequired hf _) (by decide : Slot.among _
        (.block :: Kind.expressions) = true)) fun _ => bind expectSemicolon fun _ => pure _
  · exact bind expectSemicolon fun _ => pad (pure _) [.one (.block :: Kind.expressions)]

theorem builds_accessor :
    Builds setting productions accessor ps fun _ => ps ++ [.one [.accessor]] := by
  have hat : Builds setting productions isAtAccessor [] fun _ => [] :=
    bind (perform .word) fun _ => bind (isAt _) fun _ => ite (pure _) (pure _)
  have hbody : Builds setting productions
      (do Script.take
          body "accessor body" : Script Unit) [] fun _ => Kind.slots .accessor :=
    bind (perform .take) fun _ => builds_body hf _
  exact frame (bind builds_modifiers fun _ => bind hat fun _ =>
    ite (enclose hbody (fun _ => by decide) nofun nofun) (pad (reportAndTake _) [.one [.accessor]]))

theorem builds_accessorList :
    Builds setting productions accessorList ps fun _ => ps ++ [.one [.accessorList]] :=
  node (after (bind takeOpening fun _ =>
    bind (whileTrue (isBefore _) (merge [] (builds_accessor hf) (by decide))) fun _ =>
    expectClosing _ _) (by decide))
    (fun _ => (by decide : Slot.narrower [.many [.accessor]] _ = true)) nofun nofun

/-- What the name of a member collects: a field is read up to its first variable. -/
def MemberShape.slots : MemberShape → List Slot
  | .field true => [.one [.varDeclarator]]
  | _ => []

theorem builds_memberName :
    Builds setting productions memberName ps fun shape => ps ++ shape.slots := by
  refine frame (bind (expectName _) fun named => bind (perform .look) fun next => ?_)
  refine ite (done rfl) (ite (done rfl) (ite (done rfl) ?_))
  cases named with
  | false => exact bind (pure _) fun _ => done rfl
  | true =>
      refine bind (enclose (bind (eat _) fun _ => ite (builds_exprRequired hf _) (pad (pure _)
        [.one Kind.expressions])) (fun _ => by decide) nofun nofun) fun _ => done (by decide)

theorem builds_memberRest (shape : MemberShape) :
    Builds setting productions (memberRest shape) (.one Kind.types :: shape.slots)
      fun _ => [.one Kind.members] := by
  cases shape with
  | method =>
      exact mono (enclose (bind (builds_paramList hf) fun _ => builds_body hf _)
        (fun _ => by decide) nofun nofun) fun _ => by decide
  | property =>
      have hrest : Builds setting productions
          (do accessorList
              if ← Script.eat .equals then
                exprRequired "property initializer"
                let _ ← Script.expectSemicolon : Script Unit)
          [.one Kind.types] fun _ => Kind.slots .propertyDecl :=
        bind (builds_accessorList hf) fun _ => bind (eat _) fun _ =>
          ite (bind (builds_exprRequired hf _) fun _ => bind expectSemicolon fun _ => pure _)
            (pad (pure _) [.one Kind.expressions])
      exact mono (enclose hrest (fun _ => by decide) nofun nofun) fun _ => by decide
  | computedProperty =>
      exact mono (enclose (bind (perform .take) fun _ => bind (builds_exprRequired hf _) fun _ =>
        bind expectSemicolon fun _ => pure _) (fun _ => by decide) nofun nofun) fun _ => by decide
  | field named =>
      have hmore : Builds setting productions
          (Script.whenever named (Script.whileTrue (Script.eat .comma) varDeclarator))
          (.one Kind.types :: (MemberShape.field named).slots) fun _ => Kind.slots .fieldDecl := by
        cases named with
        | false => exact done (by decide)
        | true =>
            exact after (whileTrue (eat _) (builds_declarators hf [.one Kind.types])) (by decide)
      exact mono (enclose (bind hmore fun _ => bind expectSemicolon fun _ => pure _)
        (fun _ => by decide) nofun nofun) fun _ => by decide

theorem builds_typedMember :
    Builds setting productions typedMember [] fun _ => [.one Kind.members] :=
  bind (hf .type []) fun _ => bind (builds_memberName hf) fun shape => builds_memberRest hf shape

theorem builds_memberScript :
    Builds setting productions memberScript ps fun _ => ps ++ [.one Kind.members] := by
  refine frame (bind builds_modifiers fun modified => bind (perform .look) fun next => ?_)
  split
  · exact mono (builds_typeFromKeyword hf) fun _ => by decide
  · exact mono (builds_typeFromKeyword hf) fun _ => by decide
  · refine bind (nextIs _) fun _ => ite ?_ (builds_typedMember hf)
    exact mono (enclose (bind (perform .take) fun _ => bind (builds_paramList hf) fun _ =>
      builds_body hf _) (fun _ => by decide) nofun nofun) fun _ => by decide
  · refine mono (enclose (bind (perform .take) fun _ => bind (expectName _) fun _ =>
      bind (builds_paramList hf) fun _ => builds_body hf _) (fun _ => by decide) nofun nofun)
      fun _ => by decide
  · exact builds_typedMember hf
  · exact ite (mono (perform (.report _ _)) fun _ => by decide)
      (mono (recover _ _) fun _ => by decide)

theorem builds_item (braced : Bool) :
    Builds setting productions (item braced) (ps ++ [.many Kind.items])
      fun _ => ps ++ [.many Kind.items] := by
  refine bind (perform .atEnd) fun _ => ite (pure _) (bind (perform .look) fun next => ?_)
  split
  · exact bind (merge ps builds_usingDirective (by decide)) fun _ => pure _
  · exact bind (merge ps (builds_namespaceDeclaration hf) (by decide)) fun _ => pure _
  · exact bind (merge ps (builds_typeDeclaration hf) (by decide)) fun _ => pure _
  · exact bind (merge ps (builds_typeDeclaration hf) (by decide)) fun _ => pure _
  · refine ite (pure _) (ite ?_ (bind (merge ps (hf .stmt _) (by decide)) fun _ => pure _))
    exact bind (merge ps (builds_typeDeclaration hf) (by decide)) fun _ => pure _
  · exact bind (merge ps (hf .stmt _) (by decide)) fun _ => pure _

theorem builds_itemsScript (braced : Bool) :
    Builds setting productions (itemsScript braced) ps fun _ => ps ++ [.many Kind.items] := by
  intro s t u hs h
  exact repeatWhile (builds_item hf braced) s t u (hs.pad _) h

omit hf in
/-- Every production collects what it has to. -/
theorem fulfilled_runProduction (n : Nat) : Fulfilled setting (runProduction setting n) := by
  induction n with
  | zero =>
      intro p ps s t a _ h
      rw [exec_call] at h
      cases h
  | succ n ih =>
      intro p ps s t a hs h
      rw [exec_call] at h
      cases p with
      | items braced => exact builds_itemsScript ih braced s t a hs h
      | member => exact builds_memberScript ih s t a hs h
      | stmt => exact builds_stmtScript ih s t a hs h
      | expr => exact builds_exprScript ih s t a hs h
      | binary power => exact builds_binaryScript ih power s t a hs h
      | unary => exact builds_unaryScript ih s t a hs h
      | type => exact builds_typeScript ih s t a hs h

omit hf in
/-- The tree of some lexemes conforms. -/
theorem conforms_parseLexemes {limits : Limits} {lexemes : List Lexeme} {parsed : Parsed}
    (h : parseLexemes limits lexemes = .ok parsed) : parsed.tree.Conforms := by
  rw [parseLexemes] at h
  split at h
  · next u t hrun =>
      rw [State.result] at h
      split at h
      · cases h
      · cases h
        have hempty : State.Holds [] (State.initial limits lexemes) := ⟨nofun, .nil⟩
        have hfile : Builds ⟨limits.depth, Lexeme.widthOf lexemes⟩ (runProduction _
            (levels * (lexemes.length + 1))) fileScript [] fun _ => [.many Kind.items] :=
          bind (fulfilled_runProduction _ (.items false) []) fun _ => perform .keepTrivia
        have ht := hfile _ t u hempty hrun
        exact .node ht.2 nofun ht.1
  · cases h
  · cases h

end Grammar

end Nominal
