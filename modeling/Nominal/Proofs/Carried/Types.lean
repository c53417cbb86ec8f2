import Nominal.Proofs.Carried.Lookahead

/-!
# Carrying Over Types and Initializers

Most productions are carried over piece by piece, by the rules for the ways in which they are
put together. What they call by name is carried over by assumption.

## Main definitions

* `Course.Carries`: A script can be carried over, whatever delimiters are open.

## Theorems

* `carries_typeScript`: Types.
* `carries_commaList`: Lists of items in delimiters.
* `carries_newOfType`: What follows `new` and a type.
-/

namespace Nominal

open Syntax (Kind KindSet Lexeme Tree)

namespace Grammar

open Script

/-- A script can be carried over, whatever delimiters are open. -/
def Course.Carries (c : Course) (items : Bool) {α : Type} (x : Script α) : Prop :=
  ∀ i, Follows c i i (c.Linked (c.Trees items)) (c.Linked (c.Trees items)) x

variable {c : Course} {items : Bool}

namespace Course.Carries

variable {α β : Type}

theorem pure (a : α) : c.Carries items (Pure.pure a) := fun _ => .pure a

theorem bind {x : Script α} {f : α → Script β} (hx : c.Carries items x)
    (hf : ∀ a, c.Carries items (f a)) : c.Carries items (x >>= f) :=
  fun i => .bind (hx i) fun a => hf a i

theorem ite {b : Prop} [Decidable b] {x y : Script α} (hx : c.Carries items x)
    (hy : c.Carries items y) : c.Carries items (if b then x else y) :=
  fun i => .ite (fun _ => hx i) fun _ => hy i

theorem node {kind : Kind} {x : Script α} (hkind : Follows.isConcerned kind = false)
    (hx : c.Carries false x) : c.Carries items (Script.node kind x) :=
  fun i => .node hkind (hx i)

theorem enclose {kind : Kind} {x : Script α} (hkind : Follows.isConcerned kind = false)
    (hx : c.Carries false x) : c.Carries items (Script.enclose kind x) :=
  fun i => .enclose hkind (hx i)

theorem frame {x : Script α} (hx : c.Carries items x) : c.Carries items (Script.frame x) :=
  fun i => .frame (hx i)

theorem eat (k : Kind) : c.Carries items (Script.eat k) := fun _ => .eat (peels_trees c items) k

theorem take : c.Carries items Script.take := fun _ => .take (peels_trees c items)

theorem isAt (k : Kind) : c.Carries items (Script.isAt k) := fun _ => .isAt k

theorem isAtOneOf (ks : KindSet) : c.Carries items (Script.isAtOneOf ks) := fun _ => .isAtOneOf ks

theorem expect (k : Kind) (what : String) : c.Carries items (Script.expect k what) :=
  fun _ => .expect (peels_trees c items) k what

theorem look : c.Carries items Script.look := fun _ => .look

theorem skipTrivia : c.Carries items (perform .skipTrivia) := fun _ => .skipTrivia

theorem require (kind : Kind) : c.Carries items (perform (.require kind)) := fun _ => .require kind

theorem isBefore (k : Kind) : c.Carries items (Script.isBefore k) := fun _ => .isBefore k

theorem reportAndTake (kind : Diagnostic.Kind) : c.Carries items (Script.reportAndTake kind) :=
  fun _ => .reportAndTake kind

theorem report (kind : Diagnostic.Kind) (detail : Option String) :
    c.Carries items (Script.report kind detail) := fun _ => .report kind detail

theorem repeatWhile {body : Script Bool} (hbody : c.Carries items body) :
    c.Carries items (Script.repeatWhile body) := fun i => .repeatWhile (hbody i)

theorem whileTrue {condition : Script Bool} {body : Script Unit}
    (hcondition : c.Carries items condition) (hbody : c.Carries items body) :
    c.Carries items (Script.whileTrue condition body) := fun i => .whileTrue (hcondition i) (hbody i)

/-- What stands between two delimiters is carried over with them. -/
theorem delimited {x : Script α} (hx : c.Carries items x) (k : Kind) (unclosed : Diagnostic.Kind) :
    c.Carries items (do takeOpening; let _ ← x; expectClosing k unclosed) := fun i =>
  .bind (.takeOpening (peels_trees c items)) fun _ => .bind (hx (i + 1)) fun _ =>
    .expectClosing (peels_trees c items) k unclosed

end Course.Carries

open Course (Carries)

section Productions

variable (hc : c.IsFollowed)

include hc

theorem carries_call (q : Production) (h : q = .member → items = false) :
    c.Carries items (call q) := fun i => .call (hc q c.slack i items h)

/-! ### Types -/

theorem carries_typeItem : c.Carries items typeItem := by
  refine .bind (carries_call hc .type nofun) fun kind => ?_
  cases kind with
  | none => exact .pure false
  | some _ => exact .eat .comma

theorem carries_typeArguments : c.Carries items typeArguments :=
  .node rfl (.bind .take fun _ => .bind (.repeatWhile (carries_typeItem hc)) fun _ => .expect _ _)

omit hc in
theorem carries_segments : c.Carries items (whileTrue isAtSegment segment) :=
  .whileTrue (fun _ => .isAtPair .dot .id rfl) (.bind .take fun _ => .expect _ _)

theorem carries_namedType : c.Carries items namedType :=
  .node rfl (.bind .take fun _ => .bind carries_segments fun _ => .bind (.isAt .lt) fun _ =>
    .ite (carries_typeArguments hc) (.pure ()))

omit hc in
theorem carries_typeMark (kind : Kind) : c.Carries items (typeMark kind) := by
  intro i
  refine FollowsAt.look_bind fun next => ?_
  split
  · refine FollowsAt.bind (.nextIs .bracketClose rfl) fun _ => ?_
    exact Carries.ite (.bind (.enclose rfl (.bind .take fun _ => .expect _ _)) fun _ => .pure _)
      (.pure _) i
  · exact .of_follows (Carries.ite (.pure _) (.bind (.enclose rfl .take) fun _ => .pure _) i)
  · exact .of_follows (.pure _)

omit hc in
theorem carries_typeMarks (kind : Kind) : c.Carries items (typeMarks kind) :=
  fun i => .loop (fun kind => carries_typeMark kind i) fun _ => .pure _

theorem carries_typeScript : c.Carries items typeScript := by
  refine .bind .skipTrivia fun _ => .frame (.bind .look fun next => ?_)
  split
  · exact .bind (.node rfl .take) fun _ => carries_typeMarks _
  · exact .bind (carries_namedType hc) fun _ => carries_typeMarks _
  · exact .bind (.report _ _) fun _ => .pure _

/-! ### Expressions -/

theorem carries_exprRequired (what : String) : c.Carries items (exprRequired what) :=
  .bind (.isAtOneOf _) fun _ => .ite (carries_call hc .expr nofun) (.report _ _)

theorem carries_block : c.Carries items block :=
  .node rfl (.bind (.require .braceOpen) fun _ =>
    .delimited (.whileTrue (.isBefore .braceClose) (carries_call hc .stmt nofun)) _ _)

omit hc in
theorem carries_commaItem (close : Kind) {item : Script Unit} (hitem : c.Carries items item) :
    c.Carries items (commaItem close item) :=
  .bind (.isBefore close) fun _ => .ite
    (.bind (.isAtOneOf _) fun _ => .ite (.bind hitem fun _ => .eat .comma)
      (.bind (.isAtOneOf _) fun _ => .ite (.pure false)
        (.bind (.reportAndTake _) fun _ => .pure true)))
    (.pure false)

omit hc in
theorem carries_commaList (close : Kind) (unclosed : Diagnostic.Kind) {item : Script Unit}
    (hitem : c.Carries items item) : c.Carries items (commaList close unclosed item) :=
  .delimited (.repeatWhile (carries_commaItem close hitem)) _ _

theorem carries_argumentList : c.Carries items argumentList :=
  .node rfl (carries_commaList _ _ (carries_call hc .expr nofun))

theorem carries_anonymousMember : c.Carries items anonymousMember :=
  .node rfl (.bind (fun _ => .isAtPair .id .equals rfl) fun _ => .ite
    (.bind .take fun _ => .bind (.expect _ _) fun _ => carries_exprRequired hc _)
    (carries_call hc .expr nofun))

theorem carries_initializerElement : c.Carries items initializerElement :=
  .bind (fun _ => .isAtPair .id .equals rfl) fun _ => .ite
    (.node rfl (.bind .take fun _ => .bind (.expect _ _) fun _ => carries_exprRequired hc _))
    (carries_call hc .expr nofun)

theorem carries_objectInitializer : c.Carries items objectInitializer :=
  .node rfl (carries_commaList _ _ (carries_initializerElement hc))

theorem carries_arrayInitializer : c.Carries items arrayInitializer :=
  .node rfl (carries_commaList _ _ (carries_call hc .expr nofun))

theorem carries_arrayInitializerRequired : c.Carries items arrayInitializerRequired :=
  .bind (.isAt _) fun _ => .ite (carries_arrayInitializer hc) (.report _ _)

theorem carries_bracketed (what : String) : c.Carries items (bracketed what) :=
  .delimited (carries_exprRequired hc what) _ _

theorem carries_argumentsIfAny : c.Carries items argumentsIfAny :=
  .bind (.isAt _) fun _ => .ite (.bind (carries_argumentList hc) fun _ => .pure _) (.pure _)

theorem carries_initializerOf (type : Option Kind) (hasArguments : Bool) :
    c.Carries items (initializerOf type hasArguments) :=
  .bind (.isAt _) fun _ => .ite (carries_objectInitializer hc) (.ite (.report _ _) (.pure ()))

theorem carries_newOfType : c.Carries items newOfType :=
  .bind (carries_call hc .type nofun) fun _ => .bind (.isAt _) fun _ => .ite
    (.enclose rfl (.bind (carries_bracketed hc _) fun _ => .bind (.isAt _) fun _ =>
      .ite (carries_arrayInitializer hc) (.pure ())))
    (.ite (.enclose rfl (carries_arrayInitializerRequired hc))
      (.enclose rfl (.bind (carries_argumentsIfAny hc) fun _ => carries_initializerOf hc _ _)))

theorem carries_parenthesized : c.Carries items parenthesized :=
  .node rfl (.delimited (carries_exprRequired hc _) _ _)

end Productions

end Grammar

end Nominal
