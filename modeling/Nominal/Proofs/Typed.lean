import Nominal.Proofs.Registering
import Nominal.Typing.Infer

/-!
# Expressions That Typing Comes Across

Which expressions typing visits is a matter of the program alone: `visited` collects them by
recursion over the program, each behind its parts, leaving out what typing leaves out. The creations
of anonymous objects among them are collected by `creations`. A name or a member that is called is
among the expressions although no type is filed for it.

What typing does on the way is found out one step at a time. A property of steps that mentions the
expressions they come across holds of typing as a whole if it holds of the small steps and of single
creations, and of steps in a row if it holds of each of them. That is what a law says, and typing
is gone through only once, for all laws. Types are the exception: that a declared type comes into
sight is a small step of its own, which a law of expressions and statements leaves out.

## Main definitions

* `Creation`: A creation with its members.
* `Expr.creations`, `Stmt.creations`, `Item.creations`: The creations that typing visits.
* `Expr.visited`, `Stmt.visited`, `Item.visited`: All expressions that it visits.
* `EndsFiling`: A step that ends with filing the type of an expression.
* `StepLaw`: A property of the small steps of typing and of steps in a row.
* `TypingLaw`, `ItemLaw`: A property that single creations have too, and that declared types have.

## Theorems

* `creationsAmong_visitedOfItems`: The creations are those among the expressions that are visited.
* `endsFiling_examine`: All expressions but names and members are filed when they are examined.
* `TypingLaw.finished`: Such a property holds of an expression with all that is visited in it.
* `TypingLaw.typeTypeMembers`: It holds of the members of a type.
* `ItemLaw.typeItems`: It holds of items.
-/

namespace Nominal

open Text (Span)

namespace Program

/-- A creation of an anonymous object. -/
structure Creation where
  span : Span
  members : List AnonMember

/-- Whether names are all there, differ from each other, and differ from those taken. -/
def areApart (taken : List String) : List (Option String) → Bool
  | [] => true
  | none :: _ => false
  | some name :: names => !taken.contains name && areApart (taken ++ [name]) names

theorem areApart_iff {taken : List String} {names : List (Option String)} :
    areApart taken names = true ↔
      (∀ name ∈ names, name.isSome) ∧ names.Nodup ∧ ∀ name ∈ taken, some name ∉ names := by
  induction names generalizing taken with
  | nil => simp [areApart]
  | cons name names ih =>
      cases name with
      | none => simp [areApart]
      | some name =>
          rw [areApart, Bool.and_eq_true, ih, Bool.not_eq_true', List.contains_eq_mem,
            decide_eq_false_iff_not, List.forall_mem_cons, List.nodup_cons]
          constructor
          · rintro ⟨hfree, hall, hnodup, htaken⟩
            refine ⟨⟨rfl, hall⟩, ⟨htaken name ?_, hnodup⟩, fun t ht => ?_⟩
            · exact List.mem_append_right taken List.mem_cons_self
            · rw [List.mem_cons, Option.some.injEq, not_or]
              refine ⟨?_, htaken t (List.mem_append_left _ ht)⟩
              rintro rfl
              exact hfree ht
          · rintro ⟨⟨_, hall⟩, ⟨hnew, hnodup⟩, htaken⟩
            refine ⟨fun hmem => htaken name hmem List.mem_cons_self, hall, hnodup, fun t ht => ?_⟩
            rw [List.mem_append, List.mem_singleton] at ht
            rcases ht with ht | rfl
            · exact fun hmem => htaken t ht (List.mem_cons_of_mem _ hmem)
            · exact hnew

/-- Names are all there and differ from each other. -/
theorem areApart_nil_iff {names : List (Option String)} :
    areApart [] names = true ↔ (∀ name ∈ names, name.isSome) ∧ names.Nodup := by
  rw [areApart_iff]
  simp

namespace Creation

/-- The names of the members: those written, or those that their values bring. -/
def names (c : Creation) : List (Option String) := c.members.map AnonMember.name?

/-- Whether each member has a name of its own. -/
def isSound (c : Creation) : Bool := areApart [] c.names

end Creation

mutual

/-- The creations in an expression that typing visits. -/
def Expr.creations : Expr → List Creation
  | .missing | .literal .. | .name .. | .this .. | .member _ _ none => []
  | .member _ receiver (some _) => receiver.creations
  | .paren _ inner => inner.creations
  | .call _ callee args => callee.creations ++ creationsOf args
  | .index _ receiver index => receiver.creations ++ index.creations
  | .unary _ _ operand | .step _ operand | .cast _ _ operand => operand.creations
  | .binary _ _ left right => left.creations ++ right.creations
  | .assign _ target value => target.creations ++ value.creations
  | .conditional _ condition whenTrue whenFalse =>
    condition.creations ++ (whenTrue.creations ++ whenFalse.creations)
  | .lambda _ _ body => body.creations
  | .anonymous span _ members =>
    creationsOfMembers members ++ [⟨span, members⟩]
  | .object _ _ args init => creationsOf args ++ creationsOfInitializer init
  | .array _ _ sizes elements => creationsOf sizes ++ creationsOfElements elements

/-- The creations in several expressions. -/
def creationsOf : List Expr → List Creation
  | [] => []
  | e :: es => e.creations ++ creationsOf es

/-- The creations in the elements of an array. -/
def creationsOfElements : Option (List Expr) → List Creation
  | none => []
  | some es => creationsOf es

/-- The creations in the members of an anonymous object. -/
def creationsOfMembers : List AnonMember → List Creation
  | [] => []
  | .mk _ _ value :: ms => value.creations ++ creationsOfMembers ms

/-- The creations in the members of an initializer. -/
def creationsOfInits : List MemberInit → List Creation
  | [] => []
  | .mk _ value :: ms => value.creations ++ creationsOfInits ms

/-- The creations in an initializer. -/
def creationsOfInitializer : Option Initializer → List Creation
  | none => []
  | some (.mk members elements) => creationsOfInits members ++ creationsOf elements

/-- The creations in what a lambda or a method does. -/
def Body.creations : Body → List Creation
  | .missing => []
  | .expr value => value.creations
  | .block stmts => creationsOfStmts stmts

/-- The creations in a statement. -/
def Stmt.creations : Stmt → List Creation
  | .missing => []
  | .block stmts => creationsOfStmts stmts
  | .locals _ _ declarators => creationsOfDeclarators declarators
  | .expr value | .result value => value.creations
  | .branch condition branches => condition.creations ++ creationsOfStmts branches
  | .foreach _ _ _ iterable body => iterable.creations ++ body.creations

/-- The creations in several statements. -/
def creationsOfStmts : List Stmt → List Creation
  | [] => []
  | s :: ss => s.creations ++ creationsOfStmts ss

/-- The creations in the initial values of variables. -/
def creationsOfDeclarators : List Declarator → List Creation
  | [] => []
  | .mk _ _ init :: ds => init.creations ++ creationsOfDeclarators ds

end

/-- The creations in the statements of a body. A body that is an expression has none that
    typing visits. -/
def Body.blockCreations : Body → List Creation
  | .block stmts => creationsOfStmts stmts
  | .missing | .expr _ => []

/-- The creations in accessors. -/
def creationsOfAccessors : List Accessor → List Creation
  | [] => []
  | a :: as => a.body.blockCreations ++ creationsOfAccessors as

mutual

/-- The creations in a declaration of a type. -/
def TypeDecl.creations : TypeDecl → List Creation
  | .mk _ _ _ _ _ members _ => creationsOfTypeMembers members

/-- The creations in the members of a type. -/
def creationsOfTypeMembers : List Member → List Creation
  | [] => []
  | m :: ms => m.creations ++ creationsOfTypeMembers ms

/-- The creations in a member of a type. -/
def Member.creations : Member → List Creation
  | .field _ _ declarators => creationsOfDeclarators declarators
  | .property _ _ _ accessors value =>
    value.creations ++ creationsOfAccessors (accessors.getD [])
  | .method _ _ _ _ body => body.creations
  | .constructor _ _ body => body.blockCreations
  | .type decl => decl.creations

end

mutual

/-- The creations in an item. -/
def Item.creations : Item → List Creation
  | .usingDirective _ => []
  | .namespaceDecl _ _ items => creationsOfItems items
  | .type decl => decl.creations
  | .stmt stmt => stmt.creations

/-- The creations in several items. -/
def creationsOfItems : List Item → List Creation
  | [] => []
  | item :: items => item.creations ++ creationsOfItems items

end

/-! ### All expressions -/

mutual

/-- The expressions inside an expression that typing visits, each behind its parts. -/
def Expr.within : Expr → List Expr
  | .missing | .literal .. | .name .. | .this .. | .member _ _ none => []
  | .member _ receiver (some _) => receiver.within ++ [receiver]
  | .paren _ inner => inner.within ++ [inner]
  | .call _ callee args => (callee.within ++ [callee]) ++ visitedOf args
  | .index _ receiver index => (receiver.within ++ [receiver]) ++ (index.within ++ [index])
  | .unary _ _ operand | .step _ operand | .cast _ _ operand => operand.within ++ [operand]
  | .binary _ _ left right => (left.within ++ [left]) ++ (right.within ++ [right])
  | .assign _ target value => (target.within ++ [target]) ++ (value.within ++ [value])
  | .conditional _ condition whenTrue whenFalse =>
    (condition.within ++ [condition]) ++
      ((whenTrue.within ++ [whenTrue]) ++ (whenFalse.within ++ [whenFalse]))
  | .lambda _ _ body => body.visited
  | .anonymous _ _ members => visitedOfMembers members
  | .object _ _ args init => visitedOf args ++ visitedOfInitializer init
  | .array _ _ sizes elements => visitedOf sizes ++ visitedOfElements elements

/-- The expressions in several expressions. -/
def visitedOf : List Expr → List Expr
  | [] => []
  | e :: es => (e.within ++ [e]) ++ visitedOf es

/-- The expressions in the elements of an array. -/
def visitedOfElements : Option (List Expr) → List Expr
  | none => []
  | some es => visitedOf es

/-- The expressions in the members of an anonymous object. -/
def visitedOfMembers : List AnonMember → List Expr
  | [] => []
  | .mk _ _ value :: ms => (value.within ++ [value]) ++ visitedOfMembers ms

/-- The expressions in the members of an initializer. -/
def visitedOfInits : List MemberInit → List Expr
  | [] => []
  | .mk _ value :: ms => (value.within ++ [value]) ++ visitedOfInits ms

/-- The expressions in an initializer. -/
def visitedOfInitializer : Option Initializer → List Expr
  | none => []
  | some (.mk members elements) => visitedOfInits members ++ visitedOf elements

/-- The expressions in what a lambda or a method does. -/
def Body.visited : Body → List Expr
  | .missing => []
  | .expr value => value.within ++ [value]
  | .block stmts => visitedOfStmts stmts

/-- The expressions in a statement. -/
def Stmt.visited : Stmt → List Expr
  | .missing => []
  | .block stmts => visitedOfStmts stmts
  | .locals _ _ declarators => visitedOfDeclarators declarators
  | .expr value | .result value => value.within ++ [value]
  | .branch condition branches => (condition.within ++ [condition]) ++ visitedOfStmts branches
  | .foreach _ _ _ iterable body => (iterable.within ++ [iterable]) ++ body.visited

/-- The expressions in several statements. -/
def visitedOfStmts : List Stmt → List Expr
  | [] => []
  | s :: ss => s.visited ++ visitedOfStmts ss

/-- The expressions in the initial values of variables. -/
def visitedOfDeclarators : List Declarator → List Expr
  | [] => []
  | .mk _ _ init :: ds => (init.within ++ [init]) ++ visitedOfDeclarators ds

end

/-- An expression behind those inside it that typing visits. -/
def Expr.visited (e : Expr) : List Expr := e.within ++ [e]

/-- The expressions in the statements of a body. -/
def Body.blockVisited : Body → List Expr
  | .block stmts => visitedOfStmts stmts
  | .missing | .expr _ => []

/-- The expressions in accessors. -/
def visitedOfAccessors : List Accessor → List Expr
  | [] => []
  | a :: as => a.body.blockVisited ++ visitedOfAccessors as

mutual

/-- The expressions in a declaration of a type. -/
def TypeDecl.visited : TypeDecl → List Expr
  | .mk _ _ _ _ _ members _ => visitedOfTypeMembers members

/-- The expressions in the members of a type. -/
def visitedOfTypeMembers : List Member → List Expr
  | [] => []
  | m :: ms => m.visited ++ visitedOfTypeMembers ms

/-- The expressions in a member of a type. -/
def Member.visited : Member → List Expr
  | .field _ _ declarators => visitedOfDeclarators declarators
  | .property _ _ _ accessors value => value.visited ++ visitedOfAccessors (accessors.getD [])
  | .method _ _ _ _ body => body.visited
  | .constructor _ _ body => body.blockVisited
  | .type decl => decl.visited

end

mutual

/-- The expressions in an item. -/
def Item.visited : Item → List Expr
  | .usingDirective _ => []
  | .namespaceDecl _ _ items => visitedOfItems items
  | .type decl => decl.visited
  | .stmt stmt => stmt.visited

/-- The expressions in several items. -/
def visitedOfItems : List Item → List Expr
  | [] => []
  | item :: items => item.visited ++ visitedOfItems items

end

/-- The creation that an expression is. -/
def Expr.creation? : Expr → Option Creation
  | .anonymous span _ members => some ⟨span, members⟩
  | _ => none

/-- The creations among expressions. -/
def creationsAmong (es : List Expr) : List Creation := es.filterMap Expr.creation?

@[simp]
theorem creationsAmong_append (es fs : List Expr) :
    creationsAmong (es ++ fs) = creationsAmong es ++ creationsAmong fs := List.filterMap_append

theorem creation?_eq_none {e : Expr} (h : (e.kind == .anonObjectCreation) = false) :
    e.creation? = none := by
  cases e with
  | anonymous span keyword members => cases h
  | _ => rfl

/-- Only a creation adds to the creations. -/
theorem creationsAmong_concat {e : Expr} (h : (e.kind == .anonObjectCreation) = false)
    (es : List Expr) : creationsAmong (es ++ [e]) = creationsAmong es := by
  rw [creationsAmong_append, creationsAmong, creationsAmong,
    List.filterMap_cons_none (creation?_eq_none h), List.filterMap_nil, List.append_nil]

mutual

/-- The creations in an expression are among what is visited in it. -/
theorem creationsAmong_expr (e : Expr) : creationsAmong (e.within ++ [e]) = e.creations := by
  cases e with
  | missing | literal | name | this => rfl
  | member span receiver name =>
      cases name with
      | none => rfl
      | some name => exact (creationsAmong_concat rfl _).trans (creationsAmong_expr receiver)
  | paren span inner => exact (creationsAmong_concat rfl _).trans (creationsAmong_expr inner)
  | call span callee args =>
      rw [creationsAmong_concat rfl, Expr.within, creationsAmong_append, creationsAmong_expr callee,
        creationsAmong_exprs args, Expr.creations]
  | index span receiver index =>
      rw [creationsAmong_concat rfl, Expr.within, creationsAmong_append,
        creationsAmong_expr receiver, creationsAmong_expr index, Expr.creations]
  | unary span op operand => exact (creationsAmong_concat rfl _).trans (creationsAmong_expr operand)
  | step span operand => exact (creationsAmong_concat rfl _).trans (creationsAmong_expr operand)
  | binary span op left right =>
      rw [creationsAmong_concat rfl, Expr.within, creationsAmong_append, creationsAmong_expr left,
        creationsAmong_expr right, Expr.creations]
  | assign span target value =>
      rw [creationsAmong_concat rfl, Expr.within, creationsAmong_append, creationsAmong_expr target,
        creationsAmong_expr value, Expr.creations]
  | conditional span condition whenTrue whenFalse =>
      rw [creationsAmong_concat rfl, Expr.within, creationsAmong_append,
        creationsAmong_expr condition, creationsAmong_append, creationsAmong_expr whenTrue,
        creationsAmong_expr whenFalse, Expr.creations]
  | cast span type operand => exact (creationsAmong_concat rfl _).trans (creationsAmong_expr operand)
  | lambda span params body => exact (creationsAmong_concat rfl _).trans (creationsAmong_body body)
  | anonymous span keyword members =>
      rw [creationsAmong_append, Expr.within, creationsAmong_members members, Expr.creations]
      rfl
  | object span type args init =>
      rw [creationsAmong_concat rfl, Expr.within, creationsAmong_append, creationsAmong_exprs args,
        creationsAmong_initializer init, Expr.creations]
  | array span type sizes elements =>
      rw [creationsAmong_concat rfl, Expr.within, creationsAmong_append, creationsAmong_exprs sizes,
        creationsAmong_elements elements, Expr.creations]

theorem creationsAmong_exprs (es : List Expr) :
    creationsAmong (visitedOf es) = creationsOf es := by
  cases es with
  | nil => rfl
  | cons e es =>
      rw [visitedOf, creationsAmong_append, creationsAmong_expr e, creationsAmong_exprs es,
        creationsOf]

theorem creationsAmong_elements (es : Option (List Expr)) :
    creationsAmong (visitedOfElements es) = creationsOfElements es := by
  cases es with
  | none => rfl
  | some es => exact creationsAmong_exprs es

theorem creationsAmong_members (ms : List AnonMember) :
    creationsAmong (visitedOfMembers ms) = creationsOfMembers ms := by
  cases ms with
  | nil => rfl
  | cons m ms =>
      cases m with
      | mk span explicit value =>
          rw [visitedOfMembers, creationsAmong_append, creationsAmong_expr value,
            creationsAmong_members ms, creationsOfMembers]

theorem creationsAmong_inits (ms : List MemberInit) :
    creationsAmong (visitedOfInits ms) = creationsOfInits ms := by
  cases ms with
  | nil => rfl
  | cons m ms =>
      cases m with
      | mk name value =>
          rw [visitedOfInits, creationsAmong_append, creationsAmong_expr value,
            creationsAmong_inits ms, creationsOfInits]

theorem creationsAmong_initializer (init : Option Initializer) :
    creationsAmong (visitedOfInitializer init) = creationsOfInitializer init := by
  cases init with
  | none => rfl
  | some init =>
      cases init with
      | mk members elements =>
          rw [visitedOfInitializer, creationsAmong_append, creationsAmong_inits members,
            creationsAmong_exprs elements, creationsOfInitializer]

theorem creationsAmong_body (body : Body) : creationsAmong body.visited = body.creations := by
  cases body with
  | missing => rfl
  | expr value => exact creationsAmong_expr value
  | block stmts => exact creationsAmong_stmts stmts

theorem creationsAmong_stmt (s : Stmt) : creationsAmong s.visited = s.creations := by
  cases s with
  | missing => rfl
  | block stmts => exact creationsAmong_stmts stmts
  | locals isVar type declarators => exact creationsAmong_declarators declarators
  | expr value => exact creationsAmong_expr value
  | result value => exact creationsAmong_expr value
  | branch condition branches =>
      rw [Stmt.visited, creationsAmong_append, creationsAmong_expr condition,
        creationsAmong_stmts branches, Stmt.creations]
  | foreach isVar type name iterable body =>
      rw [Stmt.visited, creationsAmong_append, creationsAmong_expr iterable,
        creationsAmong_stmt body, Stmt.creations]

theorem creationsAmong_stmts (ss : List Stmt) :
    creationsAmong (visitedOfStmts ss) = creationsOfStmts ss := by
  cases ss with
  | nil => rfl
  | cons s ss =>
      rw [visitedOfStmts, creationsAmong_append, creationsAmong_stmt s, creationsAmong_stmts ss,
        creationsOfStmts]

theorem creationsAmong_declarators (ds : List Declarator) :
    creationsAmong (visitedOfDeclarators ds) = creationsOfDeclarators ds := by
  cases ds with
  | nil => rfl
  | cons d ds =>
      cases d with
      | mk span name init =>
          rw [visitedOfDeclarators, creationsAmong_append, creationsAmong_expr init,
            creationsAmong_declarators ds, creationsOfDeclarators]

end

theorem creationsAmong_blockVisited (body : Body) :
    creationsAmong body.blockVisited = body.blockCreations := by
  cases body with
  | missing | expr => rfl
  | block stmts => exact creationsAmong_stmts stmts

theorem creationsAmong_accessors (as : List Accessor) :
    creationsAmong (visitedOfAccessors as) = creationsOfAccessors as := by
  induction as with
  | nil => rfl
  | cons a as ih =>
      rw [visitedOfAccessors, creationsAmong_append, creationsAmong_blockVisited, ih,
        creationsOfAccessors]

mutual

theorem creationsAmong_typeDecl (decl : TypeDecl) :
    creationsAmong decl.visited = decl.creations := by
  cases decl with
  | mk span keyword name modifiers bases members isClosed =>
      exact creationsAmong_typeMembers members

theorem creationsAmong_typeMembers (ms : List Member) :
    creationsAmong (visitedOfTypeMembers ms) = creationsOfTypeMembers ms := by
  cases ms with
  | nil => rfl
  | cons m ms =>
      rw [visitedOfTypeMembers, creationsAmong_append, creationsAmong_member m,
        creationsAmong_typeMembers ms, creationsOfTypeMembers]

theorem creationsAmong_member (m : Member) : creationsAmong m.visited = m.creations := by
  cases m with
  | field isStatic type declarators => exact creationsAmong_declarators declarators
  | property isStatic type name accessors value =>
      rw [Member.visited, creationsAmong_append, Expr.visited, creationsAmong_expr value,
        creationsAmong_accessors, Member.creations]
  | method isStatic type name params body => exact creationsAmong_body body
  | constructor name params body => exact creationsAmong_blockVisited body
  | type decl => exact creationsAmong_typeDecl decl

end

mutual

theorem creationsAmong_item (item : Item) : creationsAmong item.visited = item.creations := by
  cases item with
  | usingDirective path => rfl
  | namespaceDecl path isFileScoped items => exact creationsAmong_visitedOfItems items
  | type decl => exact creationsAmong_typeDecl decl
  | stmt stmt => exact creationsAmong_stmt stmt

/-- The creations in items are among what is visited in them. -/
theorem creationsAmong_visitedOfItems (items : List Item) :
    creationsAmong (visitedOfItems items) = creationsOfItems items := by
  cases items with
  | nil => rfl
  | cons item items =>
      rw [visitedOfItems, creationsAmong_append, creationsAmong_item item,
        creationsAmong_visitedOfItems items, creationsOfItems]

end

end Program

namespace Typing

open Nominal.Types (TypeId Registry Shape DeclaredTypes Derived)
open Program

/-- What holds of the answer of a step, whatever was known before. -/
def Answers {α : Type} (c : TypingM α) (P : α → Prop) : Prop := ∀ s : TypingState, P (c s).1

namespace Answers

variable {α β : Type} {c : TypingM α} {f : α → TypingM β} {P : α → Prop} {Q : β → Prop}

theorem pure {a : α} (h : P a) : Answers (Pure.pure a) P := fun _ => h

theorem bind (hc : Answers c P) (hf : ∀ a, P a → Answers (f a) Q) : Answers (c >>= f) Q :=
  fun s => hf (c s).1 (hc s) (c s).2

/-- What a last step answers, whatever the first one does. -/
theorem last (hf : ∀ a, Answers (f a) Q) : Answers (c >>= f) Q :=
  bind (P := fun _ => True) (fun _ => trivial) fun a _ => hf a

end Answers

/-! ### What examining ends with -/

section Ends

variable {declared : DeclaredTypes}

/-- A step ends with filing the type of an expression. -/
def EndsFiling (e : Expr) (c : TypingM Referent) : Prop :=
  ∃ d : TypingM TypeId, c = d >>= recordValue e

namespace EndsFiling

variable {α : Type} {e : Expr} {c : TypingM α} {f : α → TypingM Referent}

theorem record (type : TypeId) : EndsFiling e (recordValue e type) :=
  ⟨pure type, (pure_bind type _).symm⟩

/-- It is the last step that counts. -/
theorem last (hf : ∀ a, EndsFiling e (f a)) : EndsFiling e (c >>= f) := by
  choose d hd using hf
  exact ⟨c >>= d, by rw [bind_assoc, funext hd]⟩

end EndsFiling

/-- A call is filed, whatever is called. -/
theorem endsFiling_args {span : Span} {callee : Expr} {args : List Expr} {target : Callee} :
    EndsFiling (.call span callee args) (do
      let query := target.query? (← get).registry
      let t ←
        match query with
        | some (element, method) => do
          let projected ← typeQueryArgs declared element args
          let result := Types.Catalogue.query? method element projected
          pure ((← internDerived? result).getD .unknown)
        | none => do
          let _ ← typeExprs declared args
          calleeType declared target
      recordValue (.call span callee args) t) := by
  refine .last fun s => ?_
  dsimp only
  split
  · exact .last fun _ => .last fun _ => .last fun _ => .record _
  · exact .last fun _ => .last fun _ => .record _

/-- All expressions but names and members are filed at last if they are there. -/
theorem endsFiling_examine {e : Expr}
    (h : [Syntax.Kind.memberAccess, .nameRef, .error].contains e.kind = false) :
    EndsFiling e (examine declared e) := by
  cases e with
  | missing => cases h
  | name span token => cases h
  | member span receiver name => cases h
  | literal span token => exact .record _
  | this span => exact .last fun _ => .record _
  | paren span inner =>
      rw [examine]
      exact .last fun _ => .last fun _ => .record _
  | call span callee args =>
      rw [examine.eq_def]
      dsimp only
      split
      · exact .last fun _ => .last fun _ => endsFiling_args
      · exact .last fun _ => endsFiling_args
      · exact .last fun _ => endsFiling_args
      · exact .last fun _ => endsFiling_args
      · exact .last fun _ => .last fun _ => .last fun _ => endsFiling_args
  | index span receiver index =>
      rw [examine]
      exact .last fun _ => .last fun _ => .last fun _ => .last fun _ => .last fun _ =>
        .record _
  | unary span op operand =>
      rw [examine]
      exact .last fun _ => .last fun _ => .record _
  | step span operand =>
      rw [examine]
      exact .last fun _ => .last fun _ => .record _
  | binary span op left right =>
      rw [examine]
      exact .last fun _ => .last fun _ => .last fun _ => .last fun _ => .last fun _ =>
        .record _
  | assign span target value =>
      rw [examine]
      exact .last fun _ => .last fun _ => .last fun _ => .last fun _ => .record _
  | conditional span condition whenTrue whenFalse =>
      rw [examine]
      exact .last fun _ => .last fun _ => .last fun _ => .last fun _ => .last fun _ =>
        .last fun _ => .record _
  | cast span type operand =>
      rw [examine]
      exact .last fun _ => .last fun _ => .last fun _ => .record _
  | lambda span params body =>
      rw [examine]
      exact .last fun _ => .record _
  | anonymous span keyword members =>
      rw [examine]
      refine .last fun _ => ?_
      dsimp only
      split
      · exact .last fun _ => .record _
      · exact .last fun _ => .record _
  | object span type args init =>
      rw [examine]
      exact .last fun _ => .last fun _ => .last fun _ => .record _
  | array span type sizes elements =>
      rw [examine.eq_def]
      refine .last fun _ => .last fun _ => ?_
      dsimp only
      split
      · exact .last fun _ => .record _
      · exact .last fun _ => .record _

/-- What is filed refers to a value. -/
theorem answers_recordValue {e : Expr} {span : Span} (h : e.span? = some span) (type : TypeId) :
    Answers (recordValue e type) fun r => ∃ t, r = .value t := by
  rw [recordValue, h]
  exact Answers.last fun _ => .pure ⟨type, rfl⟩

/-- So these expressions refer to values. -/
theorem answers_examine {e : Expr}
    (h : [Syntax.Kind.memberAccess, .nameRef, .error].contains e.kind = false) :
    Answers (examine declared e) fun r => ∃ t, r = .value t := by
  have hends : EndsFiling e (examine declared e) := endsFiling_examine h
  rcases hends with ⟨c, hc⟩
  rw [hc]
  cases e with
  | missing => cases h
  | _ => exact .last fun t => answers_recordValue rfl t

end Ends

/-! ### Laws -/

/-- A property of steps of typing and the expressions that they come across. -/
abbrev StepProperty := (α : Type) → TypingM α → List Expr → Prop

/-- A property that the small steps of typing have, and that steps in a row have if each of them
    has it. -/
structure StepLaw (declared : DeclaredTypes) (P : StepProperty) : Prop where
  pure {α : Type} (a : α) : P α (Pure.pure a) []
  /-- What the first step answers may tell something about the second one. -/
  bind_of {α β : Type} {c : TypingM α} {f : α → TypingM β} {es fs : List Expr}
    {Q : α → Prop} : P α c es → Answers c Q → (∀ a, Q a → P β (f a) fs) → P β (c >>= f) (es ++ fs)
  known : P TypingState MonadState.get []
  /-- What is known of types and mistakes stays, and so does where names are looked up. -/
  aside {f : TypingState → TypingState} : (∀ s, (f s).registry = s.registry) →
    (∀ s, (f s).records = s.records) → (∀ s, (f s).diagnostics = s.diagnostics) →
    (∀ s, (f s).context = s.context) → P Unit (modify f) []
  /-- The type of a parameter or a variable is filed. -/
  record {kind : Syntax.Kind} : kind = .lambdaParam ∨ kind = .varDeclarator → ∀ span type,
    P Unit (record kind span type) []
  /-- The type of an expression is filed. -/
  file {e : Expr} {span : Span} : (e.kind == .anonObjectCreation) = false →
    e.span? = some span → ∀ type, P Unit (Typing.record e.kind span type) [e]
  /-- Nothing need be filed for an expression that is no creation. -/
  more {α : Type} {c : TypingM α} {es : List Expr} {e : Expr} :
    (e.kind == .anonObjectCreation) = false → P α c es → P α c (es ++ [e])
  internArray (element : TypeId) : P TypeId (internShape (.array element)) []
  internDerived? {derived : Option Derived} : (∀ d, derived = some d → d.IsOfLibrary) →
    P (Option TypeId) (internDerived? derived) []
  resolveType (type : TypeRef) : P TypeId (resolveType declared type) []
  resolveName (segments : List String) : P TypeId (resolveName declared segments) []

/-- A property that single creations have too. -/
structure TypingLaw (declared : DeclaredTypes) (P : StepProperty) : Prop extends
    StepLaw declared P where
  anonymous (span : Span) (keyword : Option String) (members : List AnonMember) :
    (∀ m ∈ members, P TypeId (examine declared m.value >>= settle m.value) m.value.visited) →
    P Referent (examine declared (.anonymous span keyword members))
      (visitedOfMembers members ++ [.anonymous span keyword members])

/-- A property that steps have too in which a declared type comes into sight or names are looked up
    elsewhere. -/
structure ItemLaw (declared : DeclaredTypes) (P : StepProperty) : Prop extends
    TypingLaw declared P where
  context (context : Types.NameContext) :
    P Unit (modify fun s : TypingState => { s with context := context }) []
  internNamed (home : Types.Namespace) (name : String) :
    P TypeId (internShape (.named home name [])) []

/-- What is done with an expression after it has been examined: nothing comes across it again if it
    refers to a value, and else it is filed now. -/
def Finishes (declared : DeclaredTypes) (P : StepProperty) (e : Expr) : Prop :=
  ∀ {β : Type} {finish : Referent → TypingM β}, (∀ t, P β (finish (.value t)) []) →
    ((e.kind == .anonObjectCreation) = false → ∀ r, P β (finish r) [e]) →
    P β (examine declared e >>= finish) e.visited

namespace StepLaw

variable {declared : DeclaredTypes} {P : StepProperty} (law : StepLaw declared P)

section Rows

variable {α β : Type} {c : TypingM α} {f : α → TypingM β} {es fs : List Expr}

include law

/-- Steps in a row come across what each of them does. -/
theorem bind (hc : P α c es) (hf : ∀ a, P β (f a) fs) : P β (c >>= f) (es ++ fs) :=
  law.bind_of (Q := fun _ => True) hc (fun _ => trivial) fun a _ => hf a

/-- A last step may come across nothing. -/
theorem last (hc : P α c es) (hf : ∀ a, P β (f a) []) : P β (c >>= f) es := by
  have hboth := law.bind hc hf
  rwa [List.append_nil] at hboth

/-- A first step may come across nothing. -/
theorem first (hc : P α c []) (hf : ∀ a, P β (f a) fs) : P β (c >>= f) fs := law.bind hc hf

theorem map (g : α → β) (hc : P α c es) : P β (g <$> c) es :=
  law.last hc fun a => law.pure (g a)

end Rows

/-! ### Steps that come across nothing -/

section Quiet

include law

theorem openScope : P Unit openScope [] :=
  law.aside (fun _ => rfl) (fun _ => rfl) (fun _ => rfl) fun _ => rfl

theorem closeScope : P Unit closeScope [] :=
  law.aside (fun _ => rfl) (fun _ => rfl) (fun _ => rfl) fun _ => rfl

theorem sight (thisType : Option TypeId) (scopes : List Scope) :
    P Unit (modify fun s : TypingState => { s with thisType := thisType, scopes := scopes }) [] :=
  law.aside (fun _ => rfl) (fun _ => rfl) (fun _ => rfl) fun _ => rfl

theorem bindVariable (name : Option String) (type : TypeId) :
    P Unit (bindVariable name type) [] := by
  cases name with
  | none => exact law.aside (fun _ => rfl) (fun _ => rfl) (fun _ => rfl) fun _ => rfl
  | some name =>
      refine law.aside (fun s => ?_) (fun s => ?_) (fun s => ?_) fun s => ?_
      all_goals cases s.scopes <;> rfl

theorem recordValue {e : Expr} (h : (e.kind == .anonObjectCreation) = false) (type : TypeId) :
    P Referent (recordValue e type) [e] := by
  rw [Typing.recordValue]
  split
  · next span hspan => exact law.last (law.file h hspan type) fun _ => law.pure _
  · exact law.more h (law.pure _)

theorem settle {e : Expr} (h : (e.kind == .anonObjectCreation) = false) (referent : Referent) :
    P TypeId (settle e referent) [e] := by
  rw [Typing.settle.eq_def]
  split
  · exact law.more h (law.pure _)
  · next span _ hspan => exact law.last (law.file h hspan _) fun _ => law.pure _
  · exact law.more h (law.pure _)

theorem examineInNamespace (path : Types.Namespace) (name : String) :
    P Referent (examineInNamespace declared path name) [] := by
  rw [Typing.examineInNamespace]
  refine law.first (law.resolveName _) fun t => ?_
  split
  · exact law.pure _
  · split
    · exact law.pure _
    · exact law.pure _

theorem instanceMemberType (owner : TypeId) (name : String) :
    P (Option TypeId) (instanceMemberType declared owner name) [] := by
  refine law.first law.known fun s => ?_
  dsimp only
  split
  · exact law.pure _
  · exact law.internDerived? fun _ => Types.Catalogue.isOfLibrary_instanceMember?

theorem staticMemberType (owner : TypeId) (name : String) :
    P (Option TypeId) (staticMemberType declared owner name) [] := by
  refine law.first law.known fun s => ?_
  dsimp only
  split
  · exact law.pure _
  · exact law.internDerived? fun _ => Types.Catalogue.isOfLibrary_staticMember?

theorem calleeType (callee : Callee) : P TypeId (calleeType declared callee) [] := by
  cases callee with
  | instanceMethod owner name =>
      refine law.first law.known fun s => ?_
      dsimp only
      split
      · exact law.pure _
      · exact law.first (law.internDerived? fun _ => Types.Catalogue.isOfLibrary_instanceMethod?)
          fun _ => law.pure _
  | staticMethod owner name =>
      refine law.first law.known fun s => ?_
      dsimp only
      split
      · exact law.pure _
      · exact law.first (law.internDerived? fun _ => Types.Catalogue.isOfLibrary_staticMethod?)
          fun _ => law.pure _
  | own token =>
      refine law.first law.known fun s => ?_
      split
      · exact law.pure _
      · exact law.pure _
  | unknown => exact law.pure _

theorem bindParams (types : List TypeId) (params : List LambdaParam) :
    P Unit (bindParams types params) [] := by
  induction params generalizing types with
  | nil => exact law.pure _
  | cons p ps ih =>
      exact law.first (law.record (.inl rfl) _ _) fun _ =>
        law.first (law.bindVariable _ _) fun _ => ih types.tail

theorem bindMethodParams (params : List Param) :
    P Unit (bindMethodParams declared params) [] := by
  induction params with
  | nil => exact law.pure _
  | cons p ps ih =>
      exact law.first (law.resolveType _) fun _ => law.first (law.bindVariable _ _) fun _ => ih

theorem returnedType (stmts : List Stmt) : P TypeId (returnedType stmts) [] := by
  refine law.first law.known fun s => ?_
  split
  · exact law.pure _
  · exact law.pure _

theorem arrayOfElements (types : List TypeId) : P TypeId (arrayOfElements types) [] := by
  rw [Typing.arrayOfElements]
  split
  · exact law.internArray _
  · exact law.pure _

theorem arrayOfType (type : TypeRef) (isSized : Bool) :
    P TypeId (arrayOfType declared type isSized) [] := by
  refine law.first (law.resolveType type) fun t => ?_
  split
  · split
    · exact law.pure _
    · exact law.internArray _
  · exact law.pure _

end Quiet

/-! ### Expressions that are settled -/

section Settled

variable {β : Type}

include law

/-- A name is filed when it is examined or later on. -/
theorem examineName {finish : Referent → TypingM β} (span : Span) (token : Option Syntax.Lexeme)
    (hvalue : ∀ t, P β (finish (.value t)) []) (hother : ∀ r, P β (finish r) [.name span token]) :
    P β (examineName declared span token >>= finish) [.name span token] := by
  have hfile : ∀ t, P β (Typing.record .nameRef span t >>= fun _ => finish (.value t))
      [.name span token] := fun t =>
    law.last (law.file (e := .name span token) rfl rfl t) fun _ => hvalue t
  rw [Typing.examineName.eq_def]
  split
  · exact hother _
  · split
    · split
      · exact hother _
      · exact hother _
    · rw [bind_assoc]
      refine law.first law.known fun s => ?_
      split
      · exact hfile _
      · rw [bind_assoc]
        refine law.first (law.resolveName _) fun t => ?_
        split
        · exact hother _
        · split
          · exact hother _
          · exact hother _

/-- So is a member, once its receiver has been examined. -/
theorem examineMember {finish : Referent → TypingM β} {span : Span} {e : Expr} (referent : Referent)
    (name : String) (hvalue : ∀ t, P β (finish (.value t)) [])
    (hother : ∀ r, P β (finish r) [.member span e (some name)]) :
    P β (examineMember declared span referent name >>= finish) [.member span e (some name)] := by
  have hfile : ∀ t, P β (Typing.record .memberAccess span t >>= fun _ => finish (.value t))
      [.member span e (some name)] := fun t =>
    law.last (law.file (e := .member span e (some name)) rfl rfl t) fun _ => hvalue t
  cases referent with
  | namespacePath path =>
      exact law.first (law.examineInNamespace path name) hother
  | type owner =>
      rw [Typing.examineMember, bind_assoc]
      refine law.first (law.staticMemberType owner name) fun t => ?_
      cases t with
      | none => exact hother _
      | some t => exact hfile t
  | value owner =>
      rw [Typing.examineMember, bind_assoc]
      refine law.first (law.instanceMemberType owner name) fun t => ?_
      cases t with
      | none => exact hother _
      | some t => exact hfile t
  | nothing => exact hother _

/-- An expression that refers to a value is not come across again. -/
theorem valued {e : Expr}
    (hkind : [Syntax.Kind.memberAccess, .nameRef, .error].contains e.kind = false)
    (h : P Referent (Typing.examine declared e) e.visited) : Finishes declared P e := by
  intro β finish hvalue _
  have hfinish : ∀ r, (∃ t, r = Referent.value t) → P β (finish r) [] := by
    rintro r ⟨t, rfl⟩
    exact hvalue t
  have hboth := law.bind_of h (answers_examine hkind) hfinish
  rwa [List.append_nil] at hboth

theorem examined {e : Expr} (h : Finishes declared P e) :
    P Referent (Typing.examine declared e) e.visited := by
  have hexamined : P Referent (Typing.examine declared e >>= Pure.pure) e.visited :=
    h (fun t => law.pure _) fun hkind r => law.more hkind (law.pure r)
  rwa [bind_pure] at hexamined

theorem settled {e : Expr} (h : Finishes declared P e) :
    P TypeId (Typing.examine declared e >>= Typing.settle e) e.visited :=
  h (fun t => law.pure t) fun hkind r => law.settle hkind r

/-- An expression is typed before what comes next. -/
theorem typed {e : Expr} {f : TypeId → TypingM β} {es : List Expr} (h : Finishes declared P e)
    (hf : ∀ t, P β (f t) es) :
    P β (Typing.examine declared e >>= fun r => Typing.settle e r >>= f) (e.visited ++ es) := by
  rw [← bind_assoc]
  exact law.bind (law.settled h) hf

theorem typedLast {e : Expr} {f : TypeId → TypingM β} (h : Finishes declared P e)
    (hf : ∀ t, P β (f t) []) :
    P β (Typing.examine declared e >>= fun r => Typing.settle e r >>= f) e.visited := by
  rw [← bind_assoc]
  exact law.last (law.settled h) hf

/-- The values of members are typed with all that is visited in them, if each of them is and a
    mistake in a member does no harm. -/
theorem typeMembers
    (hadd : ∀ found m type, P AnonymousMembers (addAnonymousMember found m type) [])
    (found : AnonymousMembers) {ms : List AnonMember}
    (h : ∀ m ∈ ms, P TypeId (Typing.examine declared m.value >>= Typing.settle m.value)
      m.value.visited) :
    P AnonymousMembers (typeMembers declared found ms) (visitedOfMembers ms) := by
  induction ms generalizing found with
  | nil => exact law.pure _
  | cons m ms ih =>
      rw [List.forall_mem_cons] at h
      cases m with
      | mk span explicit value =>
          rw [Typing.typeMembers, ← bind_assoc]
          exact law.bind h.1 fun t => law.first (hadd found _ t) fun r => ih r h.2

/-- A call types its arguments, whether it is a query or not. -/
theorem args {span : Span} {callee : Expr} {args : List Expr} {target : Callee}
    (hquery : ∀ element, P (Option TypeId) (typeQueryArgs declared element args) (visitedOf args))
    (hplain : P (List TypeId) (typeExprs declared args) (visitedOf args)) :
    P Referent (do
      let query := target.query? (← get).registry
      let t ←
        match query with
        | some (element, method) => do
          let projected ← typeQueryArgs declared element args
          let result := Types.Catalogue.query? method element projected
          Pure.pure ((← Typing.internDerived? result).getD .unknown)
        | none => do
          let _ ← typeExprs declared args
          Typing.calleeType declared target
      Typing.recordValue (.call span callee args) t) (visitedOf args ++ [.call span callee args]) := by
  refine law.first law.known fun s => ?_
  dsimp only
  split
  · refine law.bind (hquery _) fun projected =>
      law.first (law.internDerived? fun _ => Types.Catalogue.isOfLibrary_query?) fun t => ?_
    exact law.first (law.pure _) fun t => law.recordValue rfl t
  · exact law.bind hplain fun _ => law.first (law.calleeType target) fun t =>
      law.recordValue rfl t

/-- What is called is typed before the arguments, unless it is a name or a member. -/
theorem call {span : Span} {callee : Expr} {args : List Expr}
    (hkind : [Syntax.Kind.memberAccess, .nameRef, .error].contains callee.kind = false)
    (hcallee : Finishes declared P callee)
    (hquery : ∀ element, P (Option TypeId) (typeQueryArgs declared element args) (visitedOf args))
    (hplain : P (List TypeId) (typeExprs declared args) (visitedOf args)) :
    P Referent (Typing.examine declared (.call span callee args))
      (callee.visited ++ (visitedOf args ++ [.call span callee args])) := by
  rw [Typing.examine]
  · exact law.typed hcallee fun _ => law.first (law.pure _) fun _ => law.args hquery hplain
  · rintro span receiver name rfl
    exact Bool.noConfusion hkind
  · rintro span token rfl
    exact Bool.noConfusion hkind
  · rintro rfl
    exact Bool.noConfusion hkind
  · rintro span receiver rfl
    exact Bool.noConfusion hkind

end Settled

end StepLaw

/-! ### Expressions and statements -/

/-- An argument of a query that is no lambda is typed like any other expression. -/
theorem typeQueryArgs_cons {declared : DeclaredTypes} {element : TypeId} {arg : Expr}
    {args : List Expr} (h : (arg.kind == .lambda) = false) :
    typeQueryArgs declared element (arg :: args)
      = examine declared arg >>= fun r => settle arg r >>= fun _ =>
        typeQueryArgs declared element args := by
  rw [typeQueryArgs]
  rintro span params body rfl
  cases h

namespace TypingLaw

variable {declared : DeclaredTypes} {P : StepProperty} (law : TypingLaw declared P)

include law

mutual

/-- An expression is typed with all that is visited in it. -/
theorem finished (e : Expr) : Finishes declared P e := by
  cases e with
  | missing => exact fun _ hother => hother rfl _
  | literal span token =>
      refine law.valued rfl ?_
      exact law.recordValue rfl _
  | name span token => exact fun hvalue hother => law.examineName span token hvalue (hother rfl)
  | this span =>
      refine law.valued rfl ?_
      exact law.first law.known fun s => law.recordValue rfl _
  | paren span inner =>
      refine law.valued rfl ?_
      rw [Typing.examine]
      exact law.typed (finished inner) fun t => law.recordValue rfl t
  | member span receiver name =>
      cases name with
      | none => exact fun _ hother => hother rfl _
      | some name =>
          intro β finish hvalue hother
          rw [Typing.examine, bind_assoc]
          exact law.bind (law.examined (finished receiver)) fun r =>
            law.examineMember r name hvalue (hother rfl)
  | call span callee args =>
      refine law.valued rfl ?_
      rw [Expr.visited, Expr.within, List.append_assoc]
      have hquery : ∀ element,
          P (Option TypeId) (Typing.typeQueryArgs declared element args) (visitedOf args) :=
        fun element => typeQueryArgs element args
      have hplain := typeExprs args
      -- A name or a member that is called is not typed, only the receiver of a member is.
      cases callee with
      | missing =>
          rw [Typing.examine]
          exact law.bind (law.more rfl (law.pure _)) fun _ => law.args hquery hplain
      | name span token =>
          rw [Typing.examine]
          exact law.bind (law.more rfl (law.pure _)) fun _ => law.args hquery hplain
      | member span receiver name =>
          cases name with
          | none =>
              rw [Typing.examine]
              exact law.bind (law.more rfl (law.pure _)) fun _ => law.args hquery hplain
          | some name =>
              rw [Typing.examine]
              have hreceiver := law.examined (finished receiver)
              exact law.bind (law.more rfl hreceiver) fun r => law.first (law.pure _) fun _ =>
                law.args hquery hplain
      | _ => exact law.call rfl (finished _) hquery hplain
  | index span receiver index =>
      refine law.valued rfl ?_
      rw [Typing.examine, Expr.visited, Expr.within, List.append_assoc]
      exact law.typed (finished receiver) fun t => law.typed (finished index) fun _ =>
        law.first law.known fun s => law.recordValue rfl _
  | unary span op operand =>
      refine law.valued rfl ?_
      rw [Typing.examine]
      exact law.typed (finished operand) fun t => law.recordValue rfl _
  | step span operand =>
      refine law.valued rfl ?_
      rw [Typing.examine]
      exact law.typed (finished operand) fun t => law.recordValue rfl _
  | binary span op left right =>
      refine law.valued rfl ?_
      rw [Typing.examine, Expr.visited, Expr.within, List.append_assoc]
      exact law.typed (finished left) fun t => law.typed (finished right) fun _ =>
        law.first law.known fun s => law.recordValue rfl _
  | assign span target value =>
      refine law.valued rfl ?_
      rw [Typing.examine, Expr.visited, Expr.within, List.append_assoc]
      exact law.typed (finished target) fun t => law.typed (finished value) fun _ =>
        law.recordValue rfl _
  | conditional span condition whenTrue whenFalse =>
      refine law.valued rfl ?_
      rw [Typing.examine, Expr.visited, Expr.within, List.append_assoc,
        List.append_assoc (whenTrue.within ++ [whenTrue])]
      exact law.typed (finished condition) fun _ => law.typed (finished whenTrue) fun a =>
        law.typed (finished whenFalse) fun b => law.recordValue rfl _
  | cast span type operand =>
      refine law.valued rfl ?_
      rw [Typing.examine]
      exact law.typed (finished operand) fun _ =>
        law.first (law.resolveType type) fun t => law.recordValue rfl t
  | lambda span params body =>
      refine law.valued rfl ?_
      rw [Typing.examine]
      exact law.bind (typeLambda params body []) fun _ => law.recordValue rfl _
  | anonymous span keyword members =>
      exact law.valued rfl (law.anonymous span keyword members (values members))
  | object span type args init =>
      refine law.valued rfl ?_
      rw [Typing.examine, Expr.visited, Expr.within, List.append_assoc]
      exact law.bind (typeExprs args) fun _ => law.bind (typeInitializer init) fun _ =>
        law.first (law.resolveType type) fun t => law.recordValue rfl t
  | array span type sizes elements =>
      refine law.valued rfl ?_
      rw [Typing.examine, Expr.visited, Expr.within, List.append_assoc]
      refine law.bind (typeExprs sizes) fun _ => law.bind (typeElements elements) fun types => ?_
      dsimp only
      split
      · exact law.first (law.arrayOfElements types) fun t => law.recordValue rfl t
      · exact law.first (law.arrayOfType _ _) fun t => law.recordValue rfl t

/-- So are the values of the members of a creation. -/
theorem values (ms : List AnonMember) :
    ∀ m ∈ ms, P TypeId (Typing.examine declared m.value >>= settle m.value) m.value.visited := by
  cases ms with
  | nil => exact List.forall_mem_nil _
  | cons m ms =>
      rw [List.forall_mem_cons]
      cases m with
      | mk span explicit value => exact ⟨law.settled (finished value), values ms⟩

theorem typeQueryArgs (element : TypeId) (args : List Expr) :
    P (Option TypeId) (typeQueryArgs declared element args) (visitedOf args) := by
  cases args with
  | nil => exact law.pure _
  | cons arg args =>
      cases arg with
      | lambda span params body =>
          rw [Typing.typeQueryArgs]
          rw [visitedOf, List.append_assoc]
          exact law.bind (typeLambda params body [element]) fun t =>
            law.bind (law.file (e := .lambda span params body) rfl rfl _) fun _ =>
              law.last (typeQueryArgs element args) fun _ => law.pure _
      | _ =>
          rw [typeQueryArgs_cons rfl]
          exact law.typed (finished _) fun _ => typeQueryArgs element args

theorem typeExprs (es : List Expr) :
    P (List TypeId) (typeExprs declared es) (visitedOf es) := by
  cases es with
  | nil => exact law.pure _
  | cons e es =>
      rw [Typing.typeExprs]
      exact law.typed (finished e) fun t => law.last (typeExprs es) fun ts => law.pure _

theorem typeElements (es : Option (List Expr)) :
    P (List TypeId) (typeElements declared es) (visitedOfElements es) := by
  cases es with
  | none => exact law.pure _
  | some es => exact typeExprs es

theorem typeLambda (params : List LambdaParam) (body : Body) (types : List TypeId) :
    P TypeId (typeLambda declared params body types) body.visited := by
  cases body with
  | missing =>
      rw [Typing.typeLambda]
      exact law.first law.openScope fun _ => law.first (law.bindParams types params) fun _ =>
        law.first law.closeScope fun _ => law.pure _
  | expr value =>
      rw [Typing.typeLambda]
      exact law.first law.openScope fun _ => law.first (law.bindParams types params) fun _ =>
        law.typedLast (finished value) fun t => law.first law.closeScope fun _ => law.pure t
  | block stmts =>
      rw [Typing.typeLambda]
      refine law.first law.openScope fun _ => law.first (law.bindParams types params) fun _ =>
        law.first law.openScope fun _ => law.last (typeStmts stmts) fun _ => ?_
      exact law.first law.closeScope fun _ => law.first (law.returnedType stmts) fun t =>
        law.first law.closeScope fun _ => law.pure t

theorem typeInitializer (init : Option Initializer) :
    P Unit (typeInitializer declared init) (visitedOfInitializer init) := by
  cases init with
  | none => exact law.pure _
  | some init =>
      cases init with
      | mk members elements =>
          rw [Typing.typeInitializer]
          exact law.bind (typeMemberInits members) fun _ =>
            law.last (typeExprs elements) fun _ => law.pure _

theorem typeMemberInits (ms : List MemberInit) :
    P Unit (typeMemberInits declared ms) (visitedOfInits ms) := by
  cases ms with
  | nil => exact law.pure _
  | cons m ms =>
      cases m with
      | mk name value =>
          rw [Typing.typeMemberInits]
          exact law.typed (finished value) fun _ => typeMemberInits ms

/-- A statement is typed with all that is visited in it. -/
theorem typeStmt (s : Stmt) : P Unit (typeStmt declared s) s.visited := by
  cases s with
  | missing => exact law.pure _
  | block stmts =>
      rw [Typing.typeStmt]
      exact law.first law.openScope fun _ => law.last (typeStmts stmts) fun _ => law.closeScope
  | locals isVar type declarators =>
      rw [Typing.typeStmt]
      split
      · exact law.first (law.pure _) fun _ => typeLocals _ declarators
      · exact law.first (law.map some (law.resolveType type)) fun _ => typeLocals _ declarators
  | expr value =>
      rw [Typing.typeStmt]
      exact law.typedLast (finished value) fun _ => law.pure _
  | result value =>
      rw [Typing.typeStmt]
      exact law.typedLast (finished value) fun _ => law.pure _
  | branch condition branches =>
      rw [Typing.typeStmt]
      exact law.typed (finished condition) fun _ => typeBranches branches
  | foreach isVar type name iterable body =>
      rw [Typing.typeStmt]
      refine law.typed (finished iterable) fun t => ?_
      have hbody : ∀ element, P Unit (do
          openScope
          bindVariable name element
          Typing.typeStmt declared body
          closeScope) body.visited := fun element =>
        law.first law.openScope fun _ => law.first (law.bindVariable name element) fun _ =>
          law.last (typeStmt body) fun _ => law.closeScope
      dsimp only
      split
      · exact law.first law.known fun s => law.first (law.pure _) hbody
      · exact law.first (law.resolveType type) hbody

theorem typeStmts (ss : List Stmt) : P Unit (typeStmts declared ss) (visitedOfStmts ss) := by
  cases ss with
  | nil => exact law.pure _
  | cons s ss =>
      rw [Typing.typeStmts]
      exact law.bind (typeStmt s) fun _ => typeStmts ss

theorem typeBranches (ss : List Stmt) :
    P Unit (typeBranches declared ss) (visitedOfStmts ss) := by
  cases ss with
  | nil => exact law.pure _
  | cons s ss =>
      rw [Typing.typeBranches]
      exact law.first law.openScope fun _ => law.bind (typeStmt s) fun _ =>
        law.first law.closeScope fun _ => typeBranches ss

theorem typeLocals (written : Option TypeId) (ds : List Declarator) :
    P Unit (typeLocals declared written ds) (visitedOfDeclarators ds) := by
  cases ds with
  | nil => exact law.pure _
  | cons d ds =>
      cases d with
      | mk span name init =>
          rw [Typing.typeLocals]
          exact law.typed (finished init) fun _ => law.first (law.record (.inr rfl) _ _) fun _ =>
            law.first (law.bindVariable _ _) fun _ => typeLocals written ds

end

/-! ### Members and items -/

theorem typeFields (type : TypeId) (ds : List Declarator) :
    P Unit (typeFields declared type ds) (visitedOfDeclarators ds) := by
  induction ds with
  | nil => exact law.pure _
  | cons d ds ih =>
      cases d with
      | mk span name init =>
          exact law.bind (law.settled (law.finished init)) fun _ =>
            law.first (law.record (.inr rfl) _ _) fun _ => ih

theorem typeBlockOf (body : Body) : P Unit (typeBlockOf declared body) body.blockVisited := by
  cases body with
  | missing => exact law.pure _
  | expr value => exact law.pure _
  | block stmts => exact law.typeStmt (.block stmts)

theorem typeBody (body : Body) : P Unit (typeBody declared body) body.visited := by
  cases body with
  | missing => exact law.pure _
  | expr value => exact law.last (law.settled (law.finished value)) fun _ => law.pure _
  | block stmts => exact law.typeBlockOf (.block stmts)

theorem accessors (as : List Accessor) :
    P Unit (as.forM fun a => Typing.typeBlockOf declared a.body) (visitedOfAccessors as) := by
  induction as with
  | nil => exact law.pure _
  | cons a as ih => exact law.bind (law.typeBlockOf a.body) fun _ => ih

/-- The members of a type are typed while some type is in sight, and then what was in sight is in
    sight again. -/
theorem inSight {ms : List Member} {thisType : TypingM (Option TypeId)} (outer : TypingState)
    (hthis : P (Option TypeId) thisType [])
    (hmembers : P Unit (typeTypeMembers declared ms) (visitedOfTypeMembers ms)) :
    P Unit (do
      let thisType ← thisType
      modify fun s : TypingState => { s with thisType := thisType, scopes := [] }
      typeTypeMembers declared ms
      modify fun s => { s with thisType := outer.thisType, scopes := outer.scopes })
      (visitedOfTypeMembers ms) :=
  law.first hthis fun thisType => law.first (law.sight thisType []) fun _ =>
    law.last hmembers fun _ => law.sight _ _

mutual

/-- A declaration inside another one is typed with all that is visited in it. -/
theorem typeNested (decl : TypeDecl) : P Unit (typeDecl declared true decl) decl.visited := by
  cases decl with
  | mk span keyword name modifiers bases members isClosed =>
      rw [typeDecl]
      refine law.first law.known fun outer => ?_
      dsimp only
      split
      · exact law.inSight _ (law.pure _) (typeTypeMembers members)
      · exact law.inSight _ (law.pure _) (typeTypeMembers members)

theorem typeTypeMembers (ms : List Member) :
    P Unit (typeTypeMembers declared ms) (visitedOfTypeMembers ms) := by
  cases ms with
  | nil => exact law.pure _
  | cons m ms =>
      rw [Typing.typeTypeMembers]
      exact law.bind (typeMember m) fun _ => typeTypeMembers ms

/-- A member of a type is typed with what is visited in it. -/
theorem typeMember (m : Member) : P Unit (typeMember declared m) m.visited := by
  cases m with
  | field isStatic type declarators =>
      rw [Typing.typeMember]
      exact law.first (law.resolveType type) fun t => law.typeFields t declarators
  | property isStatic type name accessors value =>
      rw [Typing.typeMember]
      exact law.bind (law.settled (law.finished value)) fun _ => law.accessors _
  | method isStatic type name params body =>
      rw [Typing.typeMember]
      exact law.first law.openScope fun _ => law.first (law.bindMethodParams params) fun _ =>
        law.last (law.typeBody body) fun _ => law.closeScope
  | constructor name params body =>
      rw [Typing.typeMember]
      exact law.first law.openScope fun _ => law.first (law.bindMethodParams params) fun _ =>
        law.last (law.typeBlockOf body) fun _ => law.closeScope
  | type decl =>
      rw [Typing.typeMember]
      exact typeNested decl

end

end TypingLaw

namespace ItemLaw

variable {declared : DeclaredTypes} {P : StepProperty} (law : ItemLaw declared P)

include law

/-- A declaration of a type is typed with all that is visited in it. -/
theorem typeDecl (decl : TypeDecl) : P Unit (typeDecl declared false decl) decl.visited := by
  cases decl with
  | mk span keyword name modifiers bases members isClosed =>
      rw [Typing.typeDecl]
      refine law.first law.known fun outer => ?_
      dsimp only
      split
      · exact law.inSight _ (law.map some (law.internNamed _ _)) (law.typeTypeMembers members)
      · exact law.inSight _ (law.pure _) (law.typeTypeMembers members)

mutual

theorem typeItem (item : Item) : P Unit (typeItem declared item) item.visited := by
  cases item with
  | usingDirective path => exact law.pure _
  | namespaceDecl path isFileScoped items =>
      rw [Typing.typeItem]
      exact law.first law.known fun s => law.first (law.context _) fun _ =>
        law.last (typeItems items) fun _ => law.context _
  | type decl =>
      rw [Typing.typeItem]
      exact law.typeDecl decl
  | stmt stmt =>
      rw [Typing.typeItem]
      exact law.typeStmt stmt

/-- Items are typed with all that is visited in them. -/
theorem typeItems (items : List Item) :
    P Unit (typeItems declared items) (visitedOfItems items) := by
  cases items with
  | nil => exact law.pure _
  | cons item items =>
      rw [Typing.typeItems]
      exact law.bind (typeItem item) fun _ => typeItems items

end

end ItemLaw

end Typing

end Nominal
