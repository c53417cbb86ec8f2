import Nominal.Typing.State

/-!
# Programs Whose Nodes Have Moved

A program carries the spans of the nodes that it was built of, and for nothing but two ends:
types are filed under them, and diagnostics point to them. A `Move` says where each node has
gone; the program with all its spans moved says the same.

What a file declares does not depend on where the declarations stand.

## Main definitions

* `Move`: Where the nodes of a program have gone.
* `Expr.move`, `Stmt.move`, `Item.move`: A program with its spans moved.
* `Part.move`: So for any part of a program.

## Theorems

* `collect_move`: The types that a file declares do not depend on where they stand.
* `resolve_move`: Neither does what a written type means.
-/

namespace Nominal

open Syntax (Kind Lexeme)
open Text (Span)

/-- Where the nodes of a program have gone, by their kinds and spans. -/
abbrev Move := Kind → Span → Span

namespace Program

variable (m : Move)

/-- A parameter of a lambda with its span moved. -/
def LambdaParam.move (p : LambdaParam) : LambdaParam := { p with span := m .lambdaParam p.span }

mutual

/-- An expression with its spans moved. -/
def Expr.move : Expr → Expr
  | .missing => .missing
  | .literal span token => .literal (m .literal span) token
  | .name span token => .name (m .nameRef span) token
  | .this span => .this (m .thisExpr span)
  | .paren span inner => .paren (m .parenExpr span) inner.move
  | .member span receiver name => .member (m .memberAccess span) receiver.move name
  | .call span callee args => .call (m .call span) callee.move (moveExprs args)
  | .index span receiver index => .index (m .indexExpr span) receiver.move index.move
  | .unary span op operand => .unary (m .prefixExpr span) op operand.move
  | .step span operand => .step (m .postfixExpr span) operand.move
  | .binary span op left right => .binary (m .binaryExpr span) op left.move right.move
  | .assign span target value => .assign (m .assignExpr span) target.move value.move
  | .conditional span condition whenTrue whenFalse =>
    .conditional (m .conditionalExpr span) condition.move whenTrue.move whenFalse.move
  | .cast span type operand => .cast (m .castExpr span) type operand.move
  | .lambda span params body =>
    .lambda (m .lambda span) (params.map (LambdaParam.move m)) body.move
  | .anonymous span keyword members =>
    .anonymous (m .anonObjectCreation span) keyword (moveAnonMembers members)
  | .object span type args init =>
    .object (m .objectCreation span) type (moveExprs args) (moveInitializer init)
  | .array span type sizes elements =>
    .array (m .arrayCreation span) type (moveExprs sizes) (moveElements elements)

/-- Expressions with their spans moved. -/
def moveExprs : List Expr → List Expr
  | [] => []
  | e :: es => e.move :: moveExprs es

/-- The elements of an array, if there are braces, with their spans moved. -/
def moveElements : Option (List Expr) → Option (List Expr)
  | none => none
  | some es => some (moveExprs es)

/-- A member of an anonymous object with its spans moved. -/
def AnonMember.move : AnonMember → AnonMember
  | .mk span explicit value => .mk (m .anonMember span) explicit value.move

/-- Members of an anonymous object with their spans moved. -/
def moveAnonMembers : List AnonMember → List AnonMember
  | [] => []
  | a :: as => a.move :: moveAnonMembers as

/-- A member of an initializer with its spans moved. -/
def MemberInit.move : MemberInit → MemberInit
  | .mk name value => .mk name value.move

/-- Members of an initializer with their spans moved. -/
def moveMemberInits : List MemberInit → List MemberInit
  | [] => []
  | i :: is => i.move :: moveMemberInits is

/-- An initializer with its spans moved. -/
def Initializer.move : Initializer → Initializer
  | .mk members elements => .mk (moveMemberInits members) (moveExprs elements)

/-- An initializer, if there is one, with its spans moved. -/
def moveInitializer : Option Initializer → Option Initializer
  | none => none
  | some init => some init.move

/-- A body with its spans moved. -/
def Body.move : Body → Body
  | .missing => .missing
  | .expr value => .expr value.move
  | .block stmts => .block (moveStmts stmts)

/-- A statement with its spans moved. -/
def Stmt.move : Stmt → Stmt
  | .missing => .missing
  | .block stmts => .block (moveStmts stmts)
  | .locals isVar type declarators => .locals isVar type (moveDeclarators declarators)
  | .expr value => .expr value.move
  | .result value => .result value.move
  | .branch condition branches => .branch condition.move (moveStmts branches)
  | .foreach isVar type name iterable body => .foreach isVar type name iterable.move body.move

/-- Statements with their spans moved. -/
def moveStmts : List Stmt → List Stmt
  | [] => []
  | s :: ss => s.move :: moveStmts ss

/-- A variable with its spans moved. -/
def Declarator.move : Declarator → Declarator
  | .mk span name init => .mk (m .varDeclarator span) name init.move

/-- Variables with their spans moved. -/
def moveDeclarators : List Declarator → List Declarator
  | [] => []
  | d :: ds => d.move :: moveDeclarators ds

end

/-- An accessor with its spans moved. -/
def Accessor.move (a : Accessor) : Accessor := { a with body := a.body.move m }

mutual

/-- A declaration with its spans moved. -/
def TypeDecl.move : TypeDecl → TypeDecl
  | .mk span keyword name modifiers bases members isClosed =>
    .mk (m .typeDecl span) keyword name modifiers bases (moveMembers members) isClosed

/-- A member of a type with its spans moved. -/
def Member.move : Member → Member
  | .field isStatic type declarators => .field isStatic type (moveDeclarators m declarators)
  | .property isStatic type name accessors value =>
    .property isStatic type name (accessors.map (List.map (Accessor.move m))) (value.move m)
  | .method isStatic type name params body => .method isStatic type name params (body.move m)
  | .constructor name params body => .constructor name params (body.move m)
  | .type decl => .type decl.move

/-- Members of a type with their spans moved. -/
def moveMembers : List Member → List Member
  | [] => []
  | member :: members => member.move :: moveMembers members

end

mutual

/-- An item with its spans moved. -/
def Item.move : Item → Item
  | .usingDirective path => .usingDirective path
  | .namespaceDecl path isFileScoped items => .namespaceDecl path isFileScoped (moveItems items)
  | .type decl => .type (decl.move m)
  | .stmt stmt => .stmt (stmt.move m)

/-- Items with their spans moved. -/
def moveItems : List Item → List Item
  | [] => []
  | item :: items => item.move :: moveItems items

end

/-- A file with its spans moved. -/
def SourceFile.move (file : SourceFile) : SourceFile := ⟨moveItems m file.items⟩

/-- A part with its spans moved. -/
def Part.move : Part → Part
  | .token l => .token l
  | .expr e => .expr (e.move m)
  | .type t => .type t
  | .stmt s => .stmt (s.move m)
  | .member d => .member (d.move m)
  | .typeDecl d => .typeDecl (d.move m)
  | .item i => .item (i.move m)
  | .path list => .path list
  | .bases list => .bases list
  | .typeArgs list => .typeArgs list
  | .params list => .params list
  | .param p => .param p
  | .accessors list => .accessors (list.map (Accessor.move m))
  | .accessor a => .accessor (a.move m)
  | .declarator d => .declarator (d.move m)
  | .args list => .args (moveExprs m list)
  | .lambdaParams list => .lambdaParams (list.map (LambdaParam.move m))
  | .lambdaParam p => .lambdaParam (p.move m)
  | .anonMember a => .anonMember (a.move m)
  | .memberInit i => .memberInit (i.move m)
  | .objectInit i => .objectInit (i.move m)
  | .arrayInit list => .arrayInit (moveExprs m list)
  | .file f => .file (f.move m)
  | .none => .none

section

variable {m : Move}

@[simp]
theorem moveExprs_eq (es : List Expr) : moveExprs m es = es.map (Expr.move m) := by
  induction es with
  | nil => rfl
  | cons e es ih => rw [moveExprs, ih, List.map_cons]

@[simp]
theorem moveElements_eq (es : Option (List Expr)) :
    moveElements m es = es.map (List.map (Expr.move m)) := by
  cases es with
  | none => rfl
  | some es => rw [moveElements, moveExprs_eq, Option.map_some]

@[simp]
theorem moveAnonMembers_eq (as : List AnonMember) :
    moveAnonMembers m as = as.map (AnonMember.move m) := by
  induction as with
  | nil => rfl
  | cons a as ih => rw [moveAnonMembers, ih, List.map_cons]

@[simp]
theorem moveMemberInits_eq (is : List MemberInit) :
    moveMemberInits m is = is.map (MemberInit.move m) := by
  induction is with
  | nil => rfl
  | cons i is ih => rw [moveMemberInits, ih, List.map_cons]

@[simp]
theorem moveInitializer_eq (init : Option Initializer) :
    moveInitializer m init = init.map (Initializer.move m) := by
  cases init <;> rfl

@[simp]
theorem moveStmts_eq (ss : List Stmt) : moveStmts m ss = ss.map (Stmt.move m) := by
  induction ss with
  | nil => rfl
  | cons s ss ih => rw [moveStmts, ih, List.map_cons]

@[simp]
theorem moveDeclarators_eq (ds : List Declarator) :
    moveDeclarators m ds = ds.map (Declarator.move m) := by
  induction ds with
  | nil => rfl
  | cons d ds ih => rw [moveDeclarators, ih, List.map_cons]

@[simp]
theorem moveMembers_eq (ms : List Member) : moveMembers m ms = ms.map (Member.move m) := by
  induction ms with
  | nil => rfl
  | cons member ms ih => rw [moveMembers, ih, List.map_cons]

@[simp]
theorem moveItems_eq (is : List Item) : moveItems m is = is.map (Item.move m) := by
  induction is with
  | nil => rfl
  | cons item is ih => rw [moveItems, ih, List.map_cons]

@[simp]
theorem Expr.kind_move (e : Expr) : (e.move m).kind = e.kind := by
  cases e <;> rfl

@[simp]
theorem Expr.span?_move (e : Expr) : (e.move m).span? = e.span?.map (m e.kind) := by
  cases e <;> rfl

@[simp]
theorem Expr.isMissing_move (e : Expr) : (e.move m).isMissing = e.isMissing := by
  cases e <;> rfl

@[simp]
theorem AnonMember.name?_move (a : AnonMember) : (a.move m).name? = a.name? := by
  rcases a with ⟨span, explicit, value⟩
  cases explicit with
  | some name => rfl
  | none => cases value <;> rfl

@[simp]
theorem TypeDecl.name_move (d : TypeDecl) : (d.move m).name = d.name := by
  cases d
  rfl

@[simp]
theorem TypeDecl.span_move (d : TypeDecl) : (d.move m).span = m .typeDecl d.span := by
  cases d
  rfl

@[simp]
theorem TypeDecl.isPartial_move (d : TypeDecl) : (d.move m).isPartial = d.isPartial := by
  cases d
  rfl

@[simp]
theorem TypeDecl.members_move (d : TypeDecl) :
    (d.move m).members = d.members.map (Member.move m) := by
  cases d
  simp only [TypeDecl.move, TypeDecl.members, moveMembers_eq]

end

end Program

namespace Types

open Program (Item SourceFile TypeDecl TypeRef Member Declarator)

/-- A declared type with its spans moved. -/
def DeclaredType.move (m : Move) (t : DeclaredType) : DeclaredType :=
  { t with declarations := t.declarations.map (m .typeDecl) }

/-- Declared types with their spans moved. -/
def DeclaredTypes.move (m : Move) (d : DeclaredTypes) : DeclaredTypes :=
  { d with table := d.table.map (DeclaredType.move m) }

variable {m : Move}

@[simp]
theorem NameContext.usingsOf_move (items : List Item) :
    NameContext.usingsOf (items.map (Item.move m)) = NameContext.usingsOf items := by
  rw [NameContext.usingsOf, NameContext.usingsOf, List.filterMap_map]
  congr 1
  funext item
  cases item <;> rfl

@[simp]
theorem NameContext.ofFile_move (items : List Item) :
    NameContext.ofFile (items.map (Item.move m)) = NameContext.ofFile items := by
  rw [NameContext.ofFile, NameContext.usingsOf_move, NameContext.ofFile]

@[simp]
theorem NameContext.enter_move (c : NameContext) (path : Option (List String))
    (items : List Item) : c.enter path (items.map (Item.move m)) = c.enter path items := by
  rw [NameContext.enter, NameContext.usingsOf_move, NameContext.enter]

mutual

theorem typesOfItem_move (c : NameContext) (item : Item) :
    typesOfItem c (item.move m) = (typesOfItem c item).map fun p => (p.1.move m, p.2) := by
  cases item with
  | usingDirective path => rfl
  | stmt stmt => rfl
  | type decl => rfl
  | namespaceDecl path isFileScoped items =>
      simp only [Item.move, Program.moveItems_eq, typesOfItem, NameContext.enter_move]
      exact typesOfItems_move _ items

theorem typesOfItems_move (c : NameContext) (items : List Item) :
    typesOfItems c (items.map (Item.move m))
      = (typesOfItems c items).map fun p => (p.1.move m, p.2) := by
  cases items with
  | nil => rfl
  | cons item items =>
      simp only [List.map_cons, typesOfItems, List.map_append, typesOfItem_move c item,
        typesOfItems_move c items]

end

namespace DeclaredTypes

variable (d : DeclaredTypes)

@[simp]
theorem get?_move (home : Namespace) (name : String) :
    (d.move m).get? home name = (d.get? home name).map (DeclaredType.move m) :=
  List.find?_map ..

@[simp]
theorem isSome_get?_move (home : Namespace) (name : String) :
    ((d.move m).get? home name).isSome = (d.get? home name).isSome := by
  rw [get?_move, Option.isSome_map]

@[simp]
theorem hasType_move : (d.move m).hasType = d.hasType := by
  funext home name arity
  rw [hasType, isSome_get?_move, hasType]

@[simp]
theorem isNamespace_move : (d.move m).isNamespace = d.isNamespace := rfl

@[simp]
theorem homeOfPath?_move : (d.move m).homeOfPath? = d.homeOfPath? := by
  funext c qualifier name arity
  simp only [homeOfPath?, homeOf?, onlyHome?, hasType_move]

@[simp]
theorem resolvePath_move : (d.move m).resolvePath = d.resolvePath := by
  funext c r segments args
  simp only [resolvePath, homeOfPath?_move]

mutual

theorem resolve_move (c : NameContext) (r : Registry) (type : TypeRef) :
    (d.move m).resolve c r type = d.resolve c r type := by
  cases type with
  | missing => rfl
  | predefined keyword => rfl
  | named segments args =>
      cases args with
      | none => simp only [resolve, resolvePath_move]
      | some args => simp only [resolve, resolvePath_move, resolveAll_move c r args]
  | array element => simp only [resolve, resolve_move c r element]
  | nullable inner => simp only [resolve, resolve_move c r inner]

theorem resolveAll_move (c : NameContext) (r : Registry) (types : List TypeRef) :
    (d.move m).resolveAll c r types = d.resolveAll c r types := by
  cases types with
  | nil => rfl
  | cons type types =>
      simp only [resolveAll, resolve_move c r type, resolveAll_move c _ types]

end

theorem modify_move {f f' : DeclaredType → DeclaredType} (home : Namespace) (name : String)
    (hf : ∀ t, f' (t.move m) = (f t).move m) :
    (d.move m).modify home name f' = (d.modify home name f).move m := by
  simp only [modify, move, List.map_map]
  congr 1
  refine List.map_congr_left fun t _ => ?_
  simp only [Function.comp_apply]
  by_cases h : t.home = home ∧ t.name = name
  · rw [if_pos h, if_pos (show (t.move m).home = home ∧ (t.move m).name = name from h), hf]
  · rw [if_neg h, if_neg (show ¬((t.move m).home = home ∧ (t.move m).name = name) from h)]

theorem declare_move (decl : TypeDecl) (home : Namespace) :
    (d.move m).declare (decl.move m) home = (d.declare decl home).move m := by
  have hadd : (d.move m).addNamespace home = (d.addNamespace home).move m := rfl
  simp only [declare, TypeDecl.name_move, hadd, get?_move]
  cases decl.name with
  | none => rfl
  | some name =>
      dsimp only
      cases (d.addNamespace home).get? home name with
      | none =>
          simp only [Option.map_none, move, List.map_append, List.map_cons, List.map_nil,
            DeclaredType.move, TypeDecl.span_move, TypeDecl.isPartial_move]
      | some found =>
          refine modify_move _ _ _ fun t => ?_
          simp only [DeclaredType.move, TypeDecl.span_move, TypeDecl.isPartial_move,
            List.map_append, List.map_cons, List.map_nil]

theorem foldl_declare_move (decls : List (TypeDecl × NameContext)) :
    (decls.map fun p => (p.1.move m, p.2)).foldl (fun d p => d.declare p.1 p.2.home) (d.move m)
      = (decls.foldl (fun d p => d.declare p.1 p.2.home) d).move m := by
  induction decls generalizing d with
  | nil => rfl
  | cons p decls ih => rw [List.map_cons, List.foldl_cons, declare_move, ih, List.foldl_cons]

theorem resolveMembers_move (c : NameContext) (owner : String) (r : Registry)
    (members : List Member) :
    (d.move m).resolveMembers c owner r (members.map (Member.move m))
      = d.resolveMembers c owner r members := by
  induction members generalizing r with
  | nil => rfl
  | cons member members ih =>
      cases member with
      | field isStatic type declarators =>
          simp only [List.map_cons, Member.move, Program.moveDeclarators_eq, resolveMembers,
            resolve_move, List.filterMap_map, ih]
          -- Of the variables only the names are asked for.
          refine congrArg (fun found => (found ++ _, _)) ?_
          congr 1
          funext declarator
          cases declarator
          rfl
      | property isStatic type name accessors value =>
          simp only [List.map_cons, Member.move, resolveMembers, resolve_move, ih]
      | method isStatic type name params body =>
          cases type <;> simp only [List.map_cons, Member.move, resolveMembers, resolve_move, ih]
      | constructor name params body =>
          simp only [List.map_cons, Member.move, resolveMembers, ih]
      | type decl => simp only [List.map_cons, Member.move, resolveMembers, ih]

theorem resolveTypes_move (r : Registry) (decls : List (TypeDecl × NameContext)) :
    (d.move m).resolveTypes r (decls.map fun p => (p.1.move m, p.2)) = d.resolveTypes r decls := by
  induction decls generalizing r with
  | nil => rfl
  | cons p decls ih =>
      simp only [List.map_cons, resolveTypes, TypeDecl.name_move, TypeDecl.members_move,
        resolveMembers_move, ih]

theorem addMember_move (member : ResolvedMember) :
    (d.move m).addMember member = (d.addMember member).move m := by
  refine modify_move _ _ _ fun t => ?_
  split <;> rfl

theorem foldl_addMember_move (members : List ResolvedMember) :
    members.foldl addMember (d.move m) = (members.foldl addMember d).move m := by
  induction members generalizing d with
  | nil => rfl
  | cons member members ih => rw [List.foldl_cons, addMember_move, ih, List.foldl_cons]

/-- The types that a file declares do not depend on where they stand. -/
theorem collect_move (file : SourceFile) (r : Registry) :
    collect (file.move m) r = ((collect file r).1.move m, (collect file r).2) := by
  have htypes : typesInContext (file.move m)
      = (typesInContext file).map fun p => (p.1.move m, p.2) := by
    rw [typesInContext, SourceFile.move, Program.moveItems_eq, NameContext.ofFile_move]
    exact typesOfItems_move _ _
  have hempty : empty = empty.move m := rfl
  simp only [collect, htypes]
  rw [hempty, foldl_declare_move, resolveTypes_move, foldl_addMember_move]
  rfl

theorem ofType?_move (r : Registry) (t : TypeId) :
    (d.move m).ofType? r t = (d.ofType? r t).map (DeclaredType.move m) := by
  rw [ofType?, ofType?]
  split
  · exact get?_move d _ _
  · rfl

@[simp]
theorem member?_move : (d.move m).member? = d.member? := by
  funext r t name
  rw [member?, member?, ofType?_move, Option.bind_map]
  rfl

@[simp]
theorem method?_move : (d.move m).method? = d.method? := by
  funext r t name
  rw [method?, method?, ofType?_move, Option.bind_map]
  rfl

end DeclaredTypes

end Types

end Nominal
