import Nominal.Program.Basic
import Nominal.Syntax.Tree

/-!
# The Program of a Tree

A node of a tree is turned into a part of a program from the parts that its children were
turned into. So the whole is one fold over the tree, and what a node means never depends
on anything above it or beside it.

A node picks its parts among its direct children by their sort: the first expression is
the left operand, the second the right one. What it has no use for, such as a node around
skipped tokens, is passed over.

## Main definitions

* `Part`: What a leaf or a node of a tree is in a program.
* `Part.assemble`: The part that a node is, by its kind and the parts of its children.
* `Part.ofTree`: The part that a tree is, at an offset.
* `SourceFile.ofTree`: The program of a whole tree.
-/

namespace Nominal

namespace Program

open Syntax (Kind Lexeme Tree)
open Text (Span)

/-- What a leaf or a node of a tree is in a program. -/
inductive Part where
  | token (lexeme : Lexeme)
  | expr (expr : Expr)
  | type (type : TypeRef)
  | stmt (stmt : Stmt)
  | member (member : Member)
  | typeDecl (decl : TypeDecl)
  | item (item : Item)
  | path (segments : List String)
  | bases (types : List TypeRef)
  | typeArgs (types : List TypeRef)
  | params (params : List Param)
  | param (param : Param)
  | accessors (accessors : List Accessor)
  | accessor (accessor : Accessor)
  | declarator (declarator : Declarator)
  | args (args : List Expr)
  | lambdaParams (params : List LambdaParam)
  | lambdaParam (param : LambdaParam)
  | anonMember (member : AnonMember)
  | memberInit (member : MemberInit)
  | objectInit (init : Initializer)
  | arrayInit (elements : List Expr)
  | file (file : SourceFile)
  /-- A node that says nothing. -/
  | none

namespace Part

/-- The tokens among parts. -/
def tokens (ps : List Part) : List Lexeme :=
  ps.filterMap fun
    | .token l => some l
    | _ => Option.none

/-- The first token of a kind. -/
def token? (kind : Kind) (ps : List Part) : Option Lexeme :=
  (tokens ps).find? fun l => l.kind == kind

/-- Whether there is a token of a kind. -/
def hasToken (kind : Kind) (ps : List Part) : Bool := (token? kind ps).isSome

/-- The first identifier. -/
def name? (ps : List Part) : Option String := (token? .id ps).map Lexeme.text

/-- The texts of all identifiers. -/
def names (ps : List Part) : List String :=
  ((tokens ps).filter fun l => l.kind == .id).map Lexeme.text

/-- The first token that is no trivia. -/
def op? (ps : List Part) : Option Lexeme := (tokens ps).find? fun l => !l.isTrivia

/-- The expressions among parts. -/
def exprs (ps : List Part) : List Expr :=
  ps.filterMap fun
    | .expr e => some e
    | _ => Option.none

/-- The expression after `n` others. -/
def exprAt (n : Nat) (ps : List Part) : Expr := ((exprs ps)[n]?).getD .missing

/-- The types among parts. -/
def types (ps : List Part) : List TypeRef :=
  ps.filterMap fun
    | .type t => some t
    | _ => Option.none

/-- The first type. -/
def firstType (ps : List Part) : TypeRef := (types ps).head?.getD .missing

/-- The statements among parts. -/
def stmts (ps : List Part) : List Stmt :=
  ps.filterMap fun
    | .stmt s => some s
    | _ => Option.none

/-- The declarators among parts. -/
def declarators (ps : List Part) : List Declarator :=
  ps.filterMap fun
    | .declarator d => some d
    | _ => Option.none

/-- The statements of the first block, or else the first expression. -/
def body (ps : List Part) : Body :=
  let block := ps.findSome? fun
    | .stmt (.block ss) => some ss
    | _ => Option.none
  match block, (exprs ps).head? with
  | some ss, _ => .block ss
  | Option.none, some e => .expr e
  | Option.none, Option.none => .missing

/-- The first path. -/
def path? (ps : List Part) : Option (List String) :=
  ps.findSome? fun
    | .path segments => some segments
    | _ => Option.none

/-- The parameters of a method or constructor. -/
def paramsOf (ps : List Part) : List Param :=
  (ps.findSome? fun
    | .params list => some list
    | _ => Option.none).getD []

/-- The arguments of a call or a creation. -/
def argsOf (ps : List Part) : List Expr :=
  (ps.findSome? fun
    | .args list => some list
    | _ => Option.none).getD []

/-- The items among parts. -/
def items (ps : List Part) : List Item :=
  ps.filterMap fun
    | .item i => some i
    | .typeDecl d => some (.type d)
    | .stmt s => some (.stmt s)
    | _ => Option.none

/-- The members among parts. -/
def members (ps : List Part) : List Member :=
  ps.filterMap fun
    | .member m => some m
    | .typeDecl d => some (.type d)
    | _ => Option.none

/-- The type declaration that parts make up. -/
def declaration (span : Span) (ps : List Part) : TypeDecl :=
  let keyword := (tokens ps).find? fun l => l.kind == .kwClass || l.kind == .kwStruct
  let bases := ps.findSome? fun
    | .bases types => some types
    | _ => Option.none
  .mk span (keyword.map Lexeme.text) (name? ps)
    ((tokens ps).filter fun l => l.kind.isModifier) bases (members ps)
    (hasToken .braceClose ps)

/-- The expression that parts make up, by the kind of the node. -/
def expression (kind : Kind) (span : Span) (ps : List Part) : Expr :=
  match kind with
  | .literal => .literal span (tokens ps).head?
  | .nameRef =>
    .name span ((tokens ps).find? fun l => l.kind == .id || l.kind == .predefinedType)
  | .thisExpr => .this span
  | .parenExpr => .paren span (exprAt 0 ps)
  | .memberAccess => .member span (exprAt 0 ps) (name? ps)
  | .call => .call span (exprAt 0 ps) (argsOf ps)
  | .indexExpr => .index span (exprAt 0 ps) (exprAt 1 ps)
  | .prefixExpr => .unary span (op? ps) (exprAt 0 ps)
  | .postfixExpr => .step span (exprAt 0 ps)
  | .binaryExpr => .binary span (op? ps) (exprAt 0 ps) (exprAt 1 ps)
  | .assignExpr => .assign span (exprAt 0 ps) (exprAt 1 ps)
  | .conditionalExpr => .conditional span (exprAt 0 ps) (exprAt 1 ps) (exprAt 2 ps)
  | .castExpr => .cast span (firstType ps) (exprAt 0 ps)
  | .lambda =>
    let params := ps.findSome? fun
      | .lambdaParams list => some list
      | _ => Option.none
    .lambda span (params.getD []) (body ps)
  | .anonObjectCreation =>
    .anonymous span ((token? .kwNew ps).map Lexeme.text)
      (ps.filterMap fun
        | .anonMember m => some m
        | _ => Option.none)
  | .objectCreation =>
    .object span (firstType ps) (argsOf ps)
      (ps.findSome? fun
        | .objectInit init => some init
        | _ => Option.none)
  | .arrayCreation =>
    .array span (firstType ps) (exprs ps)
      (ps.findSome? fun
        | .arrayInit elements => some elements
        | _ => Option.none)
  | _ => .missing

/-- The part that a node is, by its kind, its span and the parts of its children. -/
def assemble (kind : Kind) (span : Span) (ps : List Part) : Part :=
  match kind with
  | .root => .file ⟨items ps⟩
  | .usingDirective => .item (.usingDirective (path? ps))
  | .namespaceDecl => .item (.namespaceDecl (path? ps) (hasToken .semicolon ps) (items ps))
  | .path => .path (names ps)
  | .typeDecl => .typeDecl (declaration span ps)
  | .baseList => .bases (types ps)
  | .fieldDecl => .member (.field (hasToken .kwStatic ps) (firstType ps) (declarators ps))
  | .propertyDecl =>
    let accessors := ps.findSome? fun
      | .accessors list => some list
      | _ => Option.none
    .member
      (.property (hasToken .kwStatic ps) (firstType ps) (name? ps) accessors (exprAt 0 ps))
  | .accessorList =>
    .accessors (ps.filterMap fun
      | .accessor a => some a
      | _ => Option.none)
  | .accessor => .accessor ⟨name? ps, body ps⟩
  | .methodDecl =>
    .member
      (.method (hasToken .kwStatic ps) (firstType ps) (name? ps) (paramsOf ps) (body ps))
  | .constructorDecl => .member (.constructor (name? ps) (paramsOf ps) (body ps))
  | .paramList =>
    .params (ps.filterMap fun
      | .param p => some p
      | _ => Option.none)
  | .param => .param ⟨firstType ps, name? ps⟩
  | .predefType => .type (.predefined ((token? .predefinedType ps).map Lexeme.text))
  | .namedType =>
    .type (.named (names ps)
      (ps.findSome? fun
        | .typeArgs list => some list
        | _ => Option.none))
  | .typeArgList => .typeArgs (types ps)
  | .arrayType => .type (.array (firstType ps))
  | .nullableType => .type (.nullable (firstType ps))
  | .block => .stmt (.block (stmts ps))
  | .localDecl => .stmt (.locals (hasToken .kwVar ps) (firstType ps) (declarators ps))
  | .varDeclarator => .declarator (.mk span (name? ps) (exprAt 0 ps))
  | .exprStmt => .stmt (.expr (exprAt 0 ps))
  | .returnStmt => .stmt (.result (exprAt 0 ps))
  | .ifStmt => .stmt (.branch (exprAt 0 ps) (stmts ps))
  | .foreachStmt =>
    .stmt (.foreach (hasToken .kwVar ps) (firstType ps) (name? ps) (exprAt 0 ps)
      ((stmts ps).head?.getD .missing))
  | .argList => .args (exprs ps)
  | .lambdaParamList =>
    .lambdaParams (ps.filterMap fun
      | .lambdaParam p => some p
      | _ => Option.none)
  | .lambdaParam => .lambdaParam ⟨span, name? ps⟩
  | .anonMember =>
    .anonMember (.mk span (if hasToken .equals ps then name? ps else Option.none) (exprAt 0 ps))
  | .memberInit => .memberInit (.mk (name? ps) (exprAt 0 ps))
  | .objectInit =>
    .objectInit (.mk
      (ps.filterMap fun
        | .memberInit m => some m
        | _ => Option.none)
      (exprs ps))
  | .arrayInit => .arrayInit (exprs ps)
  | .literal | .nameRef | .thisExpr | .parenExpr | .memberAccess | .call | .indexExpr
  | .prefixExpr | .postfixExpr | .binaryExpr | .assignExpr | .conditionalExpr | .castExpr
  | .lambda | .anonObjectCreation | .objectCreation | .arrayCreation =>
    .expr (expression kind span ps)
  | _ => .none

mutual

/-- The part that a tree is, if the tree starts at an offset. -/
def ofTree (start : Nat) : Tree → Part
  | .token lexeme => .token lexeme
  | .node kind children =>
    assemble kind (Span.ofWidth start (Tree.widthOf children)) (ofTrees start children)

/-- The parts that several trees are, one behind the other. -/
def ofTrees (start : Nat) : List Tree → List Part
  | [] => []
  | t :: ts => ofTree start t :: ofTrees (start + t.width) ts

end

end Part

/-- The program of a whole tree. -/
def SourceFile.ofTree (t : Tree) : SourceFile :=
  match Part.ofTree 0 t with
  | .file file => file
  | _ => ⟨[]⟩

end Program

end Nominal
