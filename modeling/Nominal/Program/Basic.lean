import Nominal.Syntax.Lexeme

/-!
# Programs

A program is what a source tree says, without trivia and punctuation: types, expressions,
statements, members and items. It is built of any tree, also of one with mistakes in it,
so whatever the grammar demands may be absent here. An absent expression or type is
`missing`, an absent name is `none`.

An expression carries the span it covers, because what is found out about it later is
filed under its kind and its span. So do variables, and members of anonymous objects,
which diagnostics may point to.

## Main definitions

* `TypeRef`: A type as it is written.
* `Expr`: An expression, with `Body` for what a lambda or a method does.
* `Stmt`: A statement.
* `TypeDecl`: A class or a struct, with `Member` for what it declares.
* `Item`: A member of a file or a namespace.
* `SourceFile`: A whole file.
-/

namespace Nominal

namespace Program

open Syntax (Kind Lexeme)
open Text (Span)

/-- A type as it is written. -/
inductive TypeRef where
  | missing
  | predefined (keyword : Option String)
  /-- A dotted name, and its type arguments if there are brackets. -/
  | named (segments : List String) (args : Option (List TypeRef))
  | array (element : TypeRef)
  | nullable (inner : TypeRef)
deriving Inhabited

/-- A parameter of a method or a constructor. -/
structure Param where
  type : TypeRef
  name : Option String

/-- A parameter of a lambda. -/
structure LambdaParam where
  span : Span
  name : Option String

mutual

/-- An expression. -/
inductive Expr where
  | missing
  | literal (span : Span) (token : Option Lexeme)
  /-- An identifier, or the keyword of a built-in type. -/
  | name (span : Span) (token : Option Lexeme)
  | this (span : Span)
  | paren (span : Span) (inner : Expr)
  | member (span : Span) (receiver : Expr) (name : Option String)
  | call (span : Span) (callee : Expr) (args : List Expr)
  | index (span : Span) (receiver index : Expr)
  /-- An operator before its operand. -/
  | unary (span : Span) (op : Option Lexeme) (operand : Expr)
  /-- `++` or `--` behind its operand. -/
  | step (span : Span) (operand : Expr)
  | binary (span : Span) (op : Option Lexeme) (left right : Expr)
  | assign (span : Span) (target value : Expr)
  | conditional (span : Span) (condition whenTrue whenFalse : Expr)
  | cast (span : Span) (type : TypeRef) (operand : Expr)
  | lambda (span : Span) (params : List LambdaParam) (body : Body)
  | anonymous (span : Span) (keyword : Option String) (members : List AnonMember)
  | object (span : Span) (type : TypeRef) (args : List Expr) (init : Option Initializer)
  /-- A new array: expressions for its size, and its elements if there are braces. -/
  | array (span : Span) (type : TypeRef) (sizes : List Expr) (elements : Option (List Expr))

/-- A member of an anonymous object, with the name in front of an equals sign if there is
    one. -/
inductive AnonMember where
  | mk (span : Span) (explicit : Option String) (value : Expr)

/-- A member of an object initializer. -/
inductive MemberInit where
  | mk (name : Option String) (value : Expr)

/-- The braces behind the type of a new object: named members and plain elements. -/
inductive Initializer where
  | mk (members : List MemberInit) (elements : List Expr)

/-- What a lambda, a method or an accessor does. -/
inductive Body where
  | missing
  | expr (value : Expr)
  | block (stmts : List Stmt)

/-- A statement. -/
inductive Stmt where
  | missing
  | block (stmts : List Stmt)
  | locals (isVar : Bool) (type : TypeRef) (declarators : List Declarator)
  | expr (value : Expr)
  | result (value : Expr)
  | branch (condition : Expr) (branches : List Stmt)
  | foreach (isVar : Bool) (type : TypeRef) (name : Option String) (iterable : Expr)
      (body : Stmt)

/-- A variable or field with its initial value. -/
inductive Declarator where
  | mk (span : Span) (name : Option String) (init : Expr)

end

instance : Inhabited Expr := ⟨.missing⟩

instance : Inhabited Stmt := ⟨.missing⟩

/-- A `get`, `set` or `init` of a property. -/
structure Accessor where
  name : Option String
  body : Body

mutual

/-- A class or a struct. -/
inductive TypeDecl where
  | mk (span : Span) (keyword name : Option String) (modifiers : List Lexeme)
      (bases : Option (List TypeRef)) (members : List Member) (isClosed : Bool)

/-- What a type declares. -/
inductive Member where
  | field (isStatic : Bool) (type : TypeRef) (declarators : List Declarator)
  | property (isStatic : Bool) (type : TypeRef) (name : Option String)
      (accessors : Option (List Accessor)) (value : Expr)
  /-- A method; one without a type returns nothing. -/
  | method (isStatic : Bool) (type : TypeRef) (name : Option String) (params : List Param)
      (body : Body)
  | constructor (name : Option String) (params : List Param) (body : Body)
  | type (decl : TypeDecl)

end

/-- A member of a file or a namespace. -/
inductive Item where
  | usingDirective (path : Option (List String))
  /-- A namespace; one that is scoped to the file has no braces. -/
  | namespaceDecl (path : Option (List String)) (isFileScoped : Bool) (items : List Item)
  | type (decl : TypeDecl)
  | stmt (stmt : Stmt)

/-- A whole file. -/
structure SourceFile where
  items : List Item

namespace Expr

/-- The kind of the node that an expression was read as. -/
def kind : Expr → Kind
  | missing => .error
  | literal .. => .literal
  | name .. => .nameRef
  | this .. => .thisExpr
  | paren .. => .parenExpr
  | member .. => .memberAccess
  | call .. => .call
  | index .. => .indexExpr
  | unary .. => .prefixExpr
  | step .. => .postfixExpr
  | binary .. => .binaryExpr
  | assign .. => .assignExpr
  | conditional .. => .conditionalExpr
  | cast .. => .castExpr
  | lambda .. => .lambda
  | anonymous .. => .anonObjectCreation
  | object .. => .objectCreation
  | array .. => .arrayCreation

/-- The span that an expression covers; an absent one covers none. -/
def span? : Expr → Option Span
  | missing => none
  | literal span .. | name span .. | this span | paren span .. | member span .. => some span
  | call span .. | index span .. | unary span .. | step span .. | binary span .. => some span
  | assign span .. | conditional span .. | cast span .. | lambda span .. => some span
  | anonymous span .. | object span .. | array span .. => some span

/-- Whether an expression is absent. -/
def isMissing : Expr → Bool
  | missing => true
  | _ => false

end Expr

/-- The sorts of literals. -/
inductive LiteralSort where
  | string | char | int | real | bool | null
deriving DecidableEq, Repr

namespace LiteralSort

/-- The sort of a literal with a token of a kind. -/
def ofKind? : Kind → Option LiteralSort
  | .stringLiteral => some string
  | .charLiteral => some char
  | .intLiteral => some int
  | .realLiteral => some real
  | .kwTrue | .kwFalse => some bool
  | .kwNull => some null
  | _ => none

end LiteralSort

namespace AnonMember

/-- The span that a member covers. -/
def span : AnonMember → Span
  | mk span _ _ => span

/-- The name in front of an equals sign. -/
def explicit : AnonMember → Option String
  | mk _ explicit _ => explicit

/-- The value of a member. -/
def value : AnonMember → Expr
  | mk _ _ value => value

/-- The name of a member: the one written, or else the name that its value brings. -/
def name? : AnonMember → Option String
  | mk _ (some name) _ => some name
  | mk _ none (.name _ token) => token.map Lexeme.text
  | mk _ none (.member _ _ name) => name
  | mk _ none _ => none

end AnonMember

namespace TypeDecl

/-- The span that a declaration covers. -/
def span : TypeDecl → Span
  | mk span .. => span

/-- The declared name. -/
def name : TypeDecl → Option String
  | mk _ _ name .. => name

/-- The members of a declaration. -/
def members : TypeDecl → List Member
  | mk _ _ _ _ _ members _ => members

/-- Whether a declaration may be one of several of the same type. -/
def isPartial : TypeDecl → Bool
  | mk _ _ _ modifiers .. => modifiers.any fun l => l.kind == .kwPartial

end TypeDecl

/-- The dotted text of a path. -/
def pathText (segments : List String) : String := ".".intercalate segments

namespace Item

/-- The path of a using directive that has one. -/
def usingPath? : Item → Option String
  | usingDirective path => path.map pathText
  | _ => none

/-- Whether an item is a using directive. -/
def isUsing : Item → Bool
  | usingDirective _ => true
  | _ => false

/-- The type that an item declares. -/
def typeDecl? : Item → Option TypeDecl
  | type decl => some decl
  | _ => none

end Item

end Program

end Nominal
