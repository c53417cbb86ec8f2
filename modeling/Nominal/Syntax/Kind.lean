/-!
# Kinds of Tokens and Nodes

Every leaf and every inner node of a source tree carries one kind, and the kinds of
tokens come first. Their order is part of the interface: a kind is known to the outside
by its name and by its place in that order, and a set of kinds is listed in it.

Four kinds are trivia. They separate tokens and mean nothing, so a parser steps over
them and a tree keeps them only to be able to give the text back.

## Main definitions

* `Kind`: The kind of a token or of a node.
* `Kind.all`: Every kind, in order.
* `Kind.name`: What a kind is called from outside.
* `Kind.spelling?`: The text of a kind that has only one.
* `Kind.reserved?`: The kind of a word that is no identifier.
* `Kind.isTrivia`: Blanks, line ends and comments.

## Theorems

* `Kind.mem_all`: The list of kinds misses none.
* `Kind.ofName?_name`: A kind is found again by its name.
-/

namespace Nominal

namespace Syntax

/-- The kind of a token or of a node. -/
inductive Kind where
  -- punctuation and operators
  | parenOpen | parenClose | braceOpen | braceClose | bracketOpen | bracketClose | semicolon
  | comma | dot | colon | question | questionQuestion | fatArrow | eqEq | bangEq | equals
  | plusEq | minusEq | plusPlus | minusMinus | plus | minus | star | slash | percent | bang
  | ltEq | gtEq | lt | gt | ampAmp | pipePipe
  -- literals
  | stringLiteral | charLiteral | intLiteral | realLiteral
  -- reserved words
  | kwUsing | kwNamespace | kwClass | kwStruct | kwPublic | kwPrivate | kwProtected
  | kwInternal | kwStatic | kwPartial | kwReadonly | kwAbstract | kwSealed | kwVar | kwNew
  | kwReturn | kwIf | kwElse | kwForeach | kwIn | kwThis | kwNull | kwTrue | kwFalse | kwVoid
  -- built-in type names and identifiers
  | predefinedType | id
  -- trivia
  | whitespace | newline | lineComment | blockComment
  -- what no pattern matches, and the node that wraps skipped tokens
  | garbage | error
  -- declarations
  | root | usingDirective | namespaceDecl | path | typeDecl | baseList | fieldDecl
  | propertyDecl | accessorList | accessor | methodDecl | constructorDecl | paramList | param
  -- types
  | predefType | namedType | typeArgList | arrayType | nullableType
  -- statements
  | block | localDecl | varDeclarator | exprStmt | returnStmt | ifStmt | foreachStmt
  -- expressions
  | literal | nameRef | thisExpr | parenExpr | memberAccess | call | argList | indexExpr
  | prefixExpr | postfixExpr | binaryExpr | assignExpr | conditionalExpr | castExpr | lambda
  | lambdaParamList | lambdaParam | anonObjectCreation | anonMember | objectCreation
  | objectInit | memberInit | arrayCreation | arrayInit
deriving DecidableEq, Repr, Inhabited

namespace Kind

/-- Every kind, in the order of their numbers. -/
def all : List Kind :=
  [.parenOpen, .parenClose, .braceOpen, .braceClose, .bracketOpen, .bracketClose, .semicolon,
   .comma, .dot, .colon, .question, .questionQuestion, .fatArrow, .eqEq, .bangEq, .equals,
   .plusEq, .minusEq, .plusPlus, .minusMinus, .plus, .minus, .star, .slash, .percent, .bang,
   .ltEq, .gtEq, .lt, .gt, .ampAmp, .pipePipe, .stringLiteral, .charLiteral, .intLiteral,
   .realLiteral, .kwUsing, .kwNamespace, .kwClass, .kwStruct, .kwPublic, .kwPrivate,
   .kwProtected, .kwInternal, .kwStatic, .kwPartial, .kwReadonly, .kwAbstract, .kwSealed,
   .kwVar, .kwNew, .kwReturn, .kwIf, .kwElse, .kwForeach, .kwIn, .kwThis, .kwNull, .kwTrue,
   .kwFalse, .kwVoid, .predefinedType, .id, .whitespace, .newline, .lineComment, .blockComment,
   .garbage, .error, .root, .usingDirective, .namespaceDecl, .path, .typeDecl, .baseList,
   .fieldDecl, .propertyDecl, .accessorList, .accessor, .methodDecl, .constructorDecl,
   .paramList, .param, .predefType, .namedType, .typeArgList, .arrayType, .nullableType,
   .block, .localDecl, .varDeclarator, .exprStmt, .returnStmt, .ifStmt, .foreachStmt, .literal,
   .nameRef, .thisExpr, .parenExpr, .memberAccess, .call, .argList, .indexExpr, .prefixExpr,
   .postfixExpr, .binaryExpr, .assignExpr, .conditionalExpr, .castExpr, .lambda,
   .lambdaParamList, .lambdaParam, .anonObjectCreation, .anonMember, .objectCreation,
   .objectInit, .memberInit, .arrayCreation, .arrayInit]

/-- No kind is missing from the list of all of them. -/
theorem mem_all (k : Kind) : k ∈ all := by
  cases k <;> decide

/-- The place of a kind in the order of all kinds. -/
def number (k : Kind) : Nat :=
  all.idxOf k

/-- What a kind is called in dumps and from outside. -/
def name : Kind → String
  | .parenOpen => "ParenOpen"
  | .parenClose => "ParenClose"
  | .braceOpen => "BraceOpen"
  | .braceClose => "BraceClose"
  | .bracketOpen => "BracketOpen"
  | .bracketClose => "BracketClose"
  | .semicolon => "Semicolon"
  | .comma => "Comma"
  | .dot => "Dot"
  | .colon => "Colon"
  | .question => "Question"
  | .questionQuestion => "QuestionQuestion"
  | .fatArrow => "FatArrow"
  | .eqEq => "EqEq"
  | .bangEq => "BangEq"
  | .equals => "Equals"
  | .plusEq => "PlusEq"
  | .minusEq => "MinusEq"
  | .plusPlus => "PlusPlus"
  | .minusMinus => "MinusMinus"
  | .plus => "Plus"
  | .minus => "Minus"
  | .star => "Star"
  | .slash => "Slash"
  | .percent => "Percent"
  | .bang => "Bang"
  | .ltEq => "LtEq"
  | .gtEq => "GtEq"
  | .lt => "Lt"
  | .gt => "Gt"
  | .ampAmp => "AmpAmp"
  | .pipePipe => "PipePipe"
  | .stringLiteral => "StringLiteral"
  | .charLiteral => "CharLiteral"
  | .intLiteral => "IntLiteral"
  | .realLiteral => "RealLiteral"
  | .kwUsing => "KwUsing"
  | .kwNamespace => "KwNamespace"
  | .kwClass => "KwClass"
  | .kwStruct => "KwStruct"
  | .kwPublic => "KwPublic"
  | .kwPrivate => "KwPrivate"
  | .kwProtected => "KwProtected"
  | .kwInternal => "KwInternal"
  | .kwStatic => "KwStatic"
  | .kwPartial => "KwPartial"
  | .kwReadonly => "KwReadonly"
  | .kwAbstract => "KwAbstract"
  | .kwSealed => "KwSealed"
  | .kwVar => "KwVar"
  | .kwNew => "KwNew"
  | .kwReturn => "KwReturn"
  | .kwIf => "KwIf"
  | .kwElse => "KwElse"
  | .kwForeach => "KwForeach"
  | .kwIn => "KwIn"
  | .kwThis => "KwThis"
  | .kwNull => "KwNull"
  | .kwTrue => "KwTrue"
  | .kwFalse => "KwFalse"
  | .kwVoid => "KwVoid"
  | .predefinedType => "PredefinedType"
  | .id => "Id"
  | .whitespace => "Whitespace"
  | .newline => "Newline"
  | .lineComment => "LineComment"
  | .blockComment => "BlockComment"
  | .garbage => "Garbage"
  | .error => "Error"
  | .root => "Root"
  | .usingDirective => "UsingDirective"
  | .namespaceDecl => "NamespaceDecl"
  | .path => "Path"
  | .typeDecl => "TypeDecl"
  | .baseList => "BaseList"
  | .fieldDecl => "FieldDecl"
  | .propertyDecl => "PropertyDecl"
  | .accessorList => "AccessorList"
  | .accessor => "Accessor"
  | .methodDecl => "MethodDecl"
  | .constructorDecl => "ConstructorDecl"
  | .paramList => "ParamList"
  | .param => "Param"
  | .predefType => "PredefType"
  | .namedType => "NamedType"
  | .typeArgList => "TypeArgList"
  | .arrayType => "ArrayType"
  | .nullableType => "NullableType"
  | .block => "Block"
  | .localDecl => "LocalDecl"
  | .varDeclarator => "VarDeclarator"
  | .exprStmt => "ExprStmt"
  | .returnStmt => "ReturnStmt"
  | .ifStmt => "IfStmt"
  | .foreachStmt => "ForeachStmt"
  | .literal => "Literal"
  | .nameRef => "NameRef"
  | .thisExpr => "ThisExpr"
  | .parenExpr => "ParenExpr"
  | .memberAccess => "MemberAccess"
  | .call => "Call"
  | .argList => "ArgList"
  | .indexExpr => "IndexExpr"
  | .prefixExpr => "PrefixExpr"
  | .postfixExpr => "PostfixExpr"
  | .binaryExpr => "BinaryExpr"
  | .assignExpr => "AssignExpr"
  | .conditionalExpr => "ConditionalExpr"
  | .castExpr => "CastExpr"
  | .lambda => "Lambda"
  | .lambdaParamList => "LambdaParamList"
  | .lambdaParam => "LambdaParam"
  | .anonObjectCreation => "AnonObjectCreation"
  | .anonMember => "AnonMember"
  | .objectCreation => "ObjectCreation"
  | .objectInit => "ObjectInit"
  | .memberInit => "MemberInit"
  | .arrayCreation => "ArrayCreation"
  | .arrayInit => "ArrayInit"

/-- The kind of a given name. -/
def ofName? (s : String) : Option Kind :=
  all.find? fun k => k.name = s

/-- Names tell kinds apart, so a kind is found again by its name. -/
theorem ofName?_name (k : Kind) : ofName? k.name = some k := by
  cases k <;> decide

/-- The one text that a kind of token is written with, where there is only one. -/
def spelling? : Kind → Option String
  | .parenOpen => some "("
  | .parenClose => some ")"
  | .braceOpen => some "\x7b"
  | .braceClose => some "\x7d"
  | .bracketOpen => some "["
  | .bracketClose => some "]"
  | .semicolon => some ";"
  | .comma => some ","
  | .dot => some "."
  | .colon => some ":"
  | .question => some "?"
  | .questionQuestion => some "??"
  | .fatArrow => some "=>"
  | .eqEq => some "=="
  | .bangEq => some "!="
  | .equals => some "="
  | .plusEq => some "+="
  | .minusEq => some "-="
  | .plusPlus => some "++"
  | .minusMinus => some "--"
  | .plus => some "+"
  | .minus => some "-"
  | .star => some "*"
  | .slash => some "/"
  | .percent => some "%"
  | .bang => some "!"
  | .ltEq => some "<="
  | .gtEq => some ">="
  | .lt => some "<"
  | .gt => some ">"
  | .ampAmp => some "&&"
  | .pipePipe => some "||"
  | .kwUsing => some "using"
  | .kwNamespace => some "namespace"
  | .kwClass => some "class"
  | .kwStruct => some "struct"
  | .kwPublic => some "public"
  | .kwPrivate => some "private"
  | .kwProtected => some "protected"
  | .kwInternal => some "internal"
  | .kwStatic => some "static"
  | .kwPartial => some "partial"
  | .kwReadonly => some "readonly"
  | .kwAbstract => some "abstract"
  | .kwSealed => some "sealed"
  | .kwVar => some "var"
  | .kwNew => some "new"
  | .kwReturn => some "return"
  | .kwIf => some "if"
  | .kwElse => some "else"
  | .kwForeach => some "foreach"
  | .kwIn => some "in"
  | .kwThis => some "this"
  | .kwNull => some "null"
  | .kwTrue => some "true"
  | .kwFalse => some "false"
  | .kwVoid => some "void"
  | _ => none

/-- The words that name built-in types. -/
def predefinedTypes : List String :=
  ["bool", "byte", "char", "decimal", "double", "float", "int", "long", "object", "short",
   "string", "uint", "ulong"]

/-- The reserved words that are not names of built-in types. -/
def keywords : List Kind :=
  [.kwUsing, .kwNamespace, .kwClass, .kwStruct, .kwPublic, .kwPrivate, .kwProtected,
   .kwInternal, .kwStatic, .kwPartial, .kwReadonly, .kwAbstract, .kwSealed, .kwVar, .kwNew,
   .kwReturn, .kwIf, .kwElse, .kwForeach, .kwIn, .kwThis, .kwNull, .kwTrue, .kwFalse, .kwVoid]

/-- The kind of a reserved word, or `none` when the word is an identifier. -/
def reserved? (word : String) : Option Kind :=
  if predefinedTypes.contains word then some .predefinedType
  else keywords.find? fun k => k.spelling? = some word

/-- Blanks, line ends and comments. -/
def isTrivia : Kind → Bool
  | .whitespace | .newline | .lineComment | .blockComment => true
  | _ => false

/-- Text that no pattern matches, and the node around skipped tokens. -/
def isError : Kind → Bool
  | .error | .garbage => true
  | _ => false

/-- Words that may stand in front of a declaration. -/
def isModifier : Kind → Bool
  | .kwPublic | .kwPrivate | .kwProtected | .kwInternal | .kwStatic | .kwPartial
  | .kwReadonly | .kwAbstract | .kwSealed => true
  | _ => false

end Kind

end Syntax

end Nominal
