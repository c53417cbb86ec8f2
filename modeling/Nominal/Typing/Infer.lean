import Nominal.Typing.State

/-!
# Typing a Program

Every expression is typed once, after its parts. Names and member accesses are special,
since they may refer to a type or a namespace where other expressions have a value; what
they refer to is examined first, and only a value has a type. A lambda among the
arguments of a query is typed with its first parameter bound to the type of the elements;
any other lambda has parameters of unknown type.

Not every expression of a program is visited. The default value of a parameter, the
expression that an accessor or a constructor consists of, and the name that a member is
called by have no type.

## Main definitions

* `examine`: What an expression refers to.
* `typeStmt`: Typing a statement.
* `typeMember`: Typing a member of a type.
* `typeItem`: Typing an item.
* `typeFile`: Typing a whole file.
-/

namespace Nominal

namespace Typing

open Nominal.Types (TypeId Registry NameContext DeclaredTypes Primitive Catalogue.query?
  Field Shape)
open Program (Expr Stmt Body AnonMember MemberInit Initializer Declarator TypeDecl Member Item
  LambdaParam Param SourceFile LiteralSort)
open Syntax (Kind Lexeme)
open Text (Span)

/-- The type of an integer literal by its suffix. -/
def intLiteralType (text : String) : Primitive :=
  let suffix := (text.toList.reverse.map Char.toLower).takeWhile fun c => c == 'u' || c == 'l'
  match suffix.contains 'u', suffix.contains 'l' with
  | true, true => .ulong
  | false, true => .long
  | true, false => .uint
  | false, false => .int

/-- The type of a real literal by its last character. -/
def realLiteralType (text : String) : Primitive :=
  match text.toList.getLast?.map Char.toLower with
  | some 'f' => .float
  | some 'm' => .decimal
  | _ => .double

/-- The type of a literal. -/
def literalType (token : Option Lexeme) : TypeId :=
  match token with
  | none => .unknown
  | some l =>
    match LiteralSort.ofKind? l.kind with
    | none => .unknown
    | some .null => .null
    | some .string => .primitive .string
    | some .char => .primitive .char
    | some .bool => .primitive .bool
    | some .int => .primitive (intLiteralType l.text)
    | some .real => .primitive (realLiteralType l.text)

/-- The type of `a ?? b`. -/
def coalescedType (r : Registry) (a b : TypeId) : TypeId :=
  match r.shape? a, r.shape? b with
  | some (.nullable _), some (.nullable _) => a
  | some (.nullable inner), _ => inner
  | some .null, _ => b
  | _, _ => a

/-- The type of an arithmetic operation. -/
def arithmeticType (r : Registry) (a b : TypeId) : TypeId :=
  match r.primitive? a, r.primitive? b with
  | some p, some q =>
    if p.isNumeric && q.isNumeric then .primitive (Primitive.promote p q) else .unknown
  | _, _ => .unknown

/-- The type of a binary operation. -/
def binaryType (r : Registry) (op : Option Lexeme) (a b : TypeId) : TypeId :=
  match op.map Lexeme.kind with
  | none => .unknown
  | some .eqEq | some .bangEq | some .lt | some .gt | some .ltEq | some .gtEq
  | some .ampAmp | some .pipePipe => .primitive .bool
  | some .questionQuestion => coalescedType r a b
  | some .plus =>
    if a = .primitive .string ∨ b = .primitive .string then .primitive .string
    else arithmeticType r a b
  | some _ => arithmeticType r a b

/-- The type of an operation with one operand. -/
def unaryType (op : Option Lexeme) (operand : TypeId) : TypeId :=
  if op.map Lexeme.kind = some .bang then .primitive .bool else operand

/-- What a single name refers to: a variable or a member in sight, else a type, else a
    namespace. A value is filed. -/
def examineName (declared : DeclaredTypes) (span : Span) (token : Option Lexeme) :
    TypingM Referent := do
  match token with
  | none => return .nothing
  | some l =>
    if l.kind = .predefinedType then
      match Primitive.ofKeyword? l.text with
      | some p => return .type (.primitive p)
      | none => return .nothing
    else
      match (← get).value? declared l.text with
      | some t =>
        record .nameRef span t
        return .value t
      | none =>
        let t ← resolveName declared [l.text]
        if !t.isUnknown then
          return .type t
        else if declared.isNamespace [l.text] then
          return .namespacePath [l.text]
        else
          return .nothing

/-- What a member of a namespace refers to: a type, else a namespace. -/
def examineInNamespace (declared : DeclaredTypes) (path : Types.Namespace) (name : String) :
    TypingM Referent := do
  let t ← resolveName declared (path ++ [name])
  if !t.isUnknown then
    return .type t
  else if declared.isNamespace (path ++ [name]) then
    return .namespacePath (path ++ [name])
  else
    return .nothing

/-- The type of a member of a value. -/
def instanceMemberType (declared : DeclaredTypes) (owner : TypeId) (name : String) :
    TypingM (Option TypeId) := do
  let r := (← get).registry
  match declared.member? r owner name with
  | some t => return some t
  | none => internDerived? (Types.Catalogue.instanceMember? r owner name)

/-- The type of a member of a type itself. -/
def staticMemberType (declared : DeclaredTypes) (owner : TypeId) (name : String) :
    TypingM (Option TypeId) := do
  let r := (← get).registry
  match declared.member? r owner name with
  | some t => return some t
  | none => internDerived? (Types.Catalogue.staticMember? r owner name)

/-- What a member access refers to, given what its receiver does. A value is filed. -/
def examineMember (declared : DeclaredTypes) (span : Span) (receiver : Referent)
    (name : String) : TypingM Referent := do
  let valueOf (t : Option TypeId) : TypingM Referent := do
    match t with
    | some t =>
      record .memberAccess span t
      return .value t
    | none => return .nothing
  match receiver with
  | .namespacePath path => examineInNamespace declared path name
  | .type owner => valueOf (← staticMemberType declared owner name)
  | .value owner => valueOf (← instanceMemberType declared owner name)
  | .nothing => return .nothing

/-- Files a value under the expression that has it. -/
def recordValue (e : Expr) (type : TypeId) : TypingM Referent := do
  match e.span? with
  | some span =>
    record e.kind span type
    return .value type
  | none => return .nothing

/-- The type of an expression, given what it refers to. An expression that refers to no
    value is filed as unknown; an absent one is not filed. -/
def settle (e : Expr) (referent : Referent) : TypingM TypeId := do
  match referent, e.span? with
  | .value t, _ => return t
  | _, some span =>
    record e.kind span .unknown
    return .unknown
  | _, none => return .unknown

/-- The type of a call of a method of a value. -/
def instanceMethodType (declared : DeclaredTypes) (owner : TypeId) (name : String) :
    TypingM TypeId := do
  let r := (← get).registry
  match declared.method? r owner name with
  | some t => return t
  | none =>
    return (← internDerived? (Types.Catalogue.instanceMethod? r owner name)).getD .unknown

/-- The type of a call of a method of a type itself. -/
def staticMethodType (declared : DeclaredTypes) (owner : TypeId) (name : String) :
    TypingM TypeId := do
  let r := (← get).registry
  match declared.method? r owner name with
  | some t => return t
  | none =>
    return (← internDerived? (Types.Catalogue.staticMethod? r owner name)).getD .unknown

/-- The type of a call of a method by its name alone. -/
def ownMethodType (declared : DeclaredTypes) (token : Option Lexeme) : TypingM TypeId := do
  let s ← get
  match token, s.thisType with
  | some l, some t => return (declared.method? s.registry t l.text).getD .unknown
  | _, _ => return .unknown

/-- What a call calls. -/
inductive Callee where
  /-- A method of a value. -/
  | instanceMethod (owner : TypeId) (name : String)
  /-- A method of a type itself. -/
  | staticMethod (owner : TypeId) (name : String)
  /-- A method of the type in sight. -/
  | own (token : Option Lexeme)
  | unknown

namespace Callee

/-- The method of a name that belongs to what a receiver refers to. -/
def ofReferent (receiver : Referent) (name : String) : Callee :=
  match receiver with
  | .value owner => instanceMethod owner name
  | .type owner => staticMethod owner name
  | .namespacePath _ | .nothing => unknown

/-- What a query enumerates, and its name, if a query is what is called. Strings are not
    queried. -/
def query? (r : Registry) : Callee → Option (TypeId × String)
  | instanceMethod owner name =>
    if r.primitive? owner = some .string || !Types.Catalogue.queries.contains name then none
    else (Types.Catalogue.elementType? r owner).map fun element => (element, name)
  | _ => none

end Callee

/-- The type of a call that is no query. -/
def calleeType (declared : DeclaredTypes) : Callee → TypingM TypeId
  | .instanceMethod owner name => instanceMethodType declared owner name
  | .staticMethod owner name => staticMethodType declared owner name
  | .own token => ownMethodType declared token
  | .unknown => return .unknown

/-- Binds the parameters of a lambda; the first ones have the types that are given. -/
def bindParams (types : List TypeId) : List LambdaParam → TypingM Unit
  | [] => return ()
  | p :: ps => do
    let type := types.head?.getD .unknown
    record .lambdaParam p.span type
    bindVariable p.name type
    bindParams types.tail ps

mutual

/-- The value of the first `return` with a value in a statement, lambdas not looked into. -/
def returned? : Stmt → Option Expr
  | .missing => none
  | .block stmts => returnedBy? stmts
  | .locals .. => none
  | .expr _ => none
  | .result value => if value.isMissing then none else some value
  | .branch _ branches => returnedBy? branches
  | .foreach _ _ _ _ body => returned? body

/-- The value of the first `return` with a value in several statements. -/
def returnedBy? : List Stmt → Option Expr
  | [] => none
  | s :: ss =>
    match returned? s with
    | some e => some e
    | none => returnedBy? ss

end

/-- The type of the value that statements return, as it has been filed. -/
def returnedType (stmts : List Stmt) : TypingM TypeId := do
  let s ← get
  match returnedBy? stmts with
  | none => return .unknown
  | some e => return (e.span?.bind fun span => s.typeOf? ⟨e.kind, span⟩).getD .unknown

/-- The members of an anonymous object so far, and whether all of them could be named. -/
structure AnonymousMembers where
  fields : List Field
  valid : Bool

/-- Adds a member with a known type, or reports that its name is missing or taken. -/
def addAnonymousMember (found : AnonymousMembers) (m : AnonMember) (type : TypeId) :
    TypingM AnonymousMembers := do
  match m.name? with
  | none =>
    reportMember .invalidAnonymousMember m.span none
    return { found with valid := false }
  | some name =>
    if found.fields.any fun f => f.name == name then
      reportMember .duplicateAnonymousMember m.span (some name)
      return { found with valid := false }
    else
      return { found with fields := found.fields ++ [⟨name, type⟩] }

/-- The type of an array with elements of these types and without a written type. -/
def arrayOfElements (types : List TypeId) : TypingM TypeId := do
  match types.find? fun t => t != .null && !t.isUnknown with
  | some element => internShape (.array element)
  | none => return .unknown

/-- The type of a new array with a written type. -/
def arrayOfType (declared : DeclaredTypes) (type : Program.TypeRef) (isSized : Bool) :
    TypingM TypeId := do
  let t ← resolveType declared type
  if isSized then
    if t.isUnknown then return .unknown else internShape (.array t)
  else
    return t

mutual

/-- What an expression refers to. All types on the way are filed. -/
def examine (declared : DeclaredTypes) : Expr → TypingM Referent
  | .missing => return .nothing
  | .literal span token => recordValue (.literal span token) (literalType token)
  | .name span token => examineName declared span token
  | .member span receiver name => do
    match name with
    | none => return .nothing
    | some name =>
      let r ← examine declared receiver
      examineMember declared span r name
  | .this span => do
    recordValue (.this span) ((← get).thisType.getD .unknown)
  | .paren span inner => do
    let t ← settle inner (← examine declared inner)
    recordValue (.paren span inner) t
  | .call span callee args => do
    let target ←
      match callee with
      | .member _ receiver (some name) => do
        let r ← examine declared receiver
        pure (Callee.ofReferent r name)
      | .name _ token => pure (Callee.own token)
      | .missing | .member _ _ none => pure Callee.unknown
      | other => do
        let _ ← settle other (← examine declared other)
        pure Callee.unknown
    let query := target.query? (← get).registry
    let t ←
      match query with
      | some (element, method) => do
        let projected ← typeQueryArgs declared element args
        let result := Types.Catalogue.query? method element projected
        pure ((← internDerived? result).getD .unknown)
      | none => do
        let _ ← typeExprs declared args
        calleeType declared target
    recordValue (.call span callee args) t
  | .index span receiver index => do
    let t ← settle receiver (← examine declared receiver)
    let _ ← settle index (← examine declared index)
    let element := Types.Catalogue.indexed? (← get).registry t
    recordValue (.index span receiver index) (element.getD .unknown)
  | .unary span op operand => do
    let t ← settle operand (← examine declared operand)
    recordValue (.unary span op operand) (unaryType op t)
  | .step span operand => do
    let t ← settle operand (← examine declared operand)
    recordValue (.step span operand) t
  | .binary span op left right => do
    let a ← settle left (← examine declared left)
    let b ← settle right (← examine declared right)
    recordValue (.binary span op left right) (binaryType (← get).registry op a b)
  | .assign span target value => do
    let _ ← settle target (← examine declared target)
    let t ← settle value (← examine declared value)
    recordValue (.assign span target value) t
  | .conditional span condition whenTrue whenFalse => do
    let _ ← settle condition (← examine declared condition)
    let a ← settle whenTrue (← examine declared whenTrue)
    let b ← settle whenFalse (← examine declared whenFalse)
    recordValue (.conditional span condition whenTrue whenFalse) (if a = .null then b else a)
  | .cast span type operand => do
    let _ ← settle operand (← examine declared operand)
    let t ← resolveType declared type
    recordValue (.cast span type operand) t
  | .lambda span params body => do
    let _ ← typeLambda declared params body []
    recordValue (.lambda span params body) .lambda
  | .anonymous span keyword members => do
    let found ← typeMembers declared ⟨[], true⟩ members
    let t ← if found.valid then internShape (.anonymous found.fields) else pure .unknown
    recordValue (.anonymous span keyword members) t
  | .object span type args init => do
    let _ ← typeExprs declared args
    typeInitializer declared init
    let t ← resolveType declared type
    recordValue (.object span type args init) t
  | .array span type sizes elements => do
    let _ ← typeExprs declared sizes
    let types ← typeElements declared elements
    let t ←
      match type with
      | .missing => arrayOfElements types
      | _ => arrayOfType declared type !sizes.isEmpty
    recordValue (.array span type sizes elements) t

/-- Types the arguments of a query; answers what the first lambda among them gives. -/
def typeQueryArgs (declared : DeclaredTypes) (element : TypeId) :
    List Expr → TypingM (Option TypeId)
  | [] => return none
  | .lambda span params body :: args => do
    let t ← typeLambda declared params body [element]
    record .lambda span .lambda
    let _ ← typeQueryArgs declared element args
    return some t
  | arg :: args => do
    let _ ← settle arg (← examine declared arg)
    typeQueryArgs declared element args

/-- Types expressions from left to right. -/
def typeExprs (declared : DeclaredTypes) : List Expr → TypingM (List TypeId)
  | [] => return []
  | e :: es => do
    let t ← settle e (← examine declared e)
    let ts ← typeExprs declared es
    return t :: ts

/-- Types the elements of an array, if there are braces. -/
def typeElements (declared : DeclaredTypes) : Option (List Expr) → TypingM (List TypeId)
  | none => return []
  | some es => typeExprs declared es

/-- Types a lambda, the first parameters of which have the types that are given; answers
    the type of what it gives. -/
def typeLambda (declared : DeclaredTypes) (params : List LambdaParam) :
    Body → List TypeId → TypingM TypeId
  | .missing, types => do
    openScope
    bindParams types params
    closeScope
    return .unknown
  | .expr value, types => do
    openScope
    bindParams types params
    let t ← settle value (← examine declared value)
    closeScope
    return t
  | .block stmts, types => do
    openScope
    bindParams types params
    openScope
    typeStmts declared stmts
    closeScope
    let t ← returnedType stmts
    closeScope
    return t

/-- Types the members of an anonymous object, behind those found so far. -/
def typeMembers (declared : DeclaredTypes) :
    AnonymousMembers → List AnonMember → TypingM AnonymousMembers
  | found, [] => return found
  | found, .mk span explicit value :: ms => do
    let t ← settle value (← examine declared value)
    let found ← addAnonymousMember found (.mk span explicit value) t
    typeMembers declared found ms

/-- Types the initializer of an object, if there is one: first what is named. -/
def typeInitializer (declared : DeclaredTypes) : Option Initializer → TypingM Unit
  | none => return ()
  | some (.mk members elements) => do
    typeMemberInits declared members
    let _ ← typeExprs declared elements

/-- Types the values of the members of an initializer. -/
def typeMemberInits (declared : DeclaredTypes) : List MemberInit → TypingM Unit
  | [] => return ()
  | .mk _ value :: ms => do
    let _ ← settle value (← examine declared value)
    typeMemberInits declared ms

/-- Types a statement. -/
def typeStmt (declared : DeclaredTypes) : Stmt → TypingM Unit
  | .missing => return ()
  | .block stmts => do
    openScope
    typeStmts declared stmts
    closeScope
  | .locals isVar type declarators => do
    let written ← if isVar then pure none else some <$> resolveType declared type
    typeLocals declared written declarators
  | .expr value => do
    let _ ← settle value (← examine declared value)
  | .result value => do
    let _ ← settle value (← examine declared value)
  | .branch condition branches => do
    let _ ← settle condition (← examine declared condition)
    typeBranches declared branches
  | .foreach isVar type name iterable body => do
    let t ← settle iterable (← examine declared iterable)
    let element ←
      if isVar then
        pure ((Types.Catalogue.elementType? (← get).registry t).getD .unknown)
      else
        resolveType declared type
    openScope
    bindVariable name element
    typeStmt declared body
    closeScope

/-- Types statements one after the other, in the same scope. -/
def typeStmts (declared : DeclaredTypes) : List Stmt → TypingM Unit
  | [] => return ()
  | s :: ss => do
    typeStmt declared s
    typeStmts declared ss

/-- Types statements one after the other, each in a scope of its own. -/
def typeBranches (declared : DeclaredTypes) : List Stmt → TypingM Unit
  | [] => return ()
  | s :: ss => do
    openScope
    typeStmt declared s
    closeScope
    typeBranches declared ss

/-- Types variables, which have the written type if there is one. -/
def typeLocals (declared : DeclaredTypes) (written : Option TypeId) :
    List Declarator → TypingM Unit
  | [] => return ()
  | .mk span name init :: ds => do
    let found ← settle init (← examine declared init)
    let t := written.getD found
    record .varDeclarator span t
    bindVariable name t
    typeLocals declared written ds

end

/-- Types an expression. -/
def typeExpr (declared : DeclaredTypes) (e : Expr) : TypingM TypeId := do
  settle e (← examine declared e)

/-- Types fields, which all have the written type. -/
def typeFields (declared : DeclaredTypes) (type : TypeId) : List Declarator → TypingM Unit
  | [] => return ()
  | .mk span _ init :: ds => do
    let _ ← typeExpr declared init
    record .varDeclarator span type
    typeFields declared type ds

/-- Types the statements of a body, if it has any, in a scope of their own. -/
def typeBlockOf (declared : DeclaredTypes) (body : Body) : TypingM Unit := do
  match body with
  | .block stmts => typeStmt declared (.block stmts)
  | _ => return ()

/-- Types a body, be it statements or an expression. -/
def typeBody (declared : DeclaredTypes) (body : Body) : TypingM Unit := do
  match body with
  | .expr value =>
    let _ ← typeExpr declared value
  | _ => typeBlockOf declared body

/-- Binds the parameters of a method. -/
def bindMethodParams (declared : DeclaredTypes) : List Param → TypingM Unit
  | [] => return ()
  | p :: ps => do
    bindVariable p.name (← resolveType declared p.type)
    bindMethodParams declared ps

mutual

/-- Types the members of a type, with no scope around them. The members of a nested type
    are typed without a type in sight. -/
def typeDecl (declared : DeclaredTypes) (isNested : Bool) : TypeDecl → TypingM Unit
  | .mk _ _ name _ _ members _ => do
    let outer ← get
    let thisType ←
      match name with
      | some name =>
        if isNested then pure none
        else some <$> internShape (.named outer.context.home name [])
      | none => pure none
    modify fun s => { s with thisType := thisType, scopes := [] }
    typeTypeMembers declared members
    modify fun s => { s with thisType := outer.thisType, scopes := outer.scopes }

/-- Types the members of a type from first to last. -/
def typeTypeMembers (declared : DeclaredTypes) : List Member → TypingM Unit
  | [] => return ()
  | m :: ms => do
    typeMember declared m
    typeTypeMembers declared ms

/-- Types a member of a type. -/
def typeMember (declared : DeclaredTypes) : Member → TypingM Unit
  | .field _ type declarators => do
    let t ← resolveType declared type
    typeFields declared t declarators
  | .property _ _ _ accessors value => do
    let _ ← typeExpr declared value
    (accessors.getD []).forM fun a => typeBlockOf declared a.body
  | .method _ _ _ params body => do
    openScope
    bindMethodParams declared params
    typeBody declared body
    closeScope
  | .constructor _ params body => do
    openScope
    bindMethodParams declared params
    typeBlockOf declared body
    closeScope
  | .type decl => typeDecl declared true decl

end

mutual

/-- Types an item. -/
def typeItem (declared : DeclaredTypes) : Item → TypingM Unit
  | .usingDirective _ => return ()
  | .namespaceDecl path _ items => do
    let outer := (← get).context
    modify fun s => { s with context := outer.enter path items }
    typeItems declared items
    modify fun s => { s with context := outer }
  | .type decl => typeDecl declared false decl
  | .stmt stmt => typeStmt declared stmt

/-- Types items from first to last. -/
def typeItems (declared : DeclaredTypes) : List Item → TypingM Unit
  | [] => return ()
  | item :: items => do
    typeItem declared item
    typeItems declared items

end

/-- What typing knows at the start of a file. The statements at its top share one scope. -/
def TypingState.initial (file : SourceFile) (r : Registry) : TypingState where
  registry := r
  records := []
  diagnostics := []
  context := NameContext.ofFile file.items
  thisType := none
  scopes := [[]]

/-- Types a whole file and answers what is known then. -/
def typeFile (declared : DeclaredTypes) (file : SourceFile) (r : Registry) : TypingState :=
  ((typeItems declared file.items).run (TypingState.initial file r)).2

end Typing

end Nominal
