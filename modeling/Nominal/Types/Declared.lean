import Nominal.Types.Catalogue
import Nominal.Types.NameContext

/-!
# Declared Types

The types of a file are collected first, by namespace and name, and the types of their
members are worked out afterwards, when every name is known. A type declared in several
places is one type: the first declaration of a member counts.

A simple name is looked up in the namespace it is written in, then in those around it,
and at last in the namespaces of the using directives. Two using directives that both
know the name leave it without a meaning. A dotted name is taken as a full path.

## Main definitions

* `DeclaredType`: A type that a file declares.
* `DeclaredTypes`: The types that a file declares, in the order of their first declarations.
* `DeclaredTypes.collect`: The types of a file.
* `DeclaredTypes.homeOf?`: The namespace that a simple name is found in.
* `DeclaredTypes.resolve`: The type that a written type means.
-/

namespace Nominal

namespace Types

open Program (Item SourceFile TypeDecl TypeRef Member Declarator)
open Text (Span)

/-- A type that a file declares. -/
structure DeclaredType where
  home : Namespace
  name : String
  /-- The spans of its declarations. -/
  declarations : List Span
  /-- Whether one of its declarations says that there may be others. -/
  isPartial : Bool
  /-- Fields and properties. -/
  members : List Field
  /-- Methods, with the types that they return. -/
  methods : List Field
deriving Repr

/-- The types that a file declares, and the namespaces that they are in. -/
structure DeclaredTypes where
  table : List DeclaredType
  /-- The namespaces of the types and those around them. -/
  namespaces : List Namespace

namespace DeclaredTypes

/-- Nothing is declared. -/
def empty : DeclaredTypes := ⟨[], []⟩

/-- The type of a name in a namespace. -/
def get? (d : DeclaredTypes) (home : Namespace) (name : String) : Option DeclaredType :=
  d.table.find? fun t => t.home == home && t.name == name

/-- Notes a namespace and those around it. -/
def addNamespace (d : DeclaredTypes) (home : Namespace) : DeclaredTypes :=
  { d with namespaces := d.namespaces ++ home.enclosing.filter fun ns => !ns.isEmpty }

/-- Changes the type of a name in a namespace. -/
def modify (d : DeclaredTypes) (home : Namespace) (name : String)
    (f : DeclaredType → DeclaredType) : DeclaredTypes :=
  { d with table := d.table.map fun t => if t.home = home ∧ t.name = name then f t else t }

/-- Notes a declaration that has a name. -/
def declare (d : DeclaredTypes) (decl : TypeDecl) (home : Namespace) : DeclaredTypes :=
  match decl.name with
  | none => d
  | some name =>
    let d := d.addNamespace home
    match d.get? home name with
    | some _ =>
      d.modify home name fun t =>
        { t with
          declarations := t.declarations ++ [decl.span]
          isPartial := t.isPartial || decl.isPartial }
    | none =>
      { d with table := d.table ++ [⟨home, name, [decl.span], decl.isPartial, [], []⟩] }

/-- The names of the types that are declared in a namespace. -/
def namesIn (d : DeclaredTypes) (home : Namespace) : List String :=
  (d.table.filter fun t => t.home == home).map DeclaredType.name

/-- Whether a path is that of a namespace. -/
def isNamespace (d : DeclaredTypes) (path : Namespace) : Bool :=
  d.namespaces.contains path || Catalogue.isNamespace path

/-- Whether a name is that of some type without arguments, or a part of the path of some
    namespace. -/
def namesTypeOrNamespace (d : DeclaredTypes) (name : String) : Bool :=
  d.table.any (fun t => t.name == name) || Catalogue.hasNamed name 0
    || d.namespaces.any (fun ns => ns.contains name) || Catalogue.hasSegment name

/-- Whether there is a type of a name and number of arguments in a namespace. -/
def hasType (d : DeclaredTypes) (home : Namespace) (name : String) (arity : Nat) : Bool :=
  (arity == 0 && (d.get? home name).isSome) || Catalogue.has home name arity

/-- The only one of several namespaces that has a type, or none. -/
def onlyHome? (d : DeclaredTypes) (name : String) (arity : Nat) (usings : List Namespace) :
    Option Namespace :=
  match usings.filter fun ns => d.hasType ns name arity with
  | [] => none
  | ns :: others => if others.all (· == ns) then some ns else none

/-- The namespace that a simple name is found in. -/
def homeOf? (d : DeclaredTypes) (c : NameContext) (name : String) (arity : Nat) :
    Option Namespace :=
  match c.home.enclosing.find? fun ns => d.hasType ns name arity with
  | some ns => some ns
  | none => d.onlyHome? name arity c.usings

/-- The namespace that a dotted name leads to, if there is such a type. -/
def homeOfPath? (d : DeclaredTypes) (c : NameContext) (qualifier : List String)
    (name : String) (arity : Nat) : Option Namespace :=
  if qualifier.isEmpty then d.homeOf? c name arity
  else if d.hasType qualifier name arity then some qualifier
  else none

/-- The type that a dotted name means. -/
def resolvePath (d : DeclaredTypes) (c : NameContext) (r : Registry) (segments : List String)
    (args : List TypeId) : TypeId × Registry :=
  match segments.getLast? with
  | none => (.unknown, r)
  | some name =>
    match d.homeOfPath? c segments.dropLast name args.length with
    | some home => r.intern (.named home name args)
    | none => (.unknown, r)

mutual

/-- The type that a written type means, `unknown` if it means none. -/
def resolve (d : DeclaredTypes) (c : NameContext) (r : Registry) : TypeRef → TypeId × Registry
  | .missing => (.unknown, r)
  | .predefined keyword =>
    match keyword.bind Primitive.ofKeyword? with
    | some p => (.primitive p, r)
    | none => (.unknown, r)
  | .named segments none => d.resolvePath c r segments []
  | .named segments (some args) =>
    let (types, r) := resolveAll d c r args
    d.resolvePath c r segments types
  | .array element =>
    let (type, r) := resolve d c r element
    if type.isUnknown then (.unknown, r) else r.intern (.array type)
  | .nullable inner =>
    let (type, r) := resolve d c r inner
    if type.isUnknown then (.unknown, r) else r.internNullable type

/-- The types that written types mean, from left to right. -/
def resolveAll (d : DeclaredTypes) (c : NameContext) (r : Registry) :
    List TypeRef → List TypeId × Registry
  | [] => ([], r)
  | t :: ts =>
    let (type, r) := resolve d c r t
    let (types, r) := resolveAll d c r ts
    (type :: types, r)

end

/-- A member whose type is known, and whether it is a method. -/
structure ResolvedMember where
  home : Namespace
  owner : String
  field : Field
  isMethod : Bool

/-- The members of a declaration with a name. -/
def resolveMembers (d : DeclaredTypes) (c : NameContext) (owner : String) :
    Registry → List Member → List ResolvedMember × Registry
  | r, [] => ([], r)
  | r, m :: ms =>
    let (found, r) : List ResolvedMember × Registry :=
      match m with
      | .field _ type declarators =>
        let (t, r) := d.resolve c r type
        (declarators.filterMap fun
          | .mk _ name _ => name.map fun n => ⟨c.home, owner, ⟨n, t⟩, false⟩, r)
      | .property _ type name _ _ =>
        let (t, r) := d.resolve c r type
        ((name.map fun n => ⟨c.home, owner, ⟨n, t⟩, false⟩).toList, r)
      | .method _ .missing name _ _ =>
        ((name.map fun n => ⟨c.home, owner, ⟨n, .void⟩, true⟩).toList, r)
      | .method _ type name _ _ =>
        let (t, r) := d.resolve c r type
        ((name.map fun n => ⟨c.home, owner, ⟨n, t⟩, true⟩).toList, r)
      | .constructor .. | .type _ => ([], r)
    let (others, r) := resolveMembers d c owner r ms
    (found ++ others, r)

/-- The members of several declarations. -/
def resolveTypes (d : DeclaredTypes) :
    Registry → List (TypeDecl × NameContext) → List ResolvedMember × Registry
  | r, [] => ([], r)
  | r, (decl, c) :: decls =>
    match decl.name with
    | none => resolveTypes d r decls
    | some name =>
      let (found, r) := resolveMembers d c name r decl.members
      let (others, r) := resolveTypes d r decls
      (found ++ others, r)

/-- Adds a field unless there is one of its name. -/
def addField (fields : List Field) (f : Field) : List Field :=
  if fields.any fun g => g.name == f.name then fields else fields ++ [f]

/-- Adds a member to the type that declares it. -/
def addMember (d : DeclaredTypes) (m : ResolvedMember) : DeclaredTypes :=
  d.modify m.home m.owner fun t =>
    if m.isMethod then { t with methods := addField t.methods m.field }
    else { t with members := addField t.members m.field }

/-- The types that a file declares. -/
def collect (file : SourceFile) (r : Registry) : DeclaredTypes × Registry :=
  let decls := typesInContext file
  let declared := decls.foldl (fun d (decl, c) => d.declare decl c.home) empty
  let (members, r) := resolveTypes declared r decls
  (members.foldl addMember declared, r)

/-- The declared type that a registered type is. -/
def ofType? (d : DeclaredTypes) (r : Registry) (t : TypeId) : Option DeclaredType :=
  match r.shape? t with
  | some (.named home name []) => d.get? home name
  | _ => none

/-- The type of a field or property of a type. -/
def member? (d : DeclaredTypes) (r : Registry) (t : TypeId) (name : String) : Option TypeId :=
  (d.ofType? r t).bind fun decl =>
    (decl.members.find? fun f => f.name == name).map Field.type

/-- The type that a method of a type returns. -/
def method? (d : DeclaredTypes) (r : Registry) (t : TypeId) (name : String) : Option TypeId :=
  (d.ofType? r t).bind fun decl =>
    (decl.methods.find? fun f => f.name == name).map Field.type

end DeclaredTypes

end Types

end Nominal
