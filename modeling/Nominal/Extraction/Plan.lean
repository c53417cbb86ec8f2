import Nominal.Extraction.Name
import Nominal.Extraction.Creation

/-!
# Planning and Carrying Out an Extraction

An extraction starts from one object of an anonymous type. It covers all objects of that
type inside the same outermost declared type, and everything about it is decided before
the tree is changed: where the new type goes, what it is called, which members it has and
how their types are written. Carrying out the plan then names the creations and puts the
declaration behind the outermost type, an empty line apart.

## Main definitions

* `Request`: What is asked for.
* `dataMembers`: The members that a new type takes over.
* `Plan`: Everything about an extraction.
* `Model.planAt`: The plan that starts from a site.
* `Plan.apply`: Carrying out a plan.
* `Model.extract`: Extracting a type.
* `Model.extractAt`: Extracting the type of the site at an offset.
-/

namespace Nominal

open Syntax (Tree Kind Location)
open Nominal.Types (TypeId Field)
open Text (Span)

/-- What is asked for. -/
structure Request where
  naming : NameSource
  style : MemberStyle
  /-- The blanks by which members stand deeper than the new type. -/
  indent : String
  isCancelled : Bool
deriving DecidableEq, Repr

namespace Request

/-- The request that leaves everything open. -/
def plain : Request where
  naming := ⟨none, true, "Anon"⟩
  style := .property
  indent := "    "
  isCancelled := false

/-- Refuses if the request has been cancelled. -/
def check (request : Request) : Except Refusal Unit :=
  if request.isCancelled then .error .cancelled else .ok ()

end Request

/-- The members of a type that hold data, in their order. Methods are left out. What can
    neither be left out nor taken over stands in the way. -/
def dataMembers (isStructural : TypeId → Bool) : List TypeMember → Except Refusal (List Field)
  | [] => .ok []
  | m :: ms =>
    match m.kind with
    | .property | .field =>
      if isStructural m.type then .error (.nestedAnonymous m.name)
      else (dataMembers isStructural ms).map (⟨m.name, m.type⟩ :: ·)
    | .method => dataMembers isStructural ms
    | .indexer | .event => .error (.memberKind m.name m.kind)

/-- Everything about an extraction. -/
structure Plan where
  target : TypeId
  /-- The objects of the type inside the container, in the order of the text. -/
  sites : List Site
  newName : String
  members : List Field
  declaration : Tree
  scope : Scope
  layout : Layout

/-- What an extraction gives. -/
structure Extraction where
  tree : Tree
  typeName : String
  /-- The spans that the creations of the new type had before. -/
  named : List Span
  /-- The span of the declaration in the new tree. -/
  declarationSpan : Span

namespace Extraction

/-- The text after an extraction. -/
def text (e : Extraction) : String := e.tree.text

end Extraction

namespace Model

/-- The members of a new type with their types as they are written in a scope. -/
def memberForms (m : Model) (scope : Scope) (newName : String) :
    List Field → Except Refusal (List MemberForm)
  | [] => .ok []
  | f :: fs =>
    match m.spell? f.type scope newName with
    | none => .error (.memberType f.name)
    | some type => (memberForms m scope newName fs).map (⟨f.name, type⟩ :: ·)

/-- The sites of a type inside a node of the tree. -/
def sitesWithin (m : Model) (t : Tree) (target : TypeId) (container : Location) : List Site :=
  (m.sites t).filter fun s => s.type == target && s.location.isWithin container

/-- The plan that starts from a site of a tree. -/
def planAt (m : Model) (t : Tree) (anchor : Site) (request : Request) :
    Except Refusal Plan := do
  request.check
  let scope ← m.scopeOf anchor.location
  let sites := m.sitesWithin t anchor.type scope.container
  let members ← dataMembers m.isStructural (m.members anchor.type)
  let taken := scope.taken ++ members.map Field.name
  let newName ← allocate (request.naming.base sites) taken
  let forms ← m.memberForms scope newName members
  let layout := (Layout.at? t.text scope.container.node.start).getD Layout.plain
  return {
    target := anchor.type
    sites := sites
    newName := newName
    members := members
    declaration := ClassForm.tree ⟨newName, forms, request.style, request.indent⟩ layout
    scope := scope
    layout := layout }

/-- The plan for a type, which starts from its first site. -/
def plan (m : Model) (t : Tree) (target : TypeId) (request : Request) :
    Except Refusal Plan := do
  request.check
  match (m.sites t).find? fun s => s.type == target with
  | none => .error .noSite
  | some anchor => m.planAt t anchor request

end Model

namespace Plan

/-- What stands between the container and the declaration. -/
def separator (p : Plan) : List Tree :=
  [leaf .newline p.layout.lineBreak, leaf .newline p.layout.lineBreak]
    ++ blanks p.layout.baseIndent

/-- Carries out a plan on the tree it was made for. -/
def apply (p : Plan) (m : Model) (isCancelled : Bool) : Except Refusal Extraction := do
  if isCancelled then .error .cancelled
  let container := p.scope.container
  let objects ← m.nameObjects container p.target p.newName
  if container.above.isEmpty then .error .noContainer
  let start :=
    container.node.start + objects.tree.width + Tree.widthOf p.separator
  return {
    tree := (topOf container).node.tree.replaceAt
      (objects.tree :: p.separator ++ [p.declaration]) container.path
    typeName := p.newName
    named := objects.sites
    declarationSpan := Span.ofWidth start p.declaration.width }

end Plan

namespace Model

/-- Extracts a type. -/
def extract (m : Model) (t : Tree) (target : TypeId) (request : Request) :
    Except Refusal Extraction := do
  (← m.plan t target request).apply m request.isCancelled

/-- Extracts the type of the innermost site at an offset. -/
def extractAt (m : Model) (t : Tree) (offset : Nat) (request : Request) :
    Except Refusal Extraction :=
  match m.siteAt? t offset with
  | none => .error .noSite
  | some site => do (← m.planAt t site request).apply m request.isCancelled

end Model

end Nominal
