import Nominal.Model.Basic

/-!
# Candidate Sites

A candidate site is a place where an anonymous object is created and the members of the
object could all be named. Where such an object is all that a `var` statement declares,
the site is known by the variable. Elsewhere it is known by the expression alone.

## Main definitions

* `Site`: A place where an object of an anonymous type is created.
* `Model.sites`: The candidate sites of a tree, in the order of its text.
* `Model.siteAt?`: The innermost candidate site at an offset.
-/

namespace Nominal

open Syntax (Tree Kind Location Node)
open Nominal.Types (TypeId)
open Text (Span)

/-- A place where an object of an anonymous type is created. -/
structure Site where
  /-- The creation. -/
  location : Location
  type : TypeId
  /-- The variable that the object is the initial value of, if a `var` statement declares
      it and nothing else. -/
  declarator : Option Location
  /-- Whether the object is created inside a lambda. -/
  inLambda : Bool

namespace Site

/-- The span of the creation. -/
def span (s : Site) : Span := s.location.span

/-- The name of the variable. -/
def variableName? (s : Site) : Option String :=
  s.declarator.bind fun d => (d.node.token? .id).map fun t => t.1.text

/-- What to point at: the name of the variable, or else the keyword of the creation. -/
def focus (s : Site) : Span :=
  let token :=
    match s.declarator with
    | some d => d.node.token? .id
    | none => s.location.node.token? .kwNew
  (token.map Prod.snd).getD s.span

/-- The span in which an offset means this site. -/
def covering (s : Site) : Span := (s.declarator.map Location.span).getD s.span

end Site

namespace Model

/-- Whether a node is a `var` statement with one variable. -/
def declaresOneVar (n : Node) : Bool :=
  n.kind == .localDecl && (n.token? .kwVar).isSome
    && (n.children.countP fun t => t.kind == .varDeclarator) == 1

/-- The variable that a creation of a type makes known, if it does. -/
def declaratorOf? (m : Model) (l : Location) (t : TypeId) : Option Location :=
  match l.above with
  | parent :: statement :: above =>
    let declarator : Location := ⟨parent, statement :: above⟩
    if parent.kind = .varDeclarator ∧ declaresOneVar statement
        ∧ m.typeOf? declarator = some t then
      some declarator
    else none
  | _ => none

/-- The candidate site that a node is. -/
def siteOf? (m : Model) (l : Location) : Option Site :=
  if l.node.kind = .anonObjectCreation then
    match m.typeOf? l with
    | some t =>
      if m.isStructural t then some ⟨l, t, m.declaratorOf? l t, l.isUnder .lambda⟩ else none
    | none => none
  else none

/-- The candidate sites of a tree, in the order of its text. -/
def sites (m : Model) (t : Tree) : List Site := t.locations.filterMap m.siteOf?

/-- The first site with the shortest covering span. -/
def innermost : List Site → Option Site
  | [] => none
  | s :: ss =>
    match innermost ss with
    | some t => if t.covering.width < s.covering.width then some t else some s
    | none => some s

/-- The innermost candidate site at an offset. -/
def siteAt? (m : Model) (t : Tree) (offset : Nat) : Option Site :=
  innermost ((m.sites t).filter fun s => s.covering.touches offset)

end Model

end Nominal
