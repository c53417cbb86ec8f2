import Nominal.Program.OfTree
import Nominal.Types.Namespace

/-!
# Where Names Are Looked Up

What a name of a type means depends on the namespace it is written in and on the using
directives in effect there. Both are found from the top of the file downwards, adding
what each namespace on the way contributes. They are also found from a node upwards, by
collecting the namespaces around it first.

## Main definitions

* `NameContext`: A namespace and the using directives in effect.
* `NameContext.ofFile`: The context at the top of a file.
* `NameContext.enter`: The context inside a namespace.
* `NameContext.ofLocation`: The context around a node of a tree.
* `SourceFile.typesInContext`: The types of a file with their contexts.
-/

namespace Nominal

namespace Types

open Program (Item SourceFile TypeDecl Part)
open Syntax (Kind Location Node)

/-- A namespace and the using directives in effect, in the order in which they are written. -/
structure NameContext where
  home : Namespace
  usings : List Namespace
deriving DecidableEq, Repr, Inhabited

namespace NameContext

/-- The namespace that a path leads to; one without a name counts as one with an empty
    name. -/
def pathOf : Option (List String) → Namespace
  | some (part :: parts) => part :: parts
  | _ => [""]

/-- The namespaces that the using directives among items make known. -/
def usingsOf (items : List Item) : List Namespace :=
  items.filterMap fun
    | .usingDirective (some path) => some (pathOf (some path))
    | _ => none

/-- The context at the top of a file. -/
def ofFile (items : List Item) : NameContext := ⟨Namespace.global, usingsOf items⟩

/-- The context inside a namespace with a path and items. -/
def enter (c : NameContext) (path : Option (List String)) (items : List Item) : NameContext :=
  ⟨c.home ++ pathOf path, c.usings ++ usingsOf items⟩

/-- The context inside a node, if it is a file or a namespace, given the one around it. -/
def enterNode (c : NameContext) (n : Node) : NameContext :=
  match Part.ofTree n.start n.tree with
  | .file file => ofFile file.items
  | .item (.namespaceDecl path _ items) => c.enter path items
  | _ => c

/-- The context around a node, from the nodes above it. -/
def ofLocation (l : Location) : NameContext := l.above.reverse.foldl enterNode default

end NameContext

mutual

/-- The types among items and in the namespaces among them, each with the context that it
    is declared in. -/
def typesOfItem (c : NameContext) : Item → List (TypeDecl × NameContext)
  | .type decl => [(decl, c)]
  | .namespaceDecl path _ items => typesOfItems (c.enter path items) items
  | .usingDirective _ | .stmt _ => []

/-- The types among items, each with the context that it is declared in. -/
def typesOfItems (c : NameContext) : List Item → List (TypeDecl × NameContext)
  | [] => []
  | item :: items => typesOfItem c item ++ typesOfItems c items

end

/-- The types of a file that are not nested in others, with their contexts. -/
def typesInContext (file : SourceFile) : List (TypeDecl × NameContext) :=
  typesOfItems (NameContext.ofFile file.items) file.items

end Types

end Nominal
