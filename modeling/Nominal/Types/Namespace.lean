/-!
# Namespaces

A namespace is known by its path from the outermost one inwards. The empty path is the
global namespace. In a text the names of a path are joined by dots.

## Main definitions

* `Namespace`: The path of a namespace.
* `Namespace.enclosing`: A namespace and all around it, from the inside out.
* `Namespace.ofText`: The namespace that a dotted text names.
* `Namespace.text?`: A namespace as a dotted text, unless it is the global one.
-/

namespace Nominal

namespace Types

/-- The path of a namespace from the outermost one inwards. -/
abbrev Namespace := List String

namespace Namespace

/-- The namespace that everything is in. -/
def global : Namespace := []

/-- A namespace and all around it, from the inside out; the global one comes last. -/
def enclosing (ns : Namespace) : List Namespace :=
  (List.range (ns.length + 1)).map fun n => ns.take (ns.length - n)

/-- A text cut at its dots. -/
def cutAtDots : List Char → List (List Char)
  | [] => [[]]
  | c :: cs =>
    if c = '.' then [] :: cutAtDots cs
    else
      match cutAtDots cs with
      | part :: parts => (c :: part) :: parts
      | [] => [[c]]

/-- The namespace that a dotted text names. -/
def ofText (text : String) : Namespace := (cutAtDots text.toList).map String.ofList

/-- A namespace as a dotted text. -/
def text (ns : Namespace) : String := ".".intercalate ns

/-- A namespace as a dotted text, unless it is the global one. -/
def text? (ns : Namespace) : Option String := if ns.isEmpty then none else some ns.text

end Namespace

end Types

end Nominal
