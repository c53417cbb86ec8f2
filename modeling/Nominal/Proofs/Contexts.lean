import Nominal.Proofs.Preview
import Nominal.Proofs.Reparsed.Edited
import Nominal.Proofs.Typed.Framed

/-!
# Contexts of Types

What a name means depends on the namespace around it and on the using directives in effect, and
this context is worked out three times. Collecting the types of a file passes it down from
namespace to namespace. Typing keeps it as a part of what is known, changes it at the start of a
namespace and puts it back in the end. And for a node of the tree it is collected from the nodes
above. All three give the same for every type that is not nested in another one.

The types are compared as lists, in the order of the text, so none is overlooked and none comes up
twice. What typing knows on entering a type is found out by following it from item to item.

Above the outermost type around a node there are only namespaces, so it is one of these types.

## Main definitions

* `Location.isTopLevelType`: A declaration of a type in a file or a namespace.
* `Tree.topLevelTypes`: All of them in a tree.
* `followItems`: What typing knows on entering the types among items.

## Theorems

* `contexts_locationsOf`: The context around a node is the one that is passed down to it.
* `contexts_followItems`: So is the one that typing knows on entering a type.
* `isTopLevelType_of_outermost?`: The outermost type around a node is not nested in another one.
* `contexts_agree`: All of them agree on every type of a parsed source.
-/

namespace Nominal

open Syntax (Tree Kind Location Node)
open Program (Item TypeDecl Part SourceFile)
open Nominal.Types (NameContext DeclaredTypes Registry typesOfItem typesOfItems typesInContext)
open Text (Span)

/-! ### Types in a tree -/

namespace Syntax

/-- A file or a namespace. -/
def Kind.isSpace (kind : Kind) : Bool := kind == .root || kind == .namespaceDecl

/-- Whether a node declares a type in a file or a namespace. -/
def Location.isTopLevelType (l : Location) : Bool :=
  l.node.kind == .typeDecl && l.above.head?.any fun n => n.kind.isSpace

/-- The types of a tree that stand in the file or in a namespace. -/
def Tree.topLevelTypes (t : Tree) : List Location := t.locations.filter Location.isTopLevelType

/-- The declaration that a node is. -/
def Location.declaration (l : Location) : TypeDecl :=
  Part.declaration l.node.span (Part.ofTrees l.node.start l.node.children)

/-- A node that is no file and no namespace has none among its children. -/
theorem Kind.isSpace_of_slot {k kind : Kind} (hkind : kind.isSpace = false)
    (h : k ∈ kind.slots.flatMap Slot.kinds) : k.isSpace = false := by
  have hall : ∀ k ∈ kind.slots.flatMap Slot.kinds, k.isSpace = false := by
    revert hkind
    cases kind <;> decide
  exact hall k h

/-- A tree with nodes of their shapes, below a file. -/
structure Tree.IsInFile (t : Tree) : Prop where
  conforms : t.Conforms
  ne_root : ∀ kind children, t = .node kind children → kind ≠ .root

/-- A tree with nodes of their shapes, below something that is no file and no namespace. -/
structure Tree.IsInside (t : Tree) : Prop where
  conforms : t.Conforms
  not_space : ∀ kind children, t = .node kind children → kind.isSpace = false

/-- The children of a node have their shapes, and a node among them fits into the parent. -/
theorem Tree.Conforms.child {kind : Kind} {ts : List Tree} (h : (Tree.node kind ts).Conforms)
    {t : Tree} (ht : t ∈ ts) :
    t.Conforms ∧ ∀ k children, t = .node k children → k ≠ .error →
      k ∈ kind.slots.flatMap Slot.kinds := by
  cases h with
  | node hfits _ hchildren =>
      refine ⟨hchildren t ht, fun k children hnode hk => hfits.mem k ?_⟩
      exact List.mem_filterMap.mpr ⟨t, ht, hnode ▸ if_neg hk⟩

/-- A file is no part of anything. -/
theorem Tree.Conforms.isInFile {kind : Kind} {ts : List Tree} (h : (Tree.node kind ts).Conforms) :
    ∀ t ∈ ts, t.IsInFile := by
  intro t ht
  have hchild := h.child ht
  refine ⟨hchild.1, ?_⟩
  rintro _ children hnode rfl
  have hslot := hchild.2 .root children hnode nofun
  revert hslot
  cases kind <;> decide

/-- A namespace is a part of files and namespaces only. -/
theorem Tree.IsInside.child {kind : Kind} {ts : List Tree} (h : (Tree.node kind ts).IsInside) :
    ∀ t ∈ ts, t.IsInside := by
  intro t ht
  have hchild := h.conforms.child ht
  refine ⟨hchild.1, fun k children hnode => ?_⟩
  by_cases herror : k = .error
  · rw [herror]
    rfl
  · exact Kind.isSpace_of_slot (h.not_space kind ts rfl) (hchild.2 k children hnode herror)

theorem Tree.IsInFile.isInside {kind : Kind} {ts : List Tree} (h : (Tree.node kind ts).IsInFile)
    (hkind : kind ≠ .namespaceDecl) : (Tree.node kind ts).IsInside := by
  refine ⟨h.conforms, ?_⟩
  rintro _ _ ⟨⟩
  simp only [Kind.isSpace, Bool.or_eq_false_iff, beq_eq_false_iff_ne]
  exact ⟨h.ne_root kind ts rfl, hkind⟩

mutual

/-- Below a node that is no file and no namespace there are no types but nested ones. -/
theorem filter_locationsAt_eq_nil {n : Node} (hn : n.kind.isSpace = false) {above : List Node}
    {start index : Nat} {t : Tree} (ht : t.IsInside) :
    (Tree.locationsAt (n :: above) start index t).filter Location.isTopLevelType = [] := by
  cases t with
  | token l => rfl
  | node kind children =>
      have hhere : Location.isTopLevelType
          ⟨⟨kind, children, start, index⟩, n :: above⟩ = false := by
        simp only [Location.isTopLevelType, List.head?_cons, Option.any_some, hn, Bool.and_false]
      rw [Tree.locationsAt, List.filter_cons_of_neg (Bool.eq_false_iff.mp hhere)]
      exact filter_locationsOf_eq_nil (ht.not_space kind children rfl) ht.child

theorem filter_locationsOf_eq_nil {n : Node} (hn : n.kind.isSpace = false) {above : List Node}
    {start index : Nat} {ts : List Tree} (hts : ∀ t ∈ ts, t.IsInside) :
    (Tree.locationsOf (n :: above) start index ts).filter Location.isTopLevelType = [] := by
  cases ts with
  | nil => rfl
  | cons t ts =>
      rw [List.forall_mem_cons] at hts
      rw [Tree.locationsOf, List.filter_append, filter_locationsAt_eq_nil hn hts.1,
        filter_locationsOf_eq_nil hn hts.2, List.append_nil]

end

end Syntax

open Syntax

/-! ### From the top down and from the bottom up -/

/-- Only declarations of types and namespaces have types in them that are not nested. -/
theorem typesOfItems_assemble {kind : Kind} (hkind : kind ≠ .typeDecl)
    (hspace : kind.isSpace = false) (c : NameContext) (span : Span) (ps : List Part) :
    typesOfItems c (Part.items [Part.assemble kind span ps]) = [] := by
  revert hkind hspace
  cases kind with
  | root => nofun
  | namespaceDecl => nofun
  | typeDecl => nofun
  | _ => exact fun _ _ => rfl

theorem typesOfItems_append (c : NameContext) (is js : List Item) :
    typesOfItems c (is ++ js) = typesOfItems c is ++ typesOfItems c js := by
  induction is with
  | nil => rfl
  | cons item is ih => rw [List.cons_append, typesOfItems, typesOfItems, ih, List.append_assoc]

theorem items_cons (p : Part) (ps : List Part) :
    Part.items (p :: ps) = Part.items [p] ++ Part.items ps := by
  rw [← List.singleton_append]
  exact List.filterMap_append

/-- The types with the contexts around them, from the nodes above. -/
def contextsIn (ls : List Location) : List (TypeDecl × NameContext) :=
  (ls.filter Location.isTopLevelType).map fun l => (l.declaration, NameContext.ofLocation l)

theorem contextsIn_append (ls ks : List Location) :
    contextsIn (ls ++ ks) = contextsIn ls ++ contextsIn ks := by
  rw [contextsIn, List.filter_append, List.map_append]
  rfl

/-- What is passed down to a node is what is collected from the nodes above it. -/
theorem ofLocation_below (m n : Node) (above : List Node) :
    NameContext.ofLocation ⟨m, n :: above⟩ = (NameContext.ofLocation ⟨n, above⟩).enterNode n := by
  simp only [NameContext.ofLocation, List.reverse_cons, List.foldl_append, List.foldl_cons,
    List.foldl_nil]

mutual

/-- The context around a type is the one that is passed down to it. -/
theorem contexts_locationsAt {n : Node} (hn : n.kind.isSpace = true) {above : List Node}
    {start index : Nat} {t : Tree} (ht : t.IsInFile) :
    contextsIn (Tree.locationsAt (n :: above) start index t)
      = typesOfItems ((NameContext.ofLocation ⟨n, above⟩).enterNode n)
        (Part.items [Part.ofTree start t]) := by
  cases t with
  | token l => rfl
  | node kind children =>
      by_cases hspace : kind = .namespaceDecl
      · subst hspace
        -- A namespace changes the context in both ways.
        let here : Node := ⟨.namespaceDecl, children, start, index⟩
        have hbelow : contextsIn (Tree.locationsOf (here :: n :: above) start 0 children)
            = typesOfItems ((NameContext.ofLocation ⟨here, n :: above⟩).enterNode here)
              (Part.items (Part.ofTrees start children)) :=
          contexts_locationsOf rfl ht.conforms.isInFile
        rw [ofLocation_below] at hbelow
        exact hbelow.trans (List.append_nil _).symm
      · have hinside := ht.isInside hspace
        let here : Node := ⟨kind, children, start, index⟩
        have hbelow : (Tree.locationsOf (here :: n :: above) start 0 children).filter
            Location.isTopLevelType = [] :=
          filter_locationsOf_eq_nil (hinside.not_space kind children rfl) hinside.child
        by_cases htype : kind = .typeDecl
        · subst htype
          have hhere : Location.isTopLevelType
              ⟨⟨.typeDecl, children, start, index⟩, n :: above⟩ = true := by
            simp only [Location.isTopLevelType, List.head?_cons, Option.any_some, hn, Bool.and_true,
              beq_self_eq_true]
          rw [Tree.locationsAt, contextsIn, List.filter_cons_of_pos hhere, hbelow, List.map_cons,
            ofLocation_below]
          rfl
        · have hhere : Location.isTopLevelType
              ⟨⟨kind, children, start, index⟩, n :: above⟩ = false := by
            simp only [Location.isTopLevelType, beq_false_of_ne htype, Bool.false_and]
          rw [Tree.locationsAt, contextsIn, List.filter_cons_of_neg (Bool.eq_false_iff.mp hhere),
            hbelow, Part.ofTree, typesOfItems_assemble htype (hinside.not_space kind children rfl)]
          rfl

theorem contexts_locationsOf {n : Node} (hn : n.kind.isSpace = true) {above : List Node}
    {start index : Nat} {ts : List Tree} (hts : ∀ t ∈ ts, t.IsInFile) :
    contextsIn (Tree.locationsOf (n :: above) start index ts)
      = typesOfItems ((NameContext.ofLocation ⟨n, above⟩).enterNode n)
        (Part.items (Part.ofTrees start ts)) := by
  cases ts with
  | nil => rfl
  | cons t ts =>
      rw [List.forall_mem_cons] at hts
      rw [Tree.locationsOf, contextsIn_append, contexts_locationsAt hn hts.1,
        contexts_locationsOf hn hts.2, Part.ofTrees, items_cons (Part.ofTree start t)
          (Part.ofTrees (start + t.width) ts), typesOfItems_append]

end

/-- The types of a file with the contexts that are passed down to them are those of its tree with
    the contexts above them. -/
theorem contexts_topLevelTypes {children : List Tree}
    (h : (Syntax.Tree.node .root children).Conforms) :
    contextsIn (Syntax.Tree.node .root children).locations
      = typesInContext (SourceFile.ofTree (.node .root children)) := by
  have hbelow : contextsIn (Tree.locationsOf [⟨.root, children, 0, 0⟩] 0 0 children)
      = typesOfItems (NameContext.ofFile (Part.items (Part.ofTrees 0 children)))
        (Part.items (Part.ofTrees 0 children)) :=
    contexts_locationsOf rfl h.isInFile
  exact hbelow

/-! ### What typing knows -/

namespace Typing

mutual

/-- The types that typing an item enters, each with what is known then, and what is known in the
    end. -/
def followItem (declared : DeclaredTypes) (s : TypingState) :
    Item → List (TypeDecl × TypingState) × TypingState
  | .usingDirective _ => ([], s)
  | .namespaceDecl path _ items =>
    let (types, inner) :=
      followItems declared { s with context := s.context.enter path items } items
    (types, { inner with context := s.context })
  | .type decl => ([(decl, s)], (typeDecl declared false decl s).2)
  | .stmt stmt => ([], (typeStmt declared stmt s).2)

/-- The types that typing items enters, each with what is known then, and what is known in the
    end. -/
def followItems (declared : DeclaredTypes) (s : TypingState) :
    List Item → List (TypeDecl × TypingState) × TypingState
  | [] => ([], s)
  | item :: items =>
    let (types, s) := followItem declared s item
    let (others, s) := followItems declared s items
    (types ++ others, s)

end

mutual

/-- Typing an item goes where it is followed to. -/
theorem followItem_snd (declared : DeclaredTypes) (s : TypingState) (item : Item) :
    (followItem declared s item).2 = (typeItem declared item s).2 := by
  cases item with
  | usingDirective path => rfl
  | namespaceDecl path isFileScoped items =>
      rw [followItem, typeItem]
      dsimp only
      rw [followItems_snd]
      rfl
  | type decl =>
      rw [followItem, typeItem]
  | stmt stmt =>
      rw [followItem, typeItem]

theorem followItems_snd (declared : DeclaredTypes) (s : TypingState) (items : List Item) :
    (followItems declared s items).2 = (typeItems declared items s).2 := by
  cases items with
  | nil => rfl
  | cons item items =>
      rw [followItems, typeItems]
      dsimp only
      rw [followItems_snd, followItem_snd]
      rfl

end

mutual

theorem contexts_followItem (declared : DeclaredTypes) (s : TypingState) (item : Item) :
    (followItem declared s item).1.map (fun x => (x.1, x.2.context))
      = typesOfItem s.context item := by
  cases item with
  | usingDirective path => rfl
  | namespaceDecl path isFileScoped items =>
      exact contexts_followItems declared { s with context := s.context.enter path items } items
  | type decl => rfl
  | stmt stmt => rfl

/-- On entering a type typing looks names up in the context that is passed down to the type. -/
theorem contexts_followItems (declared : DeclaredTypes) (s : TypingState) (items : List Item) :
    (followItems declared s items).1.map (fun x => (x.1, x.2.context))
      = typesOfItems s.context items := by
  cases items with
  | nil => rfl
  | cons item items =>
      -- An item leaves the context as it was.
      have hcontext : (followItem declared s item).2.context = s.context := by
        rw [followItem_snd]
        exact (binds_typeItem declared item s).1.context
      rw [followItems]
      dsimp only
      rw [List.map_append, contexts_followItem, contexts_followItems, hcontext, typesOfItems]

end

end Typing

/-! ### The type around a node -/

/-- The outermost type around a node stands in a file or a namespace. -/
theorem isTopLevelType_of_outermost? {children : List Tree}
    (h : (Syntax.Tree.node .root children).Conforms) {l c : Location}
    (hl : l ∈ (Syntax.Tree.node .root children).locations) (hc : l.outermost? .typeDecl = some c) :
    c ∈ (Syntax.Tree.node .root children).topLevelTypes := by
  rcases outermost?_eq_some hc with ⟨hsuffix, hkind⟩
  have hmem := mem_locations_of_suffix hl hsuffix
  have htop := topOf_of_mem_locations hmem
  have hlinked := linked_of_mem_locations hmem
  have hfree := outermost?_above hc
  refine List.mem_filter.mpr ⟨hmem, ?_⟩
  rcases c with ⟨n, above⟩
  cases above with
  | nil =>
      -- What stands at the top is the file.
      have hroot : n.kind = .root := congrArg (fun t => match t with
        | .node kind _ => kind
        | .token l => l.kind) htop
      rw [hroot] at hkind
      cases hkind
  | cons parent above =>
      have hslot := hlinked.fits (htop ▸ h) (by rw [hkind]; nofun)
      rw [hkind] at hslot
      have hspace : parent.kind.isSpace = true := by
        have hnot := hfree parent List.mem_cons_self
        revert hslot hnot
        cases parent.kind <;> decide
      simp only [Location.isTopLevelType, List.head?_cons, Option.any_some, hspace, Bool.and_true]
      exact beq_iff_eq.mpr hkind

/-- Whatever is wrong with a source, three ways agree on the contexts of the types that are not
    nested in others: the nodes above a type give the context that is passed down to it when the
    types of the file are collected, and typing has the same when it enters the type. And the
    outermost type around any node, which a new type is declared next to, is one of these types. -/
theorem contexts_agree {limits : Grammar.Limits} {source : String} {parsed : Grammar.Parsed}
    (h : Grammar.parseWith limits source = .ok parsed) :
    contextsIn parsed.tree.locations = typesInContext (SourceFile.ofTree parsed.tree)
      ∧ (∀ declared r,
        let file := SourceFile.ofTree parsed.tree
        let followed := Typing.followItems declared (.initial file r) file.items
        followed.1.map (fun x => (x.1, x.2.context)) = typesInContext file
          ∧ followed.2 = Typing.typeFile declared file r)
      ∧ (∀ l ∈ parsed.tree.locations, ∀ c, l.outermost? .typeDecl = some c →
        c ∈ parsed.tree.topLevelTypes)
      ∧ ∀ (m : Model), ∀ l ∈ parsed.tree.locations, ∀ scope, m.scopeOf l = .ok scope →
        scope.container ∈ parsed.tree.topLevelTypes := by
  have hconforms := Grammar.conforms_parseLexemes h
  rcases Grammar.kind_parseLexemes h with ⟨children, hroot⟩
  rw [hroot] at hconforms ⊢
  refine ⟨contexts_topLevelTypes hconforms, fun declared r => ⟨?_, ?_⟩, ?_, ?_⟩
  · exact Typing.contexts_followItems declared _ _
  · exact Typing.followItems_snd declared _ _
  · exact fun l hl c hc => isTopLevelType_of_outermost? hconforms hl hc
  · exact fun m l hl scope hscope =>
      isTopLevelType_of_outermost? hconforms hl (Model.scopeOf_eq_ok hscope).1

/-- A namespace without braces in one with braces, and a type nested in another one. -/
theorem contexts_agree_namespaces :
    ∃ parsed, Grammar.parseWith Grammar.defaultLimits
        "using A; namespace N { using B; class C { class D { int x; } } namespace M; struct F { } }"
        = .ok parsed
      ∧ (typesInContext (SourceFile.ofTree parsed.tree)).map (fun x => (x.1.name, x.2))
        = [(some "C", ⟨["N"], [["A"], ["B"]]⟩), (some "F", ⟨["N", "M"], [["A"], ["B"]]⟩)]
      ∧ contextsIn parsed.tree.locations = typesInContext (SourceFile.ofTree parsed.tree)
      ∧ ∃ l ∈ parsed.tree.locations, l.declaration.name = some "D"
        ∧ ∃ c ∈ parsed.tree.topLevelTypes,
          l.outermost? .typeDecl = some c ∧ c.declaration.name = some "C" := by
  have hok : ((Grammar.parseWith Grammar.defaultLimits
      "using A; namespace N { using B; class C { class D { int x; } } namespace M; struct F { } }"
      ).toOption.any fun parsed =>
        (typesInContext (SourceFile.ofTree parsed.tree)).map (fun x => (x.1.name, x.2))
          == [(some "C", ⟨["N"], [["A"], ["B"]]⟩), (some "F", ⟨["N", "M"], [["A"], ["B"]]⟩)]
        && parsed.tree.locations.any fun l => l.declaration.name == some "D"
          && (l.outermost? .typeDecl).any fun c => c.declaration.name == some "C") = true := by
    decide +kernel
  cases h : Grammar.parseWith Grammar.defaultLimits
      "using A; namespace N { using B; class C { class D { int x; } } namespace M; struct F { } }"
    with
  | error failure =>
      rw [h] at hok
      cases hok
  | ok parsed =>
      rw [h] at hok
      simp only [Except.toOption, Option.any_some, Bool.and_eq_true, beq_iff_eq, List.any_eq_true,
        Option.any_eq_true] at hok
      rcases hok with ⟨hcontexts, l, hl, hname, c, hc, hcname⟩
      have hagree := contexts_agree h
      exact ⟨parsed, rfl, hcontexts, hagree.1, l, hl, hname, c, hagree.2.2.1 l hl c hc, hc, hcname⟩

end Nominal
