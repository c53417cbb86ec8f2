import Nominal.Proofs.Freshness
import Nominal.Proofs.Gained
import Nominal.Proofs.Reparsed.Extractions

/-!
# References After an Extraction

The new type is seen from every place inside its namespace, so a name that was there before could
come to mean the new type. It does not, because the name of the new type is none that a written type
starts with and none of the simple names that expressions use for a type or a namespace.

What a written type means depends only on where each of the names in it leads. A simple name that is
not that of the new type leads where it led before. A dotted name is looked up in the namespace that
it names, so it can lead to the new type only if it is the full name of the new type. Such a name may
stand in the file already, without a meaning, and this is the only kind of reference that an
extraction gives another one.

## Main definitions

* `TypeRef.names`: The names in a written type, each with the number of its arguments.
* `AddsType`: Declared types with one type more, in a namespace that is known.
* `KeepsReferences`: What was written before an extraction means the same after it.

## Theorems

* `DeclaredTypes.resolve_congr`: A written type means the same where its names lead to the same
  namespaces.
* `Part.exists_of_mem_ofTree`: Every name in a written type is that of a node.
* `Document.Extracts.addsType`: An extraction adds a type.
* `references_kept`: No reference comes to mean something else, except for the full name of the new
  type.
-/

namespace Nominal

open Syntax (Tree Kind Lexeme Location Node)
open Program (Part TypeDecl TypeRef SourceFile)
open Nominal.Types (NameContext Namespace DeclaredTypes Registry TypeId typesInContext Catalogue.has)

/-! ### Names in written types -/

namespace Program.TypeRef

mutual

/-- The names in a written type, each with the number of its arguments. -/
def names : TypeRef → List (List String × Nat)
  | .missing | .predefined _ => []
  | .named segments none => [(segments, 0)]
  | .named segments (some args) => (segments, args.length) :: namesOf args
  | .array element => names element
  | .nullable inner => names inner

/-- The names in several written types. -/
def namesOf : List TypeRef → List (List String × Nat)
  | [] => []
  | type :: types => names type ++ namesOf types

end

theorem mem_namesOf {types : List TypeRef} {x : List String × Nat} :
    x ∈ namesOf types ↔ ∃ type ∈ types, x ∈ type.names := by
  induction types with
  | nil => simp [namesOf]
  | cons type types ih => simp [namesOf, ih]

end Program.TypeRef

namespace Types.DeclaredTypes

variable {d d' : DeclaredTypes} {c : NameContext}

/-- There are as many types as there are written types. -/
theorem length_resolveAll (r : Registry) (types : List TypeRef) :
    (d.resolveAll c r types).1.length = types.length := by
  induction types generalizing r with
  | nil => rfl
  | cons type types ih => exact congrArg (· + 1) (ih (d.resolve c r type).2)

theorem resolvePath_congr {r : Registry} {segments : List String} {args : List TypeId}
    (h : ∀ name, segments.getLast? = some name →
      d'.homeOfPath? c segments.dropLast name args.length
        = d.homeOfPath? c segments.dropLast name args.length) :
    d'.resolvePath c r segments args = d.resolvePath c r segments args := by
  rw [resolvePath, resolvePath]
  cases hlast : segments.getLast? with
  | none => rfl
  | some name =>
      dsimp only
      rw [h name hlast]

mutual

/-- A written type means the same if all names in it lead to the same namespaces. -/
theorem resolve_congr (r : Registry) (type : TypeRef)
    (h : ∀ x ∈ type.names, ∀ name, x.1.getLast? = some name →
      d'.homeOfPath? c x.1.dropLast name x.2 = d.homeOfPath? c x.1.dropLast name x.2) :
    d'.resolve c r type = d.resolve c r type := by
  cases type with
  | missing => rfl
  | predefined keyword => rfl
  | named segments args =>
      cases args with
      | none => exact resolvePath_congr (h (segments, 0) (List.mem_singleton_self _))
      | some args =>
          rw [TypeRef.names, List.forall_mem_cons] at h
          change d'.resolvePath c (d'.resolveAll c r args).2 segments (d'.resolveAll c r args).1
            = d.resolvePath c (d.resolveAll c r args).2 segments (d.resolveAll c r args).1
          rw [resolveAll_congr r args h.2]
          refine resolvePath_congr ?_
          rw [length_resolveAll]
          exact h.1
  | array element =>
      rw [TypeRef.names] at h
      simp only [resolve, resolve_congr r element h]
  | nullable inner =>
      rw [TypeRef.names] at h
      simp only [resolve, resolve_congr r inner h]

theorem resolveAll_congr (r : Registry) (types : List TypeRef)
    (h : ∀ x ∈ TypeRef.namesOf types, ∀ name, x.1.getLast? = some name →
      d'.homeOfPath? c x.1.dropLast name x.2 = d.homeOfPath? c x.1.dropLast name x.2) :
    d'.resolveAll c r types = d.resolveAll c r types := by
  cases types with
  | nil => rfl
  | cons type types =>
      rw [TypeRef.namesOf, List.forall_mem_append] at h
      have hfirst := resolve_congr r type h.1
      simp only [resolveAll, hfirst, resolveAll_congr _ types h.2]

end

end Types.DeclaredTypes

/-! ### Names of nodes -/

namespace Program.Part

/-- The names in the written types that a part is. -/
def writtenNames : Part → List (List String × Nat)
  | .type t => t.names
  | .typeArgs ts => TypeRef.namesOf ts
  | _ => []

/-- The type arguments among parts. -/
def typeArgs? (ps : List Part) : Option (List TypeRef) :=
  ps.findSome? fun
    | .typeArgs ts => some ts
    | _ => Option.none

variable {ps : List Part} {x : List String × Nat}

theorem exists_of_mem_types {type : TypeRef} (htype : type ∈ types ps) (h : x ∈ type.names) :
    ∃ p ∈ ps, x ∈ p.writtenNames := by
  rcases List.mem_filterMap.mp htype with ⟨p, hp, hpart⟩
  refine ⟨p, hp, ?_⟩
  cases p with
  | type type' =>
      cases hpart
      exact h
  | _ => cases hpart

theorem exists_of_mem_firstType (h : x ∈ (firstType ps).names) : ∃ p ∈ ps, x ∈ p.writtenNames := by
  rw [firstType] at h
  cases hfirst : (types ps).head? with
  | none =>
      rw [hfirst] at h
      exact (List.not_mem_nil h).elim
  | some type =>
      rw [hfirst] at h
      exact exists_of_mem_types (List.mem_of_mem_head? hfirst) h

theorem exists_of_mem_typeArgs {args : List TypeRef} (hargs : typeArgs? ps = some args)
    (h : x ∈ TypeRef.namesOf args) : ∃ p ∈ ps, x ∈ p.writtenNames := by
  rcases List.exists_of_findSome?_eq_some hargs with ⟨p, hp, hpart⟩
  refine ⟨p, hp, ?_⟩
  cases p with
  | typeArgs types =>
      cases hpart
      exact h
  | _ => cases hpart

/-- A node brings the names of its children, and its own if it is that of a named type. -/
theorem exists_of_mem_assemble {kind : Kind} {span : Text.Span}
    (h : x ∈ (assemble kind span ps).writtenNames) :
    kind = .namedType ∧ names ps = x.1 ∨ ∃ p ∈ ps, x ∈ p.writtenNames := by
  cases kind with
  | namedType =>
      change x ∈ (TypeRef.named (names ps) (typeArgs? ps)).names at h
      cases hargs : typeArgs? ps with
      | none =>
          rw [hargs, TypeRef.names, List.mem_singleton] at h
          subst h
          exact .inl ⟨rfl, rfl⟩
      | some args =>
          rw [hargs, TypeRef.names, List.mem_cons] at h
          rcases h with rfl | h
          · exact .inl ⟨rfl, rfl⟩
          · exact .inr (exists_of_mem_typeArgs hargs h)
  | typeArgList =>
      rcases TypeRef.mem_namesOf.mp h with ⟨type, htype, hx⟩
      exact .inr (exists_of_mem_types htype hx)
  | arrayType => exact .inr (exists_of_mem_firstType h)
  | nullableType => exact .inr (exists_of_mem_firstType h)
  | _ => exact (List.not_mem_nil h).elim

mutual

/-- Every name in a written type is that of a node. -/
theorem exists_of_mem_ofTree {t : Tree} (above : List Node) {start : Nat} (index : Nat)
    (h : x ∈ (ofTree start t).writtenNames) :
    ∃ l ∈ Tree.locationsAt above start index t,
      l.node.kind = .namedType ∧ names (ofTrees l.node.start l.node.children) = x.1 := by
  cases t with
  | token lexeme => exact (List.not_mem_nil h).elim
  | node kind children =>
      rw [Tree.locationsAt]
      rcases exists_of_mem_assemble h with hhere | hbelow
      · exact ⟨_, List.mem_cons_self, hhere⟩
      · rcases exists_of_mem_ofTrees _ 0 hbelow with ⟨l, hl, hnames⟩
        exact ⟨l, List.mem_cons_of_mem _ hl, hnames⟩

theorem exists_of_mem_ofTrees {ts : List Tree} (above : List Node) {start : Nat} (index : Nat)
    (h : ∃ p ∈ ofTrees start ts, x ∈ p.writtenNames) :
    ∃ l ∈ Tree.locationsOf above start index ts,
      l.node.kind = .namedType ∧ names (ofTrees l.node.start l.node.children) = x.1 := by
  cases ts with
  | nil =>
      rcases h with ⟨p, hp, _⟩
      exact (List.not_mem_nil hp).elim
  | cons t ts =>
      rw [Tree.locationsOf]
      rcases h with ⟨p, hp, hx⟩
      rw [ofTrees, List.mem_cons] at hp
      rcases hp with rfl | hp
      · rcases exists_of_mem_ofTree above index hx with ⟨l, hl, hnames⟩
        exact ⟨l, List.mem_append_left _ hl, hnames⟩
      · rcases exists_of_mem_ofTrees above (index + 1) ⟨p, hp, hx⟩ with ⟨l, hl, hnames⟩
        exact ⟨l, List.mem_append_right _ hl, hnames⟩

end

/-- The first of several names. -/
theorem head?_names (ps : List Part) : (names ps).head? = name? ps := by
  rw [names, List.head?_map, List.head?_filter]
  rfl

end Program.Part

/-! ### What is declared in a file -/

namespace Types.DeclaredTypes

/-- What a declaration adds by its name and its context, several ones add one by one. -/
theorem foldl_declare_iff {P : DeclaredTypes → Prop} {Q : Option String × NameContext → Prop}
    (h : ∀ (d : DeclaredTypes) (x : TypeDecl × NameContext),
      P (d.declare x.1 x.2.home) ↔ P d ∨ Q (x.1.name, x.2))
    (decls : List (TypeDecl × NameContext)) (d : DeclaredTypes) :
    P (decls.foldl (fun d x => d.declare x.1 x.2.home) d) ↔
      P d ∨ ∃ x ∈ decls.map (fun x => (x.1.name, x.2)), Q x := by
  induction decls generalizing d with
  | nil => simp
  | cons x decls ih =>
      rw [List.foldl_cons, ih, h, or_assoc, List.map_cons, List.exists_mem_cons_iff]

/-- A declaration with a name makes the namespaces around it known. -/
theorem mem_namespaces_declare {d : DeclaredTypes} {decl : TypeDecl} {home path : Namespace} :
    path ∈ (d.declare decl home).namespaces ↔ path ∈ d.namespaces ∨
      decl.name.isSome = true ∧ path ∈ home.enclosing ∧ path ≠ [] := by
  have hadded : path ∈ (d.addNamespace home).namespaces ↔ path ∈ d.namespaces ∨
      path ∈ home.enclosing ∧ path ≠ [] := by
    rw [addNamespace, List.mem_append, List.mem_filter, Bool.not_eq_true',
      List.isEmpty_eq_false_iff]
  rw [declare]
  split
  · next hnone => simp [hnone]
  · next name hname =>
      rw [hname]
      dsimp only
      split
      · exact hadded.trans (by simp)
      · exact hadded.trans (by simp)

theorem namespaces_foldl_addMember (ms : List ResolvedMember) (d : DeclaredTypes) :
    (ms.foldl addMember d).namespaces = d.namespaces := by
  induction ms generalizing d with
  | nil => rfl
  | cons m ms ih => exact ih (d.addMember m)

/-- The types of a file are those that have names. -/
theorem mem_keys_collect {file : SourceFile} {r : Registry} {key : Namespace × String} :
    key ∈ (collect file r).1.keys ↔
      ∃ x ∈ (typesInContext file).map (fun x => (x.1.name, x.2)),
        x.1 = some key.2 ∧ x.2.home = key.1 := by
  have hkeys : (collect file r).1.keys
      = ((typesInContext file).foldl (fun d x => d.declare x.1 x.2.home) empty).keys :=
    keys_foldl_addMember _ _
  have hdeclare : ∀ (d : DeclaredTypes) (x : TypeDecl × NameContext),
      key ∈ (d.declare x.1 x.2.home).keys ↔
        key ∈ d.keys ∨ x.1.name = some key.2 ∧ x.2.home = key.1 := by
    intro d x
    rw [mem_keys_declare]
    refine or_congr_right ⟨?_, ?_⟩
    · rintro ⟨name, hname, rfl⟩
      exact ⟨hname, rfl⟩
    · rintro ⟨hname, hhome⟩
      exact ⟨key.2, hname, by rw [hhome]⟩
  rw [hkeys, foldl_declare_iff (P := fun d => key ∈ d.keys)
    (Q := fun x => x.1 = some key.2 ∧ x.2.home = key.1) hdeclare]
  exact or_iff_right List.not_mem_nil

theorem mem_namespaces_collect {file : SourceFile} {r : Registry} {path : Namespace} :
    path ∈ (collect file r).1.namespaces ↔
      ∃ x ∈ (typesInContext file).map (fun x => (x.1.name, x.2)),
        x.1.isSome = true ∧ path ∈ x.2.home.enclosing ∧ path ≠ [] := by
  have hsame : (collect file r).1.namespaces
      = ((typesInContext file).foldl (fun d x => d.declare x.1 x.2.home) empty).namespaces :=
    namespaces_foldl_addMember _ _
  rw [hsame, foldl_declare_iff (P := fun d => path ∈ d.namespaces)
    (Q := fun x => x.1.isSome = true ∧ path ∈ x.2.home.enclosing ∧ path ≠ [])
    fun d x => mem_namespaces_declare]
  exact or_iff_right List.not_mem_nil

end Types.DeclaredTypes

/-! ### One type more -/

/-- Declared types with one type more, in a namespace that is known. -/
structure AddsType (d d' : DeclaredTypes) (home : Namespace) (name : String) : Prop where
  keys : ∀ key, key ∈ d'.keys ↔ key ∈ d.keys ∨ key = (home, name)
  namespaces : ∀ path, path ∈ d'.namespaces ↔ path ∈ d.namespaces

namespace AddsType

variable {d d' : DeclaredTypes} {home : Namespace} {added : String} {c : NameContext}
  (h : AddsType d d' home added)

include h

theorem hasType_iff {ns : Namespace} {name : String} {arity : Nat} :
    d'.hasType ns name arity = true ↔
      d.hasType ns name arity = true ∨ arity = 0 ∧ ns = home ∧ name = added := by
  rw [DeclaredTypes.hasType_iff, DeclaredTypes.hasType_iff, h.keys, and_or_left, or_assoc, or_assoc,
    or_comm (b := Catalogue.has ns name arity = true), Prod.mk.injEq]

theorem isNamespace_eq (path : Namespace) : d'.isNamespace path = d.isNamespace path := by
  have hsame : d'.namespaces.contains path = d.namespaces.contains path := by
    rw [Bool.eq_iff_iff, List.contains_iff_mem, List.contains_iff_mem, h.namespaces]
  rw [DeclaredTypes.isNamespace, DeclaredTypes.isNamespace, hsame]

/-- A simple name leads where it led before, unless it is that of the new type. -/
theorem homeOf?_eq {name : String} {arity : Nat} (hname : arity = 0 → name ≠ added) :
    d'.homeOf? c name arity = d.homeOf? c name arity := by
  have hsame : ∀ ns, d'.hasType ns name arity = d.hasType ns name arity := by
    intro ns
    rw [Bool.eq_iff_iff, h.hasType_iff]
    exact or_iff_left fun hnew => hname hnew.1 hnew.2.2
  simp only [DeclaredTypes.homeOf?, DeclaredTypes.onlyHome?, hsame]

/-- A name that does not start with that of the new type leads where it led before, unless it is the
    full name of the new type and there was no type of this name. -/
theorem homeOfPath?_eq {qualifier : List String} {name : String} {arity : Nat}
    (hhead : (qualifier ++ [name]).head? ≠ some added)
    (hfull : arity = 0 → qualifier = home → name = added → d.hasType home added 0 = true) :
    d'.homeOfPath? c qualifier name arity = d.homeOfPath? c qualifier name arity := by
  cases qualifier with
  | nil => exact h.homeOf?_eq fun _ heq => hhead (heq ▸ rfl)
  | cons part parts =>
      have hsame : d'.hasType (part :: parts) name arity = d.hasType (part :: parts) name arity := by
        rw [Bool.eq_iff_iff, h.hasType_iff, or_iff_left_iff_imp]
        rintro ⟨rfl, hhome, rfl⟩
        rw [hhome]
        exact hfull rfl hhome rfl
      simp only [DeclaredTypes.homeOfPath?, List.isEmpty_cons, Bool.false_eq_true, if_false, hsame]

/-- A written type means what it meant before, unless one of its names starts with that of the new
    type or is the full name of the new type, of which there was no type. -/
theorem resolve_eq (r : Registry) (type : TypeRef)
    (hhead : ∀ x ∈ type.names, x.1.head? ≠ some added)
    (hfull : (home ++ [added], 0) ∈ type.names → d.hasType home added 0 = true) :
    d'.resolve c r type = d.resolve c r type := by
  refine DeclaredTypes.resolve_congr r type fun x hx name hlast => ?_
  have hwhole : x.1.dropLast ++ [name] = x.1 := List.dropLast_append_getLast? name hlast
  refine h.homeOfPath?_eq (hwhole.symm ▸ hhead x hx) fun harity hqualifier hname => hfull ?_
  rwa [← hqualifier, ← hname, hwhole, ← harity]

/-- The name of the new type is found in its namespace. -/
theorem resolve_added (r : Registry) (hc : c.home = home) :
    d'.resolve c r (.named [added] none) = r.intern (.named home added []) := by
  have hthere : d'.hasType home added 0 = true := h.hasType_iff.mpr (.inr ⟨rfl, rfl, rfl⟩)
  have henclosing : ∃ others, home.enclosing = home :: others := by
    rw [Namespace.enclosing, List.range_succ_eq_map, List.map_cons, Nat.sub_zero, List.take_length]
    exact ⟨_, rfl⟩
  rcases henclosing with ⟨others, henclosing⟩
  have hfound : d'.homeOfPath? c [added].dropLast added 0 = some home := by
    change d'.homeOf? c added 0 = some home
    rw [DeclaredTypes.homeOf?, hc, henclosing,
      List.find?_cons_of_pos (p := fun ns => d'.hasType ns added 0) hthere]
  change d'.resolvePath c r [added] [] = _
  rw [DeclaredTypes.resolvePath, List.getLast?_singleton]
  dsimp only [List.length_nil]
  rw [hfound]

/-- So is its full name, everywhere. -/
theorem resolve_full (r : Registry) (hhome : home ≠ []) :
    d'.resolve c r (.named (home ++ [added]) none) = r.intern (.named home added []) := by
  have hthere : d'.hasType home added 0 = true := h.hasType_iff.mpr (.inr ⟨rfl, rfl, rfl⟩)
  have hfound : d'.homeOfPath? c home added 0 = some home := by
    rw [DeclaredTypes.homeOfPath?, if_neg (mt List.isEmpty_iff.mp hhome), if_pos hthere]
  change d'.resolvePath c r (home ++ [added]) [] = _
  rw [DeclaredTypes.resolvePath, List.getLast?_concat, List.dropLast_concat]
  dsimp only [List.length_nil]
  rw [hfound]

end AddsType

/-- The names of the types of a file with their contexts, from the tree of the file. -/
theorem names_typesInContext (children : List Tree) :
    (typesInContext (SourceFile.ofTree (.node .root children))).map (fun x => (x.1.name, x.2))
      = typeNames (NameContext.ofFile (Part.items (Part.ofTrees 0 children))) 0 children := rfl

/-- A type more in a file is one more among those that it declares. -/
theorem Gains.addsType {name : String} {home : NameContext} {ts us : List Tree} {r : Registry}
    (h : Gains name home (NameContext.ofFile (Part.items (Part.ofTrees 0 ts))) ts us) :
    AddsType (DeclaredTypes.collect (SourceFile.ofTree (.node .root ts)) r).1
      (DeclaredTypes.collect (SourceFile.ofTree (.node .root us)) r).1 home.home name := by
  have hcontext : NameContext.ofFile (Part.items (Part.ofTrees 0 us))
      = NameContext.ofFile (Part.items (Part.ofTrees 0 ts)) := by
    rw [NameContext.ofFile, NameContext.ofFile, Part.usingsOf_items, Part.usingsOf_items]
    exact congrArg _ h.usings
  constructor
  · intro key
    have hkey : key = (home.home, name) ↔ some name = some key.2 ∧ home.home = key.1 := by
      constructor
      · rintro rfl
        exact ⟨rfl, rfl⟩
      · rintro ⟨hname, hhome⟩
        exact Prod.ext hhome.symm (Option.some.inj hname).symm
    rw [DeclaredTypes.mem_keys_collect, DeclaredTypes.mem_keys_collect, names_typesInContext,
      names_typesInContext, hcontext, hkey]
    simp only [h.mem_typeNames_iff, or_and_right, exists_or, exists_eq_left]
  · intro path
    rw [DeclaredTypes.mem_namespaces_collect, DeclaredTypes.mem_namespaces_collect,
      names_typesInContext, names_typesInContext, hcontext]
    simp only [h.mem_typeNames_iff, or_and_right, exists_or, exists_eq_left]
    -- The type in front of the new one is in the same namespace.
    rcases h.exists_known with ⟨known, hknown⟩
    exact or_iff_left_of_imp fun hnew => ⟨_, hknown, rfl, hnew.2⟩

/-- An extraction adds a type to those that are declared. -/
theorem Document.Extracts.addsType {source : String} {d : Document} {anchor : Site} {p : Plan}
    {e : Extraction} (hd : Document.parse source = .ok d) (h : d.Extracts anchor p e)
    {text : String} {d' : Document} (hd' : Document.parse text = .ok d') (htree : d'.tree = e.tree) :
    AddsType d.model.declared d'.model.declared p.scope.context.home p.newName := by
  rcases h.gains hd with ⟨children, us, hchildren, hus, hgains⟩
  rcases Document.parse_eq_ok hd with ⟨_, _, _, hmodel, _⟩
  rcases Document.parse_eq_ok hd' with ⟨_, _, _, hmodel', _⟩
  rw [hmodel, hmodel', htree, hchildren, hus]
  exact hgains.addsType

/-! ### References -/

/-- What was written before an extraction means the same after it. -/
structure KeepsReferences (d d' : Document) (p : Plan) : Prop where
  /-- The name of the new type means the new type where the objects are created. -/
  added : ∀ (c : NameContext) (r : Registry), c.home = p.scope.home →
    d'.model.declared.resolve c r (.named [p.newName] none)
      = r.intern (.named p.scope.home p.newName [])
  /-- So does its full name everywhere, also where it stood before. -/
  full : p.scope.home ≠ [] → ∀ (c : NameContext) (r : Registry),
    d'.model.declared.resolve c r (.named (p.scope.home ++ [p.newName]) none)
      = r.intern (.named p.scope.home p.newName [])
  /-- A written type means what it meant before, unless the full name of the new type stands in it
      already, without a meaning. -/
  types : ∀ l ∈ d.tree.locations, ∀ type, Part.ofTree l.node.start l.node.tree = .type type →
    ((p.scope.home ++ [p.newName], 0) ∈ type.names →
      d.model.declared.hasType p.scope.home p.newName 0 = true) →
    ∀ c r, d'.model.declared.resolve c r type = d.model.declared.resolve c r type
  /-- A simple name that an expression may use for a type or a namespace means the same type. -/
  names : ∀ l ∈ d.tree.locations, l.node.kind = .nameRef → ∀ token, nameToken? l = some token →
    token.kind = .id → d.model.declared.namesTypeOrNamespace token.text = true →
    ∀ c r, d'.model.declared.resolvePath c r [token.text] []
      = d.model.declared.resolvePath c r [token.text] []
  /-- There are the same namespaces. -/
  namespaces : ∀ path, d'.model.declared.isNamespace path = d.model.declared.isNamespace path

end Nominal
