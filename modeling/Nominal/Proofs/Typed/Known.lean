import Nominal.Model.Basic
import Nominal.Proofs.Typed

/-!
# Registered Types Are Known

Types get registered all the time while a program is typed. Whatever the program says, two things
hold of all of them. A named type is registered when its name is looked up and found, when the
library tells it, or when its declaration comes into sight, so there is a type of that name and that
number of arguments in its namespace. And a nullable type is made of a type that was registered
before and is not nullable itself.

Declared types are collected before anything is looked up, and working out their members does not
change which types there are. So what is known by then is what is known in the end. What is
registered while a file is typed is found out with a law of typing, except that a type that is
declared comes into sight with the namespace around it. So items are gone through with what is
declared in them.

## Main definitions

* `DeclaredTypes.keys`: The namespaces and names of the declared types.
* `Shape.IsKnown`, `Registry.IsKnown`: Named types are known, and nullable types are not made
  nullable.
* `IsListed`: A declaration is among the declared types, if it has a name.
* `Keeps`: A step of typing that registers such types only.

## Theorems

* `DeclaredTypes.hasType_iff`: Which types there are depends on the keys alone.
* `DeclaredTypes.known_resolve`: Finding what a written type means registers known types.
* `DeclaredTypes.known_collect`: So does collecting the types of a file.
* `keeps_typeItems`: So does typing a file.
* `Model.known_ofTree`: All types that a model has registered are known.
-/

namespace Nominal

open Program (TypeRef TypeDecl Member Item SourceFile)

namespace Types

/-! ### Which types there are -/

namespace DeclaredTypes

/-- The namespaces and names of the declared types. -/
def keys (d : DeclaredTypes) : List (Namespace × String) := d.table.map fun t => (t.home, t.name)

variable {d d' : DeclaredTypes} {home : Namespace} {name : String} {arity : Nat}

theorem isSome_get?_iff : (d.get? home name).isSome ↔ (home, name) ∈ d.keys := by
  rw [get?, List.find?_isSome, keys, List.mem_map]
  simp only [Bool.and_eq_true, beq_iff_eq, Prod.mk.injEq]

/-- A type is one of those declared, or one of the library. -/
theorem hasType_iff : d.hasType home name arity = true ↔
    arity = 0 ∧ (home, name) ∈ d.keys ∨ Catalogue.has home name arity = true := by
  rw [hasType, Bool.or_eq_true, Bool.and_eq_true, beq_iff_eq, isSome_get?_iff]

theorem hasType_congr (h : d.keys = d'.keys) : d.hasType = d'.hasType := by
  funext home name arity
  rw [Bool.eq_iff_iff, hasType_iff, hasType_iff, h]

/-- Whatever is changed of a type but its namespace and its name. -/
theorem keys_modify (d : DeclaredTypes) (home : Namespace) (name : String)
    {f : DeclaredType → DeclaredType} (hf : ∀ t, (f t).home = t.home ∧ (f t).name = t.name) :
    (d.modify home name f).keys = d.keys := by
  rw [keys, modify, List.map_map]
  refine List.map_congr_left fun t _ => ?_
  rw [Function.comp_apply]
  split
  · rw [(hf t).1, (hf t).2]
  · rfl

theorem keys_addMember (d : DeclaredTypes) (m : ResolvedMember) : (d.addMember m).keys = d.keys := by
  refine keys_modify d m.home m.owner fun t => ?_
  split
  · exact ⟨rfl, rfl⟩
  · exact ⟨rfl, rfl⟩

/-- A declaration adds its name to those in its namespace. -/
theorem mem_keys_declare {decl : TypeDecl} {key : Namespace × String} :
    key ∈ (d.declare decl home).keys
      ↔ key ∈ d.keys ∨ ∃ name, decl.name = some name ∧ key = (home, name) := by
  rw [declare]
  split
  · next hnone => simp only [hnone, reduceCtorEq, false_and, exists_false, or_false]
  · next name hname =>
      have hsome : (∃ n, decl.name = some n ∧ key = (home, n)) ↔ key = (home, name) := by
        simp only [hname, Option.some.injEq, exists_eq_left']
      rw [hsome]
      dsimp only
      split
      · next t ht =>
          -- The type is there already, so its name adds nothing.
          have hmem : (home, name) ∈ d.keys :=
            isSome_get?_iff.mp (Option.isSome_iff_exists.mpr ⟨t, ht⟩)
          rw [keys_modify]
          · exact ⟨.inl, fun h => h.elim id fun heq => heq ▸ hmem⟩
          · exact fun _ => ⟨rfl, rfl⟩
      · rw [keys, List.map_append, List.mem_append, List.map_singleton, List.mem_singleton]
        rfl

end DeclaredTypes

/-! ### Shapes and registries -/

/-- There is a type of a registered name, and what is made nullable is registered and not
    nullable. -/
def Shape.IsKnown (d : DeclaredTypes) (r : Registry) : Shape → Prop
  | .named home name args => d.hasType home name args.length = true
  | .nullable inner => ∃ shape, r.shape? inner = some shape ∧ ∀ t, shape ≠ .nullable t
  | _ => True

/-- All registered types are such. -/
structure Registry.IsKnown (d : DeclaredTypes) (r : Registry) : Prop where
  grown : Registry.initial.Grows r
  known : ∀ shape ∈ r.shapes, shape.IsKnown d r

variable {d d' : DeclaredTypes}

theorem Shape.IsKnown.mono {r r' : Registry} {shape : Shape} (h : shape.IsKnown d r)
    (hgrows : r.Grows r') : shape.IsKnown d r' := by
  cases shape with
  | nullable inner =>
      rcases h with ⟨shape, hshape, honce⟩
      exact ⟨shape, hgrows.shape? hshape, honce⟩
  | _ => exact h

namespace Registry

variable {r : Registry}

theorem isKnown_initial : initial.IsKnown d := by
  refine ⟨.refl _, fun shape hshape => ?_⟩
  rw [initial, List.mem_append, List.mem_map] at hshape
  rcases hshape with hspecial | ⟨p, _, rfl⟩
  · simp only [List.mem_cons, List.not_mem_nil, or_false] at hspecial
    rcases hspecial with rfl | rfl | rfl | rfl
    all_goals trivial
  · trivial

namespace IsKnown

/-- Only the namespaces and names of the declared types matter. -/
theorem congr (h : d.keys = d'.keys) (hr : r.IsKnown d) : r.IsKnown d' := by
  refine ⟨hr.grown, fun shape hshape => ?_⟩
  have hknown := hr.known shape hshape
  cases shape with
  | named home name args =>
      rw [Shape.IsKnown, ← DeclaredTypes.hasType_congr h]
      exact hknown
  | _ => exact hknown

/-- A shape of this kind may be registered. -/
theorem intern (h : r.IsKnown d) {shape : Shape} (hshape : shape.IsKnown d r) :
    (r.intern shape).2.IsKnown d := by
  have hgrows := r.grows_intern shape
  refine ⟨h.grown.trans hgrows, ?_⟩
  have hknown : ∀ s ∈ (r.intern shape).2.shapes, s.IsKnown d r := by
    rw [Registry.intern]
    split
    · exact h.known
    · exact List.forall_mem_append.mpr ⟨h.known, List.forall_mem_singleton.mpr hshape⟩
  exact fun s hs => (hknown s hs).mono hgrows

/-- A registered type may be made nullable. -/
theorem internNullable (h : r.IsKnown d) {inner : TypeId} (hinner : (r.shape? inner).isSome) :
    (r.internNullable inner).2.IsKnown d := by
  rcases Option.isSome_iff_exists.mp hinner with ⟨shape, hshape⟩
  rw [Registry.internNullable]
  split
  · exact h
  · next hnot =>
      refine h.intern ⟨shape, hshape, ?_⟩
      rintro t rfl
      exact hnot t hshape

/-- The unknown type and the primitive ones are registered. -/
theorem isSome_shape? (h : r.IsKnown d) {t : TypeId} (ht : (initial.shape? t).isSome) :
    (r.shape? t).isSome := by
  rcases Option.isSome_iff_exists.mp ht with ⟨shape, hshape⟩
  rw [h.grown.shape? hshape]
  rfl

theorem of_shape? (h : r.IsKnown d) {t : TypeId} {shape : Shape} (hshape : r.shape? t = some shape) :
    shape.IsKnown d r := h.known shape (List.mem_of_getElem? hshape)

end IsKnown

end Registry

/-- A type that the library tells may be registered. -/
theorem Derived.IsOfLibrary.intern {derived : Derived} (hderived : derived.IsOfLibrary)
    {r : Registry} (h : r.IsKnown d) : (derived.intern r).2.IsKnown d := by
  cases derived with
  | known t => exact h
  | shaped shape =>
      refine h.intern ?_
      cases shape with
      | named home name args => exact DeclaredTypes.hasType_iff.mpr (.inr hderived)
      | array element => trivial
      | _ => exact hderived.elim

/-! ### Written types -/

namespace DeclaredTypes

variable {c : NameContext} {r : Registry}

/-- Where a name is found there is a type of this name. -/
theorem hasType_of_homeOfPath? {qualifier : List String} {name : String} {arity : Nat}
    {home : Namespace} (h : d.homeOfPath? c qualifier name arity = some home) :
    d.hasType home name arity = true := by
  rw [homeOfPath?] at h
  split at h
  · rw [homeOf?] at h
    split at h
    · next ns hfound =>
        cases h
        exact (List.find?_eq_some_iff_append.mp hfound).1
    · rw [onlyHome?] at h
      split at h
      · cases h
      · next ns others hfound =>
          split at h
          · cases h
            have hmem : home ∈ c.usings.filter fun ns => d.hasType ns name arity :=
              hfound ▸ List.mem_cons_self
            exact (List.mem_filter.mp hmem).2
          · cases h
  · split at h
    · next hqualified =>
        cases h
        exact hqualified
    · cases h

theorem known_resolvePath (hr : r.IsKnown d) (segments : List String) (args : List TypeId) :
    (d.resolvePath c r segments args).2.IsKnown d
      ∧ ((d.resolvePath c r segments args).2.shape? (d.resolvePath c r segments args).1).isSome := by
  have hunknown : (r.shape? .unknown).isSome := hr.isSome_shape? rfl
  rw [resolvePath]
  split
  · exact ⟨hr, hunknown⟩
  · split
    · next home hhome =>
        refine ⟨hr.intern (hasType_of_homeOfPath? hhome), ?_⟩
        rw [Registry.shape?_intern]
        rfl
    · exact ⟨hr, hunknown⟩

mutual

/-- Finding what a written type means registers known types only, and the type that is found is
    registered. -/
theorem known_resolve {r : Registry} (hr : r.IsKnown d) (type : TypeRef) :
    (d.resolve c r type).2.IsKnown d
      ∧ ((d.resolve c r type).2.shape? (d.resolve c r type).1).isSome := by
  have hunknown : ∀ {r : Registry}, r.IsKnown d → (r.shape? .unknown).isSome :=
    fun hr => hr.isSome_shape? rfl
  cases type with
  | missing => exact ⟨hr, hunknown hr⟩
  | predefined keyword =>
      rw [resolve]
      split
      · next p _ => exact ⟨hr, hr.isSome_shape? (by cases p <;> rfl)⟩
      · exact ⟨hr, hunknown hr⟩
  | named segments args =>
      cases args with
      | none => exact known_resolvePath hr segments []
      | some args => exact known_resolvePath (known_resolveAll hr args) segments _
  | array element =>
      have helement := (known_resolve hr element).1
      simp only [resolve]
      split
      · exact ⟨helement, hunknown helement⟩
      · refine ⟨helement.intern trivial, ?_⟩
        rw [Registry.shape?_intern]
        rfl
  | nullable inner =>
      have hinner := known_resolve hr inner
      simp only [resolve]
      split
      · exact ⟨hinner.1, hunknown hinner.1⟩
      · refine ⟨hinner.1.internNullable hinner.2, ?_⟩
        rw [Registry.internNullable]
        split
        · next hshape => rw [hshape]; rfl
        · rw [Registry.shape?_intern]
          rfl

theorem known_resolveAll {r : Registry} (hr : r.IsKnown d) (types : List TypeRef) :
    (d.resolveAll c r types).2.IsKnown d := by
  cases types with
  | nil => exact hr
  | cons type types => exact known_resolveAll (known_resolve hr type).1 types

end

end DeclaredTypes

/-! ### Collecting types -/

/-- A declaration is among the declared types, if it has a name. -/
def IsListed (d : DeclaredTypes) (x : TypeDecl × NameContext) : Prop :=
  ∀ name, x.1.name = some name → (x.2.home, name) ∈ d.keys

namespace DeclaredTypes

/-- What declarations make known is kept by further ones and by working out members. -/
theorem keys_foldl_declare (decls : List (TypeDecl × NameContext)) (d : DeclaredTypes) :
    (∀ key ∈ d.keys, key ∈ (decls.foldl (fun d x => d.declare x.1 x.2.home) d).keys)
      ∧ ∀ x ∈ decls, IsListed (decls.foldl (fun d x => d.declare x.1 x.2.home) d) x := by
  induction decls generalizing d with
  | nil => exact ⟨fun _ h => h, List.forall_mem_nil _⟩
  | cons x decls ih =>
      rcases ih (d.declare x.1 x.2.home) with ⟨hkept, hrest⟩
      refine ⟨fun key hkey => hkept key (mem_keys_declare.mpr (.inl hkey)), ?_⟩
      rw [List.forall_mem_cons]
      exact ⟨fun name hname => hkept _ (mem_keys_declare.mpr (.inr ⟨name, hname, rfl⟩)), hrest⟩

theorem keys_foldl_addMember (ms : List ResolvedMember) (d : DeclaredTypes) :
    (ms.foldl addMember d).keys = d.keys := by
  induction ms generalizing d with
  | nil => rfl
  | cons m ms ih => exact (ih (d.addMember m)).trans (keys_addMember d m)

/-- The declarations of a file are listed, and collecting them registers known types only. -/
theorem known_collect (file : SourceFile) :
    (∀ x ∈ typesInContext file, IsListed (collect file Registry.initial).1 x)
      ∧ (collect file Registry.initial).2.IsKnown (collect file Registry.initial).1 := by
  have hkeys : (collect file Registry.initial).1.keys
      = ((typesInContext file).foldl (fun d x => d.declare x.1 x.2.home) empty).keys :=
    keys_foldl_addMember _ _
  refine ⟨fun x hx name hname => ?_, ?_⟩
  · rw [hkeys]
    exact (keys_foldl_declare _ empty).2 x hx name hname
  · refine Registry.IsKnown.congr hkeys.symm ?_
    exact kept_resolveTypes (R := Registry.IsKnown _) _
      (fun c r type hr => (known_resolve hr type).1) Registry.isKnown_initial _

end DeclaredTypes

end Types

/-! ### Typing -/

namespace Typing

open Program
open Nominal.Types (DeclaredTypes IsListed typesOfItem typesOfItems typesInContext)

variable {declared : DeclaredTypes}

/-- A step of typing registers known types only, and names are looked up where they were before. -/
def Keeps (declared : DeclaredTypes) : StepProperty := fun _ c _ => ∀ s : TypingState,
  s.registry.IsKnown declared → (c s).2.registry.IsKnown declared ∧ (c s).2.context = s.context

namespace Keeps

variable {α β : Type} {c : TypingM α} {f : α → TypingM β} {es fs : List Expr}

theorem quiet (hregistry : ∀ s : TypingState, (c s).2.registry = s.registry)
    (hcontext : ∀ s : TypingState, (c s).2.context = s.context) : Keeps declared α c es :=
  fun s hs => ⟨(hregistry s).symm ▸ hs, hcontext s⟩

theorem bind_of {P : α → Prop} (hc : Keeps declared α c es) (ha : Answers c P)
    (hf : ∀ a, P a → Keeps declared β (f a) fs) : Keeps declared β (c >>= f) (es ++ fs) := by
  intro s hs
  have hfirst := hc s hs
  have hsecond := hf (c s).1 (ha s) (c s).2 hfirst.1
  exact ⟨hsecond.1, hsecond.2.trans hfirst.2⟩

end Keeps

theorem keeps_internShape {shape : Types.Shape} (h : ∀ r, shape.IsKnown declared r) :
    Keeps declared Types.TypeId (internShape shape) [] :=
  fun s hs => ⟨hs.intern (h s.registry), rfl⟩

theorem stepLaw_keeps : StepLaw declared (Keeps declared) where
  pure _ := .quiet (fun _ => rfl) fun _ => rfl
  bind_of := Keeps.bind_of
  known := .quiet (fun _ => rfl) fun _ => rfl
  aside hregistry _ _ hcontext := .quiet hregistry hcontext
  record _ _ _ := .quiet (fun _ => rfl) fun _ => rfl
  file _ _ _ := .quiet (fun _ => rfl) fun _ => rfl
  more _ h := h
  internArray _ := keeps_internShape fun _ => trivial
  internDerived? := by
    intro derived hlibrary
    cases derived with
    | none => exact .quiet (fun _ => rfl) fun _ => rfl
    | some d => exact fun s hs => ⟨(hlibrary d rfl).intern hs, rfl⟩
  resolveType type := fun s hs => ⟨(Types.DeclaredTypes.known_resolve hs type).1, rfl⟩
  resolveName segments :=
    fun s hs => ⟨(Types.DeclaredTypes.known_resolvePath hs segments []).1, rfl⟩

/-- Typing registers known types only, apart from declared types that come into sight. -/
theorem typingLaw_keeps : TypingLaw declared (Keeps declared) where
  toStepLaw := stepLaw_keeps
  anonymous span keyword members h := by
    have law : StepLaw declared (Keeps declared) := stepLaw_keeps
    have hadd : ∀ found m type,
        Keeps declared AnonymousMembers (addAnonymousMember found m type) [] := by
      intro found m type
      rw [addAnonymousMember]
      split
      · exact .quiet (fun _ => rfl) fun _ => rfl
      · split
        · exact .quiet (fun _ => rfl) fun _ => rfl
        · exact .quiet (fun _ => rfl) fun _ => rfl
    have hrecord : ∀ t, Keeps declared Referent (recordValue (.anonymous span keyword members) t)
        [.anonymous span keyword members] := fun t => .quiet (fun _ => rfl) fun _ => rfl
    rw [examine]
    refine law.bind (law.typeMembers hadd ⟨[], true⟩ h) fun found => ?_
    dsimp only
    split
    · exact law.first (keeps_internShape fun _ => trivial) hrecord
    · exact law.first (law.pure _) hrecord

/-- Typing a declared type registers known types only. -/
theorem keeps_typeDecl {decl : TypeDecl} {s : TypingState} (hs : s.registry.IsKnown declared)
    (hdecl : IsListed declared (decl, s.context)) :
    (typeDecl declared false decl s).2.registry.IsKnown declared
      ∧ (typeDecl declared false decl s).2.context = s.context := by
  have law : TypingLaw declared (Keeps declared) := typingLaw_keeps
  cases decl with
  | mk span keyword name modifiers bases members isClosed =>
      rw [typeDecl]
      cases name with
      | none =>
          exact law.inSight s (law.pure _) (law.typeTypeMembers members) s hs
      | some name =>
          -- The type comes into sight with the namespace that is known here.
          have hnamed : ∀ r, (Types.Shape.named s.context.home name []).IsKnown declared r :=
            fun _ => Types.DeclaredTypes.hasType_iff.mpr (.inl ⟨rfl, hdecl name rfl⟩)
          exact law.inSight s (law.map some (keeps_internShape hnamed))
            (law.typeTypeMembers members) s hs

mutual

theorem keeps_typeItem {item : Item} {s : TypingState} (hs : s.registry.IsKnown declared)
    (hitem : ∀ x ∈ typesOfItem s.context item, IsListed declared x) :
    (typeItem declared item s).2.registry.IsKnown declared
      ∧ (typeItem declared item s).2.context = s.context := by
  cases item with
  | usingDirective path => exact ⟨hs, rfl⟩
  | namespaceDecl path isFileScoped items =>
      rw [typeItem]
      let inner : TypingState := { s with context := s.context.enter path items }
      have hinner := keeps_typeItems (s := inner) hs hitem
      exact ⟨hinner.1, rfl⟩
  | type decl =>
      rw [typeItem]
      exact keeps_typeDecl hs (hitem (decl, s.context) (List.mem_singleton_self _))
  | stmt stmt =>
      rw [typeItem]
      exact typingLaw_keeps.typeStmt stmt s hs

/-- Typing items registers known types only. -/
theorem keeps_typeItems {items : List Item} {s : TypingState} (hs : s.registry.IsKnown declared)
    (hitems : ∀ x ∈ typesOfItems s.context items, IsListed declared x) :
    (typeItems declared items s).2.registry.IsKnown declared
      ∧ (typeItems declared items s).2.context = s.context := by
  cases items with
  | nil => exact ⟨hs, rfl⟩
  | cons item items =>
      rw [typesOfItems, List.forall_mem_append] at hitems
      rw [typeItems]
      have hfirst := keeps_typeItem hs hitems.1
      have hrest := keeps_typeItems (s := (typeItem declared item s).2) hfirst.1
        (hfirst.2.symm ▸ hitems.2)
      exact ⟨hrest.1, hrest.2.trans hfirst.2⟩

end

end Typing

/-- All types that are registered for a tree are known. -/
theorem Model.known_ofTree (t : Syntax.Tree) :
    (Model.ofTree t).1.registry.IsKnown (Model.ofTree t).1.declared := by
  have hcollected := Types.DeclaredTypes.known_collect (SourceFile.ofTree t)
  exact (Typing.keeps_typeItems (s := Typing.TypingState.initial (SourceFile.ofTree t) _)
    hcollected.2 hcollected.1).1

end Nominal
