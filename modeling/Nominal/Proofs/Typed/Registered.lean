import Nominal.Proofs.Interned
import Nominal.Typing.Infer

/-!
# Registered Types Lead to Registered Types

A type is known by a number, and a number that nothing has been registered under is no type yet; it
may become one later on. So it matters that nothing ever answers such a number. What is asked for
is registered then, and what a type is built of was registered before it. The types that typing works
out of others are among these: the meaning of a written type, the types that the library tells, what
is found in an enumeration, and the type of an operation.

## Main definitions

* `Registry.IsReady`: Types may be asked for in a registry.
* `Registry.Yields`: Types have been asked for, and the answers are registered.
* `Derived.parts`: The types that a derived type is built of.
* `DeclaredTypes.All`: Something holds of the members of each declared type.
* `DeclaredTypes.IsRegistered`: The types of all members of declared types are registered.

## Theorems

* `Registry.yields_answer`: A type of registered parts may be asked for.
* `DeclaredTypes.yields_resolve`: The meaning of a written type is registered.
* `DeclaredTypes.all_collect`: What adding members keeps holds of the members of all types.
* `DeclaredTypes.isRegistered_collect`: The types of declared members are registered.
* `Catalogue.isRegistered_instanceMember?`: So are the types that the library tells, if it is asked
  about registered ones.
-/

namespace Nominal

namespace Types

open Program (TypeRef TypeDecl Member SourceFile)

namespace Registry

variable {r r' r'' : Registry} {t : TypeId} {ts : List TypeId}

theorem Grows.isRegistered (h : r.Grows r') (ht : r.IsRegistered t) : r'.IsRegistered t := by
  rcases isRegistered_iff.mp ht with ⟨s, hs⟩
  exact isRegistered_iff.mpr ⟨s, h.shape? hs⟩

/-- Types may be asked for: those that are there from the start are there, and the parts of every
    type are older than it is. -/
structure IsReady (r : Registry) : Prop where
  grown : initial.Grows r
  consistent : r.IsConsistent

theorem isReady_initial : initial.IsReady := ⟨.refl _, consistent_initial⟩

namespace IsReady

/-- What is registered from the start is registered. -/
theorem fixed (h : r.IsReady) (ht : initial.IsRegistered t) : r.IsRegistered t :=
  h.grown.isRegistered ht

theorem unknown (h : r.IsReady) : r.IsRegistered .unknown := h.fixed (by decide)

theorem primitive (h : r.IsReady) (p : Primitive) : r.IsRegistered (.primitive p) :=
  h.fixed (by cases p <;> decide)

/-- The parts of a type are registered. -/
theorem part (h : r.IsReady) {s : Shape} (hs : r.shape? t = some s) {part : TypeId}
    (hpart : part ∈ s.parts) : r.IsRegistered part :=
  Nat.lt_trans (h.consistent.earlier t s hs part hpart) (isRegistered_iff.mpr ⟨s, hs⟩)

end IsReady

/-- Types have been asked for, and the answers are registered. -/
structure Yields (r : Registry) (ts : List TypeId) (r' : Registry) : Prop where
  grows : r.Grows r'
  ready : r'.IsReady
  registered : ∀ t ∈ ts, r'.IsRegistered t

namespace Yields

theorem here (hr : r.IsReady) (hts : ∀ t ∈ ts, r.IsRegistered t) : Yields r ts r :=
  ⟨.refl r, hr, hts⟩

theorem one (hr : r.IsReady) (ht : r.IsRegistered t) : Yields r [t] r :=
  .here hr (List.forall_mem_singleton.mpr ht)

theorem type (h : Yields r [t] r') : r'.IsRegistered t := h.registered t (List.mem_singleton_self t)

/-- What is asked for later on does not matter for the first answers. -/
theorem trans (h : Yields r ts r') (h' : Yields r' ts r'') : Yields r ts r'' :=
  ⟨h.grows.trans h'.grows, h'.ready, h'.registered⟩

end Yields

/-- A type of registered parts may be asked for. -/
theorem yields_answer (hr : r.IsReady) (q : Request) (hparts : ∀ part ∈ q.shape.parts, r.IsRegistered part) :
    Yields r [(q.answer r).1] (q.answer r).2 :=
  ⟨grows_answer q r, ⟨hr.grown.trans (grows_answer q r), consistent_answer hr.consistent hparts⟩,
    List.forall_mem_singleton.mpr (isRegistered_answer q r)⟩

end Registry

/-! ### Written types -/

namespace DeclaredTypes

variable {d : DeclaredTypes} {c : NameContext} {r : Registry}

theorem yields_resolvePath (hr : r.IsReady) (segments : List String) {args : List TypeId}
    (hargs : ∀ t ∈ args, r.IsRegistered t) :
    r.Yields [(d.resolvePath c r segments args).1] (d.resolvePath c r segments args).2 := by
  rw [resolvePath]
  split
  · exact .one hr hr.unknown
  · split
    · next home _ => exact Registry.yields_answer hr (.named home _ args) hargs
    · exact .one hr hr.unknown

mutual

/-- The meaning of a written type is registered. -/
theorem yields_resolve {r : Registry} (hr : r.IsReady) (type : TypeRef) :
    r.Yields [(d.resolve c r type).1] (d.resolve c r type).2 := by
  cases type with
  | missing => exact .one hr hr.unknown
  | predefined keyword =>
      rw [resolve]
      split
      · next p _ => exact .one hr (hr.primitive p)
      · exact .one hr hr.unknown
  | named segments args =>
      cases args with
      | none => exact yields_resolvePath hr segments (List.forall_mem_nil _)
      | some args =>
          have hargs := yields_resolveAll hr args
          have hpath := yields_resolvePath (d := d) (c := c) hargs.ready segments hargs.registered
          exact ⟨hargs.grows.trans hpath.grows, hpath.ready, hpath.registered⟩
  | array element =>
      have helement := yields_resolve hr element
      have hunknown := helement.ready.unknown
      simp only [resolve]
      split
      · exact ⟨helement.grows, helement.ready, List.forall_mem_singleton.mpr hunknown⟩
      · have harray := Registry.yields_answer helement.ready (.array _) helement.registered
        exact ⟨helement.grows.trans harray.grows, harray.ready, harray.registered⟩
  | nullable inner =>
      have hinner := yields_resolve hr inner
      have hunknown := hinner.ready.unknown
      simp only [resolve]
      split
      · exact ⟨hinner.grows, hinner.ready, List.forall_mem_singleton.mpr hunknown⟩
      · have hnullable := Registry.yields_answer hinner.ready (.nullable _) hinner.registered
        exact ⟨hinner.grows.trans hnullable.grows, hnullable.ready, hnullable.registered⟩

theorem yields_resolveAll {r : Registry} (hr : r.IsReady) (types : List TypeRef) :
    r.Yields (d.resolveAll c r types).1 (d.resolveAll c r types).2 := by
  cases types with
  | nil => exact .here hr (List.forall_mem_nil _)
  | cons type types =>
      have hfirst := yields_resolve hr type
      have hrest := yields_resolveAll hfirst.ready types
      refine ⟨hfirst.grows.trans hrest.grows, hrest.ready, ?_⟩
      exact List.forall_mem_cons.mpr ⟨hrest.grows.isRegistered hfirst.type, hrest.registered⟩

end

/-! ### Declared members -/

/-- Something holds of the members of each declared type and of its methods. -/
def All (d : DeclaredTypes) (P : List Field → List Field → Prop) : Prop :=
  ∀ decl ∈ d.table, P decl.members decl.methods

/-- The types of all members of declared types are registered. -/
def IsRegistered (d : DeclaredTypes) (r : Registry) : Prop :=
  d.All fun members methods => ∀ f ∈ members ++ methods, r.IsRegistered f.type

variable {P : List Field → List Field → Prop}

theorem IsRegistered.mono {r' : Registry} (h : d.IsRegistered r) (hgrows : r.Grows r') :
    d.IsRegistered r' := fun decl hdecl f hf => hgrows.isRegistered (h decl hdecl f hf)

/-- The types of members that have been worked out, in a registry. -/
abbrev YieldsMembers (r : Registry) (x : List ResolvedMember × Registry) : Prop :=
  r.Yields (x.1.map fun m => m.field.type) x.2

theorem YieldsMembers.append {ms ms' : List ResolvedMember} {r' r'' : Registry}
    (h : YieldsMembers r (ms, r')) (h' : YieldsMembers r' (ms', r'')) :
    YieldsMembers r (ms ++ ms', r'') := by
  refine ⟨h.grows.trans h'.grows, h'.ready, ?_⟩
  rw [List.map_append, List.forall_mem_append]
  exact ⟨fun t ht => h'.grows.isRegistered (h.registered t ht), h'.registered⟩

/-- Members of one type have been worked out if the type has been. -/
theorem YieldsMembers.of_type {t : TypeId} {r' : Registry} (h : r.Yields [t] r')
    {ms : List ResolvedMember} (hms : ∀ m ∈ ms, m.field.type = t) : YieldsMembers r (ms, r') := by
  refine ⟨h.grows, h.ready, List.forall_mem_map.mpr fun m hm => ?_⟩
  rw [hms m hm]
  exact h.type

theorem yields_resolveMembers (owner : String) (ms : List Member) {r : Registry} (hr : r.IsReady) :
    YieldsMembers r (d.resolveMembers c owner r ms) := by
  induction ms generalizing r with
  | nil => exact .here hr (List.forall_mem_nil _)
  | cons m ms ih =>
      have hnone : YieldsMembers r ([], r) := .here hr (List.forall_mem_nil _)
      -- A member that has a name has the type that is written.
      have hnamed : ∀ {t : TypeId} {r' : Registry} (name : Option String) (isMethod : Bool),
          r.Yields [t] r' → YieldsMembers r
            ((name.map fun n => (⟨c.home, owner, ⟨n, t⟩, isMethod⟩ : ResolvedMember)).toList, r') := by
        intro t r' name isMethod h
        refine .of_type h fun m hm => ?_
        rw [Option.mem_toList, Option.map_eq_some_iff] at hm
        rcases hm with ⟨_, _, rfl⟩
        rfl
      cases m with
      | field isStatic type declarators =>
          have htype := yields_resolve (d := d) (c := c) hr type
          refine YieldsMembers.append (.of_type htype fun m hm => ?_) (ih htype.ready)
          rcases List.mem_filterMap.mp hm with ⟨⟨span, name, init⟩, _, hname⟩
          rcases Option.map_eq_some_iff.mp hname with ⟨_, _, rfl⟩
          rfl
      | property isStatic type name accessors value =>
          have htype := yields_resolve (d := d) (c := c) hr type
          exact (hnamed name false htype).append (ih htype.ready)
      | method isStatic type name params body =>
          have htyped : ∀ {t : TypeId} {r' : Registry}, r.Yields [t] r' →
              YieldsMembers r (((name.map fun n =>
                (⟨c.home, owner, ⟨n, t⟩, true⟩ : ResolvedMember)).toList
                  ++ (d.resolveMembers c owner r' ms).1), (d.resolveMembers c owner r' ms).2) :=
            fun h => (hnamed name true h).append (ih h.ready)
          have hwritten := fun type => htyped (yields_resolve (d := d) (c := c) hr type)
          cases type with
          | missing => exact htyped (.one hr (hr.fixed (by decide)))
          | predefined keyword => exact hwritten (.predefined keyword)
          | named segments args => exact hwritten (.named segments args)
          | array element => exact hwritten (.array element)
          | nullable inner => exact hwritten (.nullable inner)
      | constructor name params body => exact hnone.append (ih hr)
      | type decl => exact hnone.append (ih hr)

theorem yields_resolveTypes (decls : List (TypeDecl × NameContext)) {r : Registry} (hr : r.IsReady) :
    YieldsMembers r (d.resolveTypes r decls) := by
  induction decls generalizing r with
  | nil => exact .here hr (List.forall_mem_nil _)
  | cons decl decls ih =>
      rcases decl with ⟨decl, c⟩
      rw [resolveTypes]
      split
      · exact ih hr
      · next name _ =>
          have hmembers := yields_resolveMembers (d := d) (c := c) name decl.members hr
          exact hmembers.append (ih hmembers.ready)

/-- What holds of the members of declared types holds of them still when one type is changed. -/
theorem all_modify (h : d.All P) (home : Namespace) (name : String)
    {f : DeclaredType → DeclaredType} (hf : ∀ decl, P decl.members decl.methods →
      P (f decl).members (f decl).methods) : (d.modify home name f).All P := by
  refine List.forall_mem_map.mpr fun decl hdecl => ?_
  split
  · exact hf decl (h decl hdecl)
  · exact h decl hdecl

theorem all_declare (h : d.All P) (hnil : P [] []) (decl : TypeDecl) (home : Namespace) :
    (d.declare decl home).All P := by
  rw [declare]
  split
  · exact h
  · dsimp only
    split
    · exact all_modify (d := d.addNamespace home) h home _ fun _ hdecl => hdecl
    · exact List.forall_mem_append.mpr ⟨h, List.forall_mem_singleton.mpr hnil⟩

theorem all_addMember (h : d.All P) {m : ResolvedMember}
    (hmember : ∀ members methods, P members methods → P (addField members m.field) methods)
    (hmethod : ∀ members methods, P members methods → P members (addField methods m.field)) :
    (d.addMember m).All P := by
  refine all_modify h m.home m.owner fun decl hdecl => ?_
  split
  · exact hmethod _ _ hdecl
  · exact hmember _ _ hdecl

/-- What holds of the members of a type without any, and is kept when a member is added that has
    been worked out, holds of the members of all types of a file. -/
theorem all_collect (file : SourceFile) {r : Registry} (hr : r.IsReady) (hnil : P [] [])
    (hmember : ∀ f members methods, (collect file r).2.IsRegistered f.type →
      P members methods → P (addField members f) methods ∧ P members (addField methods f)) :
    (collect file r).1.All P := by
  have hworked := yields_resolveTypes (d := (typesInContext file).foldl
    (fun d x => d.declare x.1 x.2.home) empty) (typesInContext file) hr
  have hadd : ∀ m ∈ (resolveTypes ((typesInContext file).foldl (fun d x => d.declare x.1 x.2.home)
      empty) r (typesInContext file)).1, ∀ members methods, P members methods →
        P (addField members m.field) methods ∧ P members (addField methods m.field) :=
    fun m hm members methods =>
      hmember m.field members methods (hworked.registered _ (List.mem_map_of_mem hm))
  -- Declarations bring no members.
  have hdeclared : All ((typesInContext file).foldl (fun d x => d.declare x.1 x.2.home) empty) P :=
    List.foldlRecOn (motive := fun d => All d P) _ _ (List.forall_mem_nil _)
      fun _ hd x _ => all_declare hd hnil x.1 x.2.home
  exact List.foldlRecOn (motive := fun d => All d P) _ addMember hdeclared fun _ hd m hm =>
    all_addMember hd (fun _ _ h => (hadd m hm _ _ h).1) fun _ _ h => (hadd m hm _ _ h).2

/-- The types of declared members are registered once they have been collected. -/
theorem isRegistered_collect (file : SourceFile) {r : Registry} (hr : r.IsReady) :
    (collect file r).2.IsReady ∧ (collect file r).1.IsRegistered (collect file r).2 := by
  have hadd : ∀ {f : Field} {fields : List Field}, (collect file r).2.IsRegistered f.type →
      (∀ g ∈ fields, (collect file r).2.IsRegistered g.type) →
      ∀ g ∈ addField fields f, (collect file r).2.IsRegistered g.type := by
    intro f fields hf hfields
    rw [addField]
    split
    · exact hfields
    · exact List.forall_mem_append.mpr ⟨hfields, List.forall_mem_singleton.mpr hf⟩
  refine ⟨(yields_resolveTypes _ hr).ready, all_collect file hr (List.forall_mem_nil _) ?_⟩
  intro f members methods hf hfields
  rw [List.forall_mem_append] at hfields
  exact ⟨List.forall_mem_append.mpr ⟨hadd hf hfields.1, hfields.2⟩,
    List.forall_mem_append.mpr ⟨hfields.1, hadd hf hfields.2⟩⟩

/-- No two fields or properties of a declared type have the same name. -/
theorem nodup_collect (file : SourceFile) {r : Registry} (hr : r.IsReady) :
    (collect file r).1.All fun members _ => (members.map Field.name).Nodup := by
  refine all_collect file hr List.nodup_nil fun f members _ _ h => ⟨?_, h⟩
  rw [addField]
  split
  · exact h
  · next hnew =>
      rw [List.map_append, List.map_singleton, List.nodup_append]
      refine ⟨h, List.nodup_singleton _, fun name hname other hother heq => hnew ?_⟩
      rcases List.mem_map.mp hname with ⟨g, hg, rfl⟩
      rw [List.any_eq_true]
      exact ⟨g, hg, beq_iff_eq.mpr (heq.trans (List.mem_singleton.mp hother))⟩

variable {t owner : TypeId} {name : String}

theorem mem_table_of_ofType? {decl : DeclaredType} (h : d.ofType? r t = some decl) :
    decl ∈ d.table := by
  rw [ofType?] at h
  split at h
  · exact List.mem_of_find?_eq_some h
  · cases h

/-- The type of a member that is asked for is registered. -/
theorem isRegistered_member? (h : d.IsRegistered r) (ht : d.member? r owner name = some t) :
    r.IsRegistered t := by
  rw [member?, Option.bind_eq_some_iff] at ht
  rcases ht with ⟨decl, hdecl, ht⟩
  rcases Option.map_eq_some_iff.mp ht with ⟨f, hf, rfl⟩
  refine h decl ?_ f (List.mem_append_left _ (List.mem_of_find?_eq_some hf))
  exact mem_table_of_ofType? hdecl

theorem isRegistered_method? (h : d.IsRegistered r) (ht : d.method? r owner name = some t) :
    r.IsRegistered t := by
  rw [method?, Option.bind_eq_some_iff] at ht
  rcases ht with ⟨decl, hdecl, ht⟩
  rcases Option.map_eq_some_iff.mp ht with ⟨f, hf, rfl⟩
  refine h decl ?_ f (List.mem_append_right _ (List.mem_of_find?_eq_some hf))
  exact mem_table_of_ofType? hdecl

end DeclaredTypes

/-! ### Types that the library tells -/

namespace Derived

/-- The types that a derived type is built of, or the type itself if it is known. -/
def parts : Derived → List TypeId
  | known t => [t]
  | shaped s => s.parts

/-- A type that the library tells may be asked for. -/
theorem yields_intern {r : Registry} (hr : r.IsReady) {d : Derived} (hlibrary : d.IsOfLibrary)
    (hparts : ∀ t ∈ d.parts, r.IsRegistered t) : r.Yields [(d.intern r).1] (d.intern r).2 := by
  cases d with
  | known t => exact .here hr hparts
  | shaped s =>
      cases s with
      | named home name args => exact Registry.yields_answer hr (.named home name args) hparts
      | array element => exact Registry.yields_answer hr (.array element) hparts
      | _ => exact hlibrary.elim

end Derived

namespace Catalogue

variable {r : Registry} {owner t : TypeId} {member : String} {d : Derived}

/-- The parts of what is told of a registered type are registered. -/
theorem isRegistered_find? {entries : List Entry} (hr : r.IsReady) (howner : r.IsRegistered owner)
    (hd : find? entries r owner member = some d) : ∀ t ∈ d.parts, r.IsRegistered t := by
  rw [find?] at hd
  split at hd
  · next home name args hshape =>
      split at hd
      · next e _ =>
          cases hresult : e.result with
          | owner =>
              rw [hresult] at hd
              cases hd
              exact List.forall_mem_singleton.mpr howner
          | primitive p =>
              rw [hresult] at hd
              cases hd
              exact List.forall_mem_singleton.mpr (hr.primitive p)
          | void =>
              rw [hresult] at hd
              cases hd
              exact List.forall_mem_singleton.mpr (hr.fixed (by decide))
          | basic name =>
              rw [hresult] at hd
              cases hd
              exact List.forall_mem_nil _
          | enumerates arg =>
              rw [hresult, Result.derive?, Option.map_eq_some_iff] at hd
              rcases hd with ⟨element, helement, rfl⟩
              exact List.forall_mem_singleton.mpr (hr.part hshape (List.mem_of_getElem? helement))
      · cases hd
  · cases hd

theorem isRegistered_instanceMember? (hr : r.IsReady) (howner : r.IsRegistered owner)
    (hd : instanceMember? r owner member = some d) : ∀ t ∈ d.parts, r.IsRegistered t := by
  have hint := List.forall_mem_singleton.mpr (hr.primitive .int)
  rw [instanceMember?] at hd
  split at hd
  · split at hd
    · cases hd
      exact hint
    · cases hd
  · split at hd
    · cases hd
      exact hint
    · cases hd
  · exact isRegistered_find? hr howner hd

theorem isRegistered_staticMember? (hr : r.IsReady) (howner : r.IsRegistered owner)
    (hd : staticMember? r owner member = some d) : ∀ t ∈ d.parts, r.IsRegistered t := by
  rw [staticMember?] at hd
  split at hd
  · split at hd
    · cases hd
      exact List.forall_mem_singleton.mpr howner
    · cases hd
  · exact isRegistered_find? hr howner hd

theorem isRegistered_staticMethod? (hr : r.IsReady) (howner : r.IsRegistered owner)
    (hd : staticMethod? r owner member = some d) : ∀ t ∈ d.parts, r.IsRegistered t := by
  rw [staticMethod?] at hd
  split at hd
  · split at hd
    · cases hd
      exact List.forall_mem_singleton.mpr howner
    · cases hd
  · exact isRegistered_find? hr howner hd

/-- What a registered type enumerates is registered. -/
theorem isRegistered_elementType? (hr : r.IsReady) (ht : elementType? r owner = some t) :
    r.IsRegistered t := by
  rw [elementType?] at ht
  split at ht
  · next hshape =>
      cases ht
      exact hr.part hshape (List.mem_singleton_self _)
  · cases ht
    exact hr.primitive .char
  · next hshape =>
      split at ht
      · cases ht
        exact hr.part hshape (List.mem_singleton_self _)
      · cases ht
  · cases ht

theorem isRegistered_indexed? (hr : r.IsReady) (ht : indexed? r owner = some t) :
    r.IsRegistered t := by
  rw [indexed?] at ht
  split at ht
  · next hshape =>
      split at ht
      · exact hr.part hshape (List.mem_of_getElem? ht)
      · split at ht
        · cases ht
        · exact isRegistered_elementType? hr ht
  · exact isRegistered_elementType? hr ht

/-- The type of a query is built of what is enumerated and of what the function gives. -/
theorem isRegistered_query? (hr : r.IsReady) {element : TypeId} (helement : r.IsRegistered element)
    {projected : Option TypeId} (hprojected : ∀ t, projected = some t → r.IsRegistered t)
    (hd : query? member element projected = some d) : ∀ t ∈ d.parts, r.IsRegistered t := by
  rw [query?] at hd
  split at hd
  · rcases Option.map_eq_some_iff.mp hd with ⟨t, ht, rfl⟩
    exact List.forall_mem_singleton.mpr (hprojected t ht)
  · repeat' split at hd
    all_goals cases hd
    all_goals first
      | exact List.forall_mem_singleton.mpr helement
      | exact List.forall_mem_singleton.mpr (hr.primitive _)

theorem isRegistered_instanceMethod? (hr : r.IsReady) (howner : r.IsRegistered owner)
    (hd : instanceMethod? r owner member = some d) : ∀ t ∈ d.parts, r.IsRegistered t := by
  rw [instanceMethod?] at hd
  split at hd
  · cases hd
    exact List.forall_mem_singleton.mpr (hr.primitive _)
  · split at hd
    · next derived hquery =>
        cases hd
        rw [plainQuery?] at hquery
        split at hquery
        · cases hquery
        · rcases Option.bind_eq_some_iff.mp hquery with ⟨element, helement, hquery⟩
          exact isRegistered_query? hr (isRegistered_elementType? hr helement)
            (fun _ hnone => by cases hnone) hquery
    · split at hd
      · rcases Option.map_eq_some_iff.mp hd with ⟨m, _, rfl⟩
        exact List.forall_mem_singleton.mpr (hr.primitive _)
      · exact isRegistered_find? hr howner hd

end Catalogue

end Types

namespace Typing

open Nominal.Types (TypeId Registry)

variable {r : Registry} {a b : TypeId}

/-! ### Types of operations -/

theorem isRegistered_literalType (hr : r.IsReady) (token : Option Syntax.Lexeme) :
    r.IsRegistered (literalType token) := by
  rw [literalType.eq_def]
  split
  · exact hr.unknown
  · split
    · exact hr.unknown
    · exact hr.fixed (by decide)
    all_goals exact hr.primitive _

theorem isRegistered_coalescedType (hr : r.IsReady) (ha : r.IsRegistered a)
    (hb : r.IsRegistered b) : r.IsRegistered (coalescedType r a b) := by
  rw [coalescedType]
  split
  · exact ha
  · next hshape _ => exact hr.part hshape (List.mem_singleton_self _)
  · exact hb
  · exact ha

theorem isRegistered_arithmeticType (hr : r.IsReady) : r.IsRegistered (arithmeticType r a b) := by
  rw [arithmeticType]
  split
  · split
    · exact hr.primitive _
    · exact hr.unknown
  · exact hr.unknown

theorem isRegistered_binaryType (hr : r.IsReady) (op : Option Syntax.Lexeme) (ha : r.IsRegistered a)
    (hb : r.IsRegistered b) : r.IsRegistered (binaryType r op a b) := by
  have harithmetic := isRegistered_arithmeticType (a := a) (b := b) hr
  rw [binaryType]
  split
  · exact hr.unknown
  all_goals first
    | exact hr.primitive .bool
    | exact isRegistered_coalescedType hr ha hb
    | exact harithmetic
    | (split; exacts [hr.primitive .string, harithmetic])

theorem isRegistered_unaryType (hr : r.IsReady) (op : Option Syntax.Lexeme) (ha : r.IsRegistered a) :
    r.IsRegistered (unaryType op a) := by
  rw [unaryType]
  split
  · exact hr.primitive .bool
  · exact ha

end Typing

end Nominal
