import Mathlib.Data.List.Nodup
import Nominal.Types.Declared

/-!
# Registering Types

Registered types are never changed and never taken away, so whatever is done with types can
only make a registry longer. The number of a type keeps its meaning, then: what is known of
a type once is known of it for good.

## Main definitions

* `Registry.Grows`: A registry that a registry may become.
* `Registry.IsSound`: The first type is the unknown one.
* `Derived.IsOfLibrary`: A type is known, an array, or one of the library.

## Theorems

* `Registry.shape?_intern`: A registered shape is the shape of its number.
* `DeclaredTypes.grows_resolve`: Finding what a written type means only registers types.
* `DeclaredTypes.kept_resolveTypes`: What finding types keeps is kept when the types of all members
  are found.
* `DeclaredTypes.grows_collect`: Collecting the types of a file only registers types, too.
-/

namespace Nominal

namespace Types

namespace Registry

/-- A registry becomes another one by registering shapes. -/
inductive Grows : Registry → Registry → Prop
  | refl (r : Registry) : Grows r r
  | step {r r' : Registry} (h : Grows r r') (s : Shape) : Grows r (r'.intern s).2

/-- The unknown type is registered under its number. -/
def IsSound (r : Registry) : Prop := r.shape? .unknown = some .unknown

variable {r r' r'' : Registry}

theorem Grows.trans (h : Grows r r') (h' : Grows r' r'') : Grows r r'' := by
  induction h' with
  | refl => exact h
  | step _ s ih => exact ih.step s

/-- What each registration keeps is kept by all of them. -/
theorem Grows.kept {R : Registry → Prop} (hintern : ∀ r s, R r → R (r.intern s).2)
    (h : Grows r r') (hr : R r) : R r' := by
  induction h with
  | refl => exact hr
  | step _ s ih => exact hintern _ s ih

/-- A shape that has no number is in no place. -/
theorem notMem_of_lookup?_eq_none {s : Shape} (h : r.lookup? s = none) : s ∉ r.shapes := by
  rw [lookup?, Option.map_eq_none_iff, List.findIdx?_eq_none_iff] at h
  intro hmem
  have hne := h s hmem
  rw [beq_self_eq_true] at hne
  cases hne

theorem shape?_of_intern {s shape : Shape} {t : TypeId} (h : r.shape? t = some shape) :
    (r.intern s).2.shape? t = some shape := by
  rw [Registry.intern]
  split
  · exact h
  · rw [Registry.shape?, List.getElem?_eq_some_iff] at h
    rcases h with ⟨hlt, hat⟩
    rw [Registry.shape?, List.getElem?_append_left hlt, List.getElem?_eq_getElem hlt, hat]

/-- No shape is registered twice. -/
theorem nodup_intern {s : Shape} (h : r.shapes.Nodup) : (r.intern s).2.shapes.Nodup := by
  rw [Registry.intern]
  split
  · exact h
  · next hnone =>
      refine List.nodup_append.mpr ⟨h, List.nodup_singleton s, fun a ha b hb => ?_⟩
      rw [List.mem_singleton.mp hb]
      exact fun heq => notMem_of_lookup?_eq_none hnone (heq ▸ ha)

/-- A registered type keeps its shape. -/
theorem Grows.shape? (h : Grows r r') {t : TypeId} {shape : Shape}
    (hshape : r.shape? t = some shape) : r'.shape? t = some shape :=
  h.kept (R := fun r => r.shape? t = some shape) (fun _ _ => shape?_of_intern) hshape

theorem Grows.nodup (h : Grows r r') (hr : r.shapes.Nodup) : r'.shapes.Nodup :=
  h.kept (R := fun r => r.shapes.Nodup) (fun _ _ => nodup_intern) hr

theorem Grows.isSound (h : Grows r r') (hsound : r.IsSound) : r'.IsSound := h.shape? hsound

theorem isSound_initial : initial.IsSound := rfl

theorem grows_intern (r : Registry) (s : Shape) : Grows r (r.intern s).2 := .step (.refl r) s

/-- A registered shape is the shape of its number. -/
theorem shape?_intern (r : Registry) (s : Shape) :
    (r.intern s).2.shape? (r.intern s).1 = some s := by
  rw [intern]
  split
  · next t ht =>
      rw [lookup?, Option.map_eq_some_iff] at ht
      rcases ht with ⟨i, hi, rfl⟩
      rw [List.findIdx?_eq_some_iff_getElem] at hi
      rcases hi with ⟨hlt, hat, _⟩
      rw [shape?, List.getElem?_eq_getElem hlt, eq_of_beq hat]
  · rw [shape?, List.getElem?_append_right (Nat.le_refl _), Nat.sub_self]
    rfl

theorem grows_internNullable (r : Registry) (t : TypeId) : Grows r (r.internNullable t).2 := by
  rw [internNullable]
  split
  · exact .refl r
  · exact grows_intern r _

end Registry

theorem Derived.grows_intern (r : Registry) (d : Derived) : r.Grows (d.intern r).2 := by
  cases d with
  | known t => exact .refl r
  | shaped s => exact r.grows_intern s

/-! ### Types of the library -/

/-- A type is known, or it is an array or has a name that the library has. -/
def Derived.IsOfLibrary : Derived → Prop
  | .known _ => True
  | .shaped (.array _) => True
  | .shaped (.named home name args) => Catalogue.has home name args.length = true
  | .shaped _ => False

namespace Catalogue

/-- A result is one of a type of the library. -/
def Result.IsOfLibrary : Result → Prop
  | .basic name => Catalogue.has system name 0 = true
  | _ => True

instance : DecidablePred Result.IsOfLibrary := fun r => by
  cases r <;> unfold Result.IsOfLibrary <;> infer_instance

variable {r : Registry} {owner : TypeId} {member : String} {d : Derived}

theorem isOfLibrary_find? {entries : List Entry} (h : ∀ e ∈ entries, e.result.IsOfLibrary)
    (hd : find? entries r owner member = some d) : d.IsOfLibrary := by
  rw [find?] at hd
  split at hd
  · split at hd
    · next e he =>
        have hresult := h e (List.mem_of_find?_eq_some he)
        cases hkind : e.result with
        | enumerates arg =>
            rw [hkind, Result.derive?, Option.map_eq_some_iff] at hd
            rcases hd with ⟨element, _, rfl⟩
            exact rfl
        | basic name =>
            rw [hkind] at hd hresult
            cases hd
            exact hresult
        | owner | primitive | void =>
            rw [hkind] at hd
            cases hd
            trivial
    · cases hd
  · cases hd

theorem isOfLibrary_instanceMember? (h : instanceMember? r owner member = some d) :
    d.IsOfLibrary := by
  rw [instanceMember?] at h
  split at h
  · split at h
    · cases h
      trivial
    · cases h
  · split at h
    · cases h
      trivial
    · cases h
  · exact isOfLibrary_find? (by decide) h

theorem isOfLibrary_staticMember? (h : staticMember? r owner member = some d) :
    d.IsOfLibrary := by
  rw [staticMember?] at h
  split at h
  · split at h
    · cases h
      trivial
    · cases h
  · exact isOfLibrary_find? (by decide) h

theorem isOfLibrary_staticMethod? (h : staticMethod? r owner member = some d) :
    d.IsOfLibrary := by
  rw [staticMethod?] at h
  split at h
  · split at h
    · cases h
      trivial
    · cases h
  · exact isOfLibrary_find? (by decide) h

theorem isOfLibrary_query? {element : TypeId} {projected : Option TypeId}
    (h : query? member element projected = some d) : d.IsOfLibrary := by
  have henumerable : ∀ t, (enumerableOf t).IsOfLibrary := fun _ => rfl
  rw [query?] at h
  split at h
  · rcases Option.map_eq_some_iff.mp h with ⟨t, _, rfl⟩
    exact henumerable t
  · repeat' split at h
    all_goals cases h
    all_goals trivial

theorem isOfLibrary_instanceMethod? (h : instanceMethod? r owner member = some d) :
    d.IsOfLibrary := by
  rw [instanceMethod?] at h
  split at h
  · cases h
    trivial
  · split at h
    · next derived hquery =>
        cases h
        rw [plainQuery?] at hquery
        split at hquery
        · cases hquery
        · rcases Option.bind_eq_some_iff.mp hquery with ⟨element, _, hquery⟩
          exact isOfLibrary_query? hquery
    · split at h
      · rcases Option.map_eq_some_iff.mp h with ⟨m, _, rfl⟩
        trivial
      · exact isOfLibrary_find? (by decide) h

end Catalogue

namespace DeclaredTypes

open Program (TypeRef Member SourceFile)

variable (d : DeclaredTypes) (c : NameContext)

theorem grows_resolvePath (r : Registry) (segments : List String) (args : List TypeId) :
    r.Grows (d.resolvePath c r segments args).2 := by
  rw [resolvePath]
  split
  · exact .refl r
  · split
    · exact r.grows_intern _
    · exact .refl r

mutual

/-- Finding what a written type means only registers types. -/
theorem grows_resolve (r : Registry) (type : TypeRef) : r.Grows (d.resolve c r type).2 := by
  cases type with
  | missing => exact .refl r
  | predefined keyword =>
      rw [resolve]
      split
      · exact .refl r
      · exact .refl r
  | named segments args =>
      cases args with
      | none => exact grows_resolvePath d c r segments []
      | some args => exact (grows_resolveAll r args).trans (grows_resolvePath d c _ segments _)
  | array element =>
      have helement := grows_resolve r element
      simp only [resolve]
      split
      · exact helement
      · exact helement.trans (Registry.grows_intern _ _)
  | nullable inner =>
      have hinner := grows_resolve r inner
      simp only [resolve]
      split
      · exact hinner
      · exact hinner.trans (Registry.grows_internNullable _ _)

theorem grows_resolveAll (r : Registry) (types : List TypeRef) :
    r.Grows (d.resolveAll c r types).2 := by
  cases types with
  | nil => exact .refl r
  | cons type types => exact (grows_resolve r type).trans (grows_resolveAll _ types)

end

/-- What finding types keeps of a registry, working out the members of a declaration keeps. -/
theorem kept_resolveMembers {R : Registry → Prop} (h : ∀ c r type, R r → R (d.resolve c r type).2)
    (c : NameContext) (owner : String) {r : Registry} (hr : R r) (ms : List Member) :
    R (d.resolveMembers c owner r ms).2 := by
  induction ms generalizing r with
  | nil => exact hr
  | cons m ms ih =>
      cases m with
      | field isStatic type declarators => exact ih (h c r type hr)
      | property isStatic type name accessors value => exact ih (h c r type hr)
      | method isStatic type name params body =>
          -- A method without a type returns nothing, and then there is nothing to find.
          cases type with
          | missing => exact ih hr
          | predefined keyword => exact ih (h c r (.predefined keyword) hr)
          | named segments args => exact ih (h c r (.named segments args) hr)
          | array element => exact ih (h c r (.array element) hr)
          | nullable inner => exact ih (h c r (.nullable inner) hr)
      | constructor name params body => exact ih hr
      | type decl => exact ih hr

theorem kept_resolveTypes {R : Registry → Prop} (h : ∀ c r type, R r → R (d.resolve c r type).2)
    {r : Registry} (hr : R r) (decls : List (Program.TypeDecl × NameContext)) :
    R (d.resolveTypes r decls).2 := by
  induction decls generalizing r with
  | nil => exact hr
  | cons decl decls ih =>
      rcases decl with ⟨decl, c⟩
      rw [resolveTypes]
      split
      · exact ih hr
      · exact ih (kept_resolveMembers d h c _ hr decl.members)

/-- Collecting the types of a file only registers types. -/
theorem grows_collect (file : SourceFile) (r : Registry) : r.Grows (collect file r).2 :=
  kept_resolveTypes _ (fun c r' type hgrows => hgrows.trans (grows_resolve _ c r' type)) (.refl r) _

end DeclaredTypes

end Types

end Nominal
