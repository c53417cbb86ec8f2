import Nominal.Proofs.Typed.Known
import Nominal.Proofs.Written.Parsed

/-!
# Registered Types Can Be Written

There is a type of every name that is registered. If the names that a program declares are words,
in namespaces of words, then so are all of them, because the library has words for names as well.
So a type that is written for a member of a class can be read back.

## Main definitions

* `Shape.IsSpelt`, `Registry.IsSpelt`: Names are words, and nullable types are not made nullable.
* `IsDeclarable`: A declaration with a name that is a word, in a namespace of words.

## Theorems

* `DeclaredTypes.spelt_collect`: The types of a file are declared with words.
* `Registry.IsKnown.isSpelt`: Known types have words for names if declared types have.
* `Registry.IsSpelt.isWritable`: A type that can be written can be read back.
-/

namespace Nominal

open Syntax (IsName IsTokenOf)
open Program (TypeRef TypeDecl SourceFile)

namespace Types

/-! ### Shapes and registries -/

/-- The name of a type and those around it are words. -/
structure IsNamed (home : Namespace) (name : String) : Prop where
  home : ∀ s ∈ home, IsName s
  name : IsName name

/-- Names are words, and what is made nullable is registered and not nullable. -/
def Shape.IsSpelt (r : Registry) : Shape → Prop
  | .named home name _ => IsNamed home name
  | .nullable inner => ∃ shape, r.shape? inner = some shape ∧ ∀ t, shape ≠ .nullable t
  | _ => True

/-- All registered types are such. -/
structure Registry.IsSpelt (r : Registry) : Prop where
  grown : Registry.initial.Grows r
  spelt : ∀ shape ∈ r.shapes, shape.IsSpelt r

theorem Registry.IsSpelt.of_shape? {r : Registry} (h : r.IsSpelt) {t : TypeId} {shape : Shape}
    (hshape : r.shape? t = some shape) : shape.IsSpelt r :=
  h.spelt shape (List.mem_of_getElem? hshape)

/-- The names of the library are words. -/
theorem Catalogue.isNamed_of_has {home : Namespace} {name : String} {arity : Nat}
    (h : Catalogue.has home name arity = true) : IsNamed home name := by
  have hall : ∀ t ∈ Catalogue.types, (∀ s ∈ t.home, IsTokenOf .id s) ∧ IsTokenOf .id t.name := by
    decide +kernel
  rcases hall _ (List.contains_iff_mem.mp h) with ⟨hhome, hname⟩
  exact ⟨fun s hs => (hhome s hs).isName, hname.isName⟩

namespace DeclaredTypes

/-- The names of declared types are words. -/
def IsSpelt (d : DeclaredTypes) : Prop := ∀ t ∈ d.table, IsNamed t.home t.name

variable {d : DeclaredTypes}

theorem IsSpelt.isNamed_of_mem_keys (hd : d.IsSpelt) {key : Namespace × String} (h : key ∈ d.keys) :
    IsNamed key.1 key.2 := by
  rcases List.mem_map.mp h with ⟨t, ht, rfl⟩
  exact hd t ht

theorem isSpelt_iff : d.IsSpelt ↔ ∀ key ∈ d.keys, IsNamed key.1 key.2 :=
  ⟨fun hd _ => hd.isNamed_of_mem_keys, fun h _ ht => h _ (List.mem_map_of_mem ht)⟩

theorem isNamed_of_hasType (hd : d.IsSpelt) {home : Namespace} {name : String} {arity : Nat}
    (h : d.hasType home name arity = true) : IsNamed home name := by
  rcases hasType_iff.mp h with ⟨_, hkey⟩ | hlibrary
  · exact hd.isNamed_of_mem_keys hkey
  · exact Catalogue.isNamed_of_has hlibrary

end DeclaredTypes

/-- Known types have words for names if declared types have. -/
theorem Registry.IsKnown.isSpelt {r : Registry} {d : DeclaredTypes} (h : r.IsKnown d)
    (hd : d.IsSpelt) : r.IsSpelt := by
  refine ⟨h.grown, fun shape hshape => ?_⟩
  have hknown := h.known shape hshape
  cases shape with
  | named home name args => exact DeclaredTypes.isNamed_of_hasType hd hknown
  | nullable inner => exact hknown
  | _ => trivial

/-! ### Collecting types -/

/-- A declaration that has a name, if at all, that is a word, in a namespace of words. -/
def IsDeclarable (x : TypeDecl × NameContext) : Prop :=
  ∀ name, x.1.name = some name → IsNamed x.2.home name

namespace DeclaredTypes

theorem IsSpelt.foldl_declare {decls : List (TypeDecl × NameContext)} :
    ∀ {d : DeclaredTypes}, d.IsSpelt → (∀ x ∈ decls, IsDeclarable x) →
      (decls.foldl (fun d x => d.declare x.1 x.2.home) d).IsSpelt := by
  induction decls with
  | nil => exact fun hd _ => hd
  | cons x decls ih =>
      intro d hd hdecls
      rw [List.forall_mem_cons] at hdecls
      refine ih (isSpelt_iff.mpr fun key hkey => ?_) hdecls.2
      rcases mem_keys_declare.mp hkey with hkey | ⟨name, hname, rfl⟩
      · exact hd.isNamed_of_mem_keys hkey
      · exact hdecls.1 name hname

/-- The types of a file are declared with words if its declarations are. -/
theorem spelt_collect {file : SourceFile} (hfile : ∀ x ∈ typesInContext file, IsDeclarable x)
    (r : Registry) : (collect file r).1.IsSpelt := by
  have hkeys : (collect file r).1.keys
      = ((typesInContext file).foldl (fun d x => d.declare x.1 x.2.home) empty).keys :=
    keys_foldl_addMember _ _
  have hempty : empty.IsSpelt := List.forall_mem_nil _
  rw [isSpelt_iff, hkeys, ← isSpelt_iff]
  exact hempty.foldl_declare hfile

end DeclaredTypes

end Types

/-- The types that are registered for a tree, if what its program declares can be. -/
theorem Model.spelt_ofTree {t : Syntax.Tree}
    (h : ∀ x ∈ Types.typesInContext (SourceFile.ofTree t), Types.IsDeclarable x) :
    (Model.ofTree t).1.registry.IsSpelt :=
  (Model.known_ofTree t).isSpelt (Types.DeclaredTypes.spelt_collect h Types.Registry.initial)

/-! ### Spelling -/

/-- Each result is of some element. -/
theorem forall₂_of_mapM {α β : Type} {f : α → Option β} {xs : List α} {ys : List β}
    (h : xs.mapM f = some ys) : List.Forall₂ (fun x y => f x = some y) xs ys := by
  induction xs generalizing ys with
  | nil =>
      cases h
      exact .nil
  | cons x xs ih =>
      rw [List.mapM_cons] at h
      rcases Option.bind_eq_some_iff.mp h with ⟨y, hy, h⟩
      rcases Option.bind_eq_some_iff.mp h with ⟨ys, hys, h⟩
      cases h
      exact .cons hy (ih hys)

theorem forall₂_right {α β : Type} {R : α → β → Prop} {xs : List α} {ys : List β}
    (h : List.Forall₂ R xs ys) {y : β} (hy : y ∈ ys) : ∃ x ∈ xs, R x y := by
  induction h with
  | nil => cases hy
  | cons hxy _ ih =>
      rcases List.mem_cons.mp hy with rfl | hy
      · exact ⟨_, List.mem_cons_self, hxy⟩
      · rcases ih hy with ⟨x, hx, hxy⟩
        exact ⟨x, List.mem_cons_of_mem _ hx, hxy⟩

namespace Types

/-- A path that is written for a type consists of words. -/
theorem isName_of_spellPath? {d : DeclaredTypes} {c : NameContext} {shadow : String}
    {home : Namespace} {name : String} {arity : Nat} {path : List String}
    (h : spellPath? d c shadow home name arity = some path) (hnamed : IsNamed home name) :
    path ≠ [] ∧ ∀ s ∈ path, IsName s := by
  have hsimple : [name] ≠ [] ∧ ∀ s ∈ [name], IsName s :=
    ⟨List.cons_ne_nil _ _, List.forall_mem_singleton.mpr hnamed.name⟩
  have hfull : home ++ [name] ≠ [] ∧ ∀ s ∈ home ++ [name], IsName s :=
    ⟨List.append_ne_nil_of_right_ne_nil _ (List.cons_ne_nil _ _),
      List.forall_mem_append.mpr ⟨hnamed.home, hsimple.2⟩⟩
  simp only [spellPath?] at h
  split at h
  · split at h
    · cases h
    · cases h
      exact hsimple
  · split at h
    · cases h
      exact hsimple
    · split at h
      · cases h
      · cases h
        exact hfull

section Spelling

variable {r : Registry} {d : DeclaredTypes} {c : NameContext} {shadow : String} {depth : Nat}
  {t : TypeId} {type : TypeRef}

/-- Only nullable types are written as such. -/
theorem kind_of_spellWithin? (h : spellWithin? r d c shadow depth t = some type)
    (honce : ∀ inner, r.shape? t ≠ some (.nullable inner)) : type.tree.kind ≠ .nullableType := by
  cases depth with
  | zero => cases h
  | succ depth =>
      rw [spellWithin?] at h
      split at h
      · cases h
        nofun
      · rcases Option.map_eq_some_iff.mp h with ⟨element, _, rfl⟩
        nofun
      · next inner hshape => exact absurd hshape (honce inner)
      · split at h
        · next args path _ _ =>
            cases h
            -- Without arguments there are no brackets.
            unfold TypeRef.path
            split <;> nofun
        · cases h
      · cases h

/-- A type that can be written can be read back. -/
theorem Registry.IsSpelt.isWritable (hr : r.IsSpelt)
    (h : spellWithin? r d c shadow depth t = some type) : type.IsWritable := by
  induction depth generalizing t type with
  | zero => cases h
  | succ depth ih =>
      rw [spellWithin?] at h
      split at h
      · next p _ =>
          cases h
          exact ⟨p.keyword, rfl, by cases p <;> decide⟩
      · rcases Option.map_eq_some_iff.mp h with ⟨element, helement, rfl⟩
        have hwritable : element.IsWritable := ih helement
        exact hwritable
      · next inner hshape =>
          rcases Option.map_eq_some_iff.mp h with ⟨type', hinner, rfl⟩
          rcases hr.of_shape? hshape with ⟨shape, hinnerShape, honce⟩
          refine ⟨ih hinner, kind_of_spellWithin? hinner fun t ht => ?_⟩
          rw [hinnerShape, Option.some.injEq] at ht
          exact honce t ht
      · next home name args hshape =>
          split at h
          · next types path htypes hpath =>
              cases h
              have hpath := isName_of_spellPath? hpath (hr.of_shape? hshape)
              have htypes : ∀ type ∈ types, type.IsWritable := by
                intro type htype
                rcases forall₂_right (forall₂_of_mapM htypes) htype with ⟨arg, _, harg⟩
                exact ih harg
              cases types with
              | nil => exact hpath
              | cons u us =>
                  exact ⟨hpath, List.cons_ne_nil u us, TypeRef.areWritable_of_forall htypes⟩
          · cases h
      · cases h

end Spelling

end Types

end Nominal
