import Nominal.Proofs.Extracted
import Nominal.Proofs.Interned
import Nominal.Proofs.Naming
import Nominal.Proofs.Typed.Spelt

/-!
# Written Types Are Understood

The type of a new member is written down by one routine and read back by another one, in the same
place, but with one more type declared there. Reading back gives the type again, whatever is written
for it, with one exception. A type without a namespace has no path, so it is always written by its
name alone; in a place where that name means something else it is written all the same. This is the
only way to be misunderstood: a type is read back as itself exactly when every type without a
namespace that it is built of is found by its name.

Two things make up for the new type. What is written by its name alone does not have the name of the
new type, unless it takes arguments, and the new type takes none. And a dotted name is looked up in
the namespace that it names, where the new type takes nothing away.

Nothing has to be registered to read a type back, so a registry that has grown in between will do.
That is what the arguments of a type are gone through with, one after the other.

## Main definitions

* `Registry.Contains`: What a type is built of, all the way down.
* `DeclaredTypes.Sees`: The types without a namespace in a type are found by their names.
* `Understands`: A written type is read back as the type that it was written for.

## Theorems

* `DeclaredTypes.hasType_declare`: Which types there are when one more is declared.
* `homeOfPath?_of_spellPath?`: Where a written path leads when one more type is declared.
* `understands_spellWithin?`: What is written for a type is understood.
* `ofTree_spellWithin?`: The node that is written for a type is read as what it was made of.
* `written_types_understood`: Types in the members of a new class keep their meaning.
-/

namespace Nominal

open Syntax (Tree Kind Location)
open Program (TypeRef TypeDecl Part)

namespace Types

/-! ### What types are built of -/

/-- What a type is built of, all the way down, and the type itself. -/
inductive Registry.Contains (r : Registry) : TypeId → TypeId → Prop
  | refl (t : TypeId) : r.Contains t t
  | part {t part u : TypeId} {s : Shape} : r.shape? t = some s → part ∈ s.parts →
    r.Contains part u → r.Contains t u

/-- Every type without a namespace that a type is built of is found by its name. -/
def DeclaredTypes.Sees (d : DeclaredTypes) (c : NameContext) (r : Registry) (t : TypeId) : Prop :=
  ∀ u name args, r.Contains t u → r.shape? u = some (.named Namespace.global name args) →
    d.homeOf? c name args.length = some Namespace.global

section Shapes

variable {d : DeclaredTypes} {c : NameContext} {r r' : Registry} {t u : TypeId} {s : Shape}

theorem Registry.contains_iff (hs : r.shape? t = some s) :
    r.Contains t u ↔ u = t ∨ ∃ part ∈ s.parts, r.Contains part u := by
  constructor
  · intro h
    cases h with
    | refl => exact .inl rfl
    | part hs' hpart hrest =>
        cases hs.symm.trans hs'
        exact .inr ⟨_, hpart, hrest⟩
  · rintro (rfl | ⟨part, hpart, hrest⟩)
    · exact .refl u
    · exact .part hs hpart hrest

/-- A type is seen if its own name is found and its parts are seen. -/
theorem DeclaredTypes.sees_iff (hs : r.shape? t = some s) :
    d.Sees c r t ↔ (∀ name args, s = .named Namespace.global name args →
      d.homeOf? c name args.length = some Namespace.global) ∧ ∀ part ∈ s.parts, d.Sees c r part := by
  constructor
  · refine fun h => ⟨?_, fun part hpart u name args hcontains => ?_⟩
    · rintro name args rfl
      exact h t name args (.refl t) hs
    · exact h u name args (.part hs hpart hcontains)
  · rintro ⟨hown, hparts⟩ u name args hcontains hu
    rcases (Registry.contains_iff hs).mp hcontains with rfl | ⟨part, hpart, hrest⟩
    · cases hs.symm.trans hu
      exact hown name args rfl
    · exact hparts part hpart u name args hrest hu

/-- What is registered under a number that was there before is the shape of that number. -/
theorem Registry.eq_of_intern_eq (hs : r.shape? t = some s) {s' : Shape}
    (h : (r.intern s').1 = t) : s' = s := by
  have hnew := r.shape?_intern s'
  rw [h, shape?_of_intern hs] at hnew
  exact (Option.some.inj hnew).symm

end Shapes

/-! ### One more type -/

section Declared

variable {d : DeclaredTypes} {c : NameContext} {decl : TypeDecl} {home ns : Namespace}
  {shadow name : String} {arity : Nat}

namespace DeclaredTypes

/-- There are the types that there were before, and the new one. -/
theorem hasType_declare : (d.declare decl home).hasType ns name arity = true ↔
    d.hasType ns name arity = true ∨ arity = 0 ∧ decl.name = some name ∧ ns = home := by
  have hkey : (∃ n, decl.name = some n ∧ (ns, name) = (home, n))
      ↔ decl.name = some name ∧ ns = home := by
    constructor
    · rintro ⟨n, hn, heq⟩
      cases heq
      exact ⟨hn, rfl⟩
    · rintro ⟨hname, rfl⟩
      exact ⟨name, hname, rfl⟩
  rw [hasType_iff, hasType_iff, mem_keys_declare, hkey, and_or_left, or_assoc, or_assoc,
    or_comm (b := Catalogue.has ns name arity = true)]

/-- Names of other types are found where they were. -/
theorem homeOf?_declare (hother : arity = 0 → decl.name ≠ some name) :
    (d.declare decl home).homeOf? c name arity = d.homeOf? c name arity := by
  have hsame : ∀ ns, (d.declare decl home).hasType ns name arity = d.hasType ns name arity := by
    intro ns
    rw [Bool.eq_iff_iff, hasType_declare]
    exact or_iff_left fun h => hother h.1 h.2.1
  simp only [homeOf?, onlyHome?, hsame]

end DeclaredTypes

/-- A written path ends in the name, and it leads to the namespace of the type, except that a type
    without a namespace has to be found by its name. -/
theorem homeOfPath?_of_spellPath? (ns : Namespace) {path : List String}
    (h : spellPath? d c shadow home name arity = some path)
    (hknown : d.hasType home name arity = true) (hdecl : decl.name = some shadow) :
    path.getLast? = some name
      ∧ ((d.declare decl ns).homeOfPath? c path.dropLast name arity = some home
        ↔ (home = Namespace.global → d.homeOf? c name arity = some Namespace.global)) := by
  have hother : (arity == 0 && name == shadow) = false → arity = 0 → decl.name ≠ some name := by
    rintro hshadow rfl heq
    cases hdecl.symm.trans heq
    rw [beq_self_eq_true, beq_self_eq_true] at hshadow
    cases hshadow
  have hsimple : ∀ ds : DeclaredTypes, ds.homeOfPath? c [name].dropLast name arity
      = ds.homeOf? c name arity := fun _ => rfl
  rw [spellPath?] at h
  split at h
  · next hglobal =>
      rw [List.isEmpty_iff] at hglobal
      subst hglobal
      split at h
      · cases h
      · next hshadow =>
          cases h
          rw [hsimple, DeclaredTypes.homeOf?_declare (hother (Bool.eq_false_iff.mpr hshadow))]
          exact ⟨rfl, fun h _ => h, fun h => h rfl⟩
  · next hglobal =>
      have hhome : home ≠ Namespace.global := fun heq => hglobal (List.isEmpty_iff.mpr heq)
      split at h
      · next hfound =>
          cases h
          rw [Bool.and_eq_true, Bool.not_eq_true', beq_iff_eq] at hfound
          rw [hsimple, DeclaredTypes.homeOf?_declare (hother hfound.1), hfound.2]
          exact ⟨rfl, fun _ heq => absurd heq hhome, fun _ => rfl⟩
      · split at h
        · cases h
        · cases h
          -- The path names the namespace, and the type is still there.
          have hqualifier : (home ++ [name]).dropLast = home := List.dropLast_concat
          have hthere : (d.declare decl ns).hasType home name arity = true :=
            DeclaredTypes.hasType_declare.mpr (.inl hknown)
          rw [hqualifier, DeclaredTypes.homeOfPath?, if_neg hglobal, if_pos hthere]
          exact ⟨List.getLast?_concat, fun _ heq => absurd heq hhome, fun _ => rfl⟩

end Declared

/-! ### Reading back -/

/-- Among some declared types, a written type is read back as the type that it was written for,
    without anything being registered, if and only if the type is seen among the types that were
    declared when it was written. -/
structure Understands (r : Registry) (d extended : DeclaredTypes) (c : NameContext) (t : TypeId)
    (type : TypeRef) : Prop where
  back : ∀ {r'}, r.Grows r' → d.Sees c r t → extended.resolve c r' type = (t, r')
  only : ∀ {r'}, r.Grows r' → (extended.resolve c r' type).1 = t → d.Sees c r t

section Reading

variable {r r' : Registry} {d extended : DeclaredTypes} {c : NameContext} {t : TypeId}

theorem DeclaredTypes.resolve_path (segments : List String) (args : List TypeRef) :
    d.resolve c r (.path segments args)
      = d.resolvePath c (d.resolveAll c r args).2 segments (d.resolveAll c r args).1 := by
  unfold TypeRef.path
  cases args with
  | nil => rfl
  | cons arg args => rfl

/-- Reading the name of a type back tells where it was found and with which arguments. -/
theorem DeclaredTypes.resolvePath_eq {segments : List String} {home : Namespace} {name : String}
    {types args : List TypeId} (hr : r.IsSound) (hlast : segments.getLast? = some name)
    (hs : r.shape? t = some (.named home name args)) (h : (d.resolvePath c r segments types).1 = t) :
    types = args ∧ d.homeOfPath? c segments.dropLast name args.length = some home := by
  rw [resolvePath, hlast] at h
  dsimp only at h
  split at h
  · next found hfound =>
      have hsame := Registry.eq_of_intern_eq hs h
      cases hsame
      exact ⟨rfl, hfound⟩
  · cases h
    cases hs.symm.trans hr

variable (hr : r.IsKnown d)

include hr

theorem Registry.IsKnown.nodup (hgrows : r.Grows r') : r'.shapes.Nodup :=
  (hr.grown.trans hgrows).nodup Registry.consistent_initial.nodup

theorem Registry.IsKnown.isSound (hgrows : r.Grows r') : r'.IsSound :=
  (hr.grown.trans hgrows).isSound Registry.isSound_initial

/-- The keyword of a primitive type. -/
theorem understands_primitive {p : Primitive} (hs : r.shape? t = some (.primitive p)) :
    Understands r d extended c t (.predefined (some p.keyword)) where
  back := by
    intro r' hgrows _
    have hfixed : r.shape? (.primitive p) = some (.primitive p) :=
      hr.grown.shape? (by cases p <;> rfl)
    have ht : TypeId.primitive p = t :=
      Registry.eq_of_shape?_eq (hr.nodup (.refl r)) hfixed hs
    rw [DeclaredTypes.resolve, Option.bind_some, Primitive.ofKeyword?_keyword, ← ht]
  only _ _ := (DeclaredTypes.sees_iff hs).mpr ⟨nofun, List.forall_mem_nil _⟩

theorem understands_array {element : TypeId} {type : TypeRef}
    (hs : r.shape? t = some (.array element)) (helement : element ≠ .unknown) (h : Understands r d extended c element type) :
    Understands r d extended c t (.array type) where
  back := by
    intro r' hgrows hsees
    have hinner := h.back hgrows
      (((DeclaredTypes.sees_iff hs).mp hsees).2 _ (List.mem_singleton_self _))
    simp only [DeclaredTypes.resolve, hinner, TypeId.isUnknown, beq_false_of_ne helement]
    exact Registry.intern_of_shape? (hr.nodup hgrows) (hgrows.shape? hs)
  only := by
    intro r' hgrows hback
    have hlater : r.Grows (extended.resolve c r' type).2 :=
      hgrows.trans (DeclaredTypes.grows_resolve extended c r' type)
    simp only [DeclaredTypes.resolve] at hback
    split at hback
    · cases hback
      cases hs.symm.trans (hr.isSound (.refl r))
    · have hsame := Registry.eq_of_intern_eq (hlater.shape? hs) hback
      cases hsame
      refine (DeclaredTypes.sees_iff hs).mpr ⟨nofun, ?_⟩
      exact List.forall_mem_singleton.mpr (h.only hgrows rfl)

omit hr in
/-- A dotted name leads to a named type, if to any. -/
theorem ne_nullable_of_resolvePath (hr : r.IsSound) (segments : List String) (types : List TypeId)
    (u : TypeId) : (d.resolvePath c r segments types).2.shape? (d.resolvePath c r segments types).1
      ≠ some (.nullable u) := by
  have hunknown : r.shape? .unknown ≠ some (.nullable u) := by
    rw [hr]
    rintro ⟨⟩
  rw [DeclaredTypes.resolvePath]
  split
  · exact hunknown
  · split
    · rw [Registry.shape?_intern]
      rintro ⟨⟩
    · exact hunknown

/-- Only what is written as a nullable type is read as one. -/
theorem ne_nullable_of_resolve (hgrows : r.Grows r') {type : TypeRef}
    (hplain : ∀ inner, type ≠ .nullable inner) (u : TypeId) :
    (extended.resolve c r' type).2.shape? (extended.resolve c r' type).1 ≠ some (.nullable u) := by
  have hunknown : ∀ {r'}, r.Grows r' → r'.shape? .unknown ≠ some (.nullable u) :=
    fun hlater heq => by cases (hr.isSound hlater).symm.trans heq
  cases type with
  | missing => exact hunknown hgrows
  | predefined keyword =>
      rw [DeclaredTypes.resolve]
      split
      · next p _ =>
          have hfixed : r'.shape? (.primitive p) = some (.primitive p) :=
            (hr.grown.trans hgrows).shape? (by cases p <;> rfl)
          intro heq
          cases hfixed.symm.trans heq
      · exact hunknown hgrows
  | named segments args =>
      cases args with
      | none => exact ne_nullable_of_resolvePath (hr.isSound hgrows) segments [] u
      | some args =>
          have hlater := hgrows.trans (DeclaredTypes.grows_resolveAll extended c r' args)
          exact ne_nullable_of_resolvePath (hr.isSound hlater) segments _ u
  | array element =>
      have hlater := hgrows.trans (DeclaredTypes.grows_resolve extended c r' element)
      simp only [DeclaredTypes.resolve]
      split
      · exact hunknown hlater
      · rw [Registry.shape?_intern]
        rintro ⟨⟩
  | nullable inner => exact absurd rfl (hplain inner)

theorem understands_nullable {inner : TypeId} {type : TypeRef}
    (hs : r.shape? t = some (.nullable inner)) (hinner : inner ≠ .unknown)
    (hplain : ∀ u, type ≠ .nullable u) (h : Understands r d extended c inner type) :
    Understands r d extended c t (.nullable type) where
  back := by
    intro r' hgrows hsees
    have hback := h.back hgrows
      (((DeclaredTypes.sees_iff hs).mp hsees).2 _ (List.mem_singleton_self _))
    rcases hr.of_shape? hs with ⟨shape, hshape, honce⟩
    simp only [DeclaredTypes.resolve, hback, TypeId.isUnknown, beq_false_of_ne hinner]
    rw [if_neg Bool.false_ne_true, Registry.internNullable, hgrows.shape? hshape]
    cases shape with
    | nullable u => exact absurd rfl (honce u)
    | _ => exact Registry.intern_of_shape? (hr.nodup hgrows) (hgrows.shape? hs)
  only := by
    intro r' hgrows hback
    have hlater : r.Grows (extended.resolve c r' type).2 :=
      hgrows.trans (DeclaredTypes.grows_resolve extended c r' type)
    simp only [DeclaredTypes.resolve] at hback
    split at hback
    · cases hback
      cases hs.symm.trans (hr.isSound (.refl r))
    · rw [Registry.internNullable] at hback
      split at hback
      · next u hu => exact absurd hu (ne_nullable_of_resolve hr hgrows hplain u)
      · have hsame := Registry.eq_of_intern_eq (hlater.shape? hs) hback
        cases hsame
        refine (DeclaredTypes.sees_iff hs).mpr ⟨?_, ?_⟩
        · rintro name args ⟨⟩
        · exact List.forall_mem_singleton.mpr (h.only hgrows rfl)

omit hr in
/-- The arguments of a type are understood one after the other. -/
theorem understands_args {args : List TypeId} {types : List TypeRef}
    (h : List.Forall₂ (Understands r d extended c) args types) {r' : Registry} (hgrows : r.Grows r') :
    ((∀ arg ∈ args, d.Sees c r arg) → extended.resolveAll c r' types = (args, r'))
      ∧ ((extended.resolveAll c r' types).1 = args → ∀ arg ∈ args, d.Sees c r arg) := by
  induction h generalizing r' with
  | nil => exact ⟨fun _ => rfl, fun _ => List.forall_mem_nil _⟩
  | @cons arg type args types hfirst _ ih =>
      simp only [DeclaredTypes.resolveAll, List.forall_mem_cons]
      refine ⟨fun hsees => ?_, fun hback => ?_⟩
      · rw [hfirst.back hgrows hsees.1, (ih hgrows).1 hsees.2]
      · rcases List.cons.inj hback with ⟨harg, hargs⟩
        have hlater := hgrows.trans (DeclaredTypes.grows_resolve extended c r' type)
        exact ⟨hfirst.only hgrows harg, (ih hlater).2 hargs⟩

theorem understands_path {home : Namespace} {name : String} {args : List TypeId}
    {path : List String} {types : List TypeRef} {shadow : String} {decl : TypeDecl} {ns : Namespace}
    (hs : r.shape? t = some (.named home name args)) (hdecl : decl.name = some shadow)
    (hpath : spellPath? d c shadow home name args.length = some path)
    (h : List.Forall₂ (Understands r d (d.declare decl ns) c) args types) :
    Understands r d (d.declare decl ns) c t (.path path types) := by
  rcases homeOfPath?_of_spellPath? ns hpath (hr.of_shape? hs) hdecl with ⟨hlast, hfound⟩
  refine ⟨fun {r'} hgrows hsees => ?_, fun {r'} hgrows hback => ?_⟩
  · rcases (DeclaredTypes.sees_iff hs).mp hsees with ⟨hown, hparts⟩
    have hhome := hfound.mpr fun hglobal => hown name args (hglobal ▸ rfl)
    rw [DeclaredTypes.resolve_path, (understands_args h hgrows).1 hparts, DeclaredTypes.resolvePath,
      hlast]
    dsimp only
    rw [hhome]
    exact Registry.intern_of_shape? (hr.nodup hgrows) (hgrows.shape? hs)
  · have hlater : r.Grows ((d.declare decl ns).resolveAll c r' types).2 :=
      hgrows.trans (DeclaredTypes.grows_resolveAll _ c r' types)
    rw [DeclaredTypes.resolve_path] at hback
    rcases DeclaredTypes.resolvePath_eq (hr.isSound hlater) hlast (hlater.shape? hs) hback with
      ⟨hargs, hhome⟩
    refine (DeclaredTypes.sees_iff hs).mpr ⟨?_, (understands_args h hgrows).2 hargs⟩
    intro name' args' heq
    cases heq
    exact hfound.mp hhome rfl

/-- What is written for a type is understood where the new type is declared. -/
theorem understands_spellWithin? {shadow : String} {decl : TypeDecl} (hdecl : decl.name = some shadow)
    (ns : Namespace) {depth : Nat} {type : TypeRef}
    (h : spellWithin? r d c shadow depth t = some type) :
    Understands r d (d.declare decl ns) c t type := by
  induction depth generalizing t type with
  | zero => cases h
  | succ depth ih =>
      have hunknown : r.shape? .unknown = some .unknown := hr.isSound (.refl r)
      have hne : ∀ {t type}, spellWithin? r d c shadow depth t = some type → t ≠ .unknown := by
        rintro t type hspell rfl
        cases depth with
        | zero => cases hspell
        | succ depth =>
            rw [spellWithin?, hunknown] at hspell
            cases hspell
      rw [spellWithin?] at h
      split at h
      · next p hs =>
          cases h
          exact understands_primitive hr hs
      · next element hs =>
          rcases Option.map_eq_some_iff.mp h with ⟨type', helement, rfl⟩
          exact understands_array hr hs (hne helement) (ih helement)
      · next inner hs =>
          rcases Option.map_eq_some_iff.mp h with ⟨type', hinner, rfl⟩
          rcases hr.of_shape? hs with ⟨shape, hshape, honce⟩
          refine understands_nullable hr hs (hne hinner) ?_ (ih hinner)
          -- What is written for a type that is not nullable is no nullable type.
          rintro u rfl
          refine kind_of_spellWithin? hinner (fun v hv => ?_) rfl
          exact honce v (Option.some.inj (hshape.symm.trans hv))
      · next home name args hs =>
          split at h
          · next types path htypes hpath =>
              cases h
              exact understands_path hr hs hdecl hpath
                ((forall₂_of_mapM htypes).imp fun arg type => ih)
          · cases h
      · cases h

end Reading

end Types

/-! ### Nodes for types -/

namespace Program.TypeRef

/-- The node that is written for a type is read as that type, wherever it stands. -/
def IsRead (t : TypeRef) : Prop := ∀ start, Part.ofTree start t.tree = .type t

/-- The words of a dotted name are its identifiers. -/
theorem dotted_eq (segments : List String) : ∃ ls : List Syntax.Lexeme,
    dotted segments = ls.map .token
      ∧ (ls.filter fun l => l.kind == .id).map Syntax.Lexeme.text = segments := by
  have hmore : ∀ segments : List String,
      ((segmentLexemes segments).filter fun l => l.kind == .id).map Syntax.Lexeme.text = segments := by
    intro segments
    induction segments with
    | nil => rfl
    | cons s segments ih => exact congrArg (s :: ·) ih
  cases segments with
  | nil => exact ⟨[], rfl, rfl⟩
  | cons s segments =>
      exact ⟨⟨.id, s⟩ :: segmentLexemes segments, dotted_cons s segments,
        congrArg (s :: ·) (hmore segments)⟩

/-- Tokens in front are passed over when something else is looked for. -/
theorem findSome?_tokens {γ : Type} (pick : Part → Option γ)
    (hpick : ∀ l, pick (.token l) = Option.none) (start : Nat) (ls : List Syntax.Lexeme)
    (ts : List Tree) : ∃ next,
      (Part.ofTrees start (ls.map .token ++ ts)).findSome? pick
        = (Part.ofTrees next ts).findSome? pick := by
  induction ls generalizing start with
  | nil => exact ⟨start, rfl⟩
  | cons l ls ih =>
      rw [List.map_cons, List.cons_append, Part.ofTrees, Part.ofTree, List.findSome?_cons, hpick]
      exact ih _

/-- The types in brackets are read one after the other. -/
theorem types_separated {args : List TypeRef} (h : ∀ arg ∈ args, arg.IsRead) (start : Nat) :
    Part.types (Part.ofTrees start
      (separated [leaf .comma ",", space] (trees args) ++ [leaf .gt ">"])) = args := by
  induction args generalizing start with
  | nil => rfl
  | cons arg args ih =>
      rw [List.forall_mem_cons] at h
      have hfirst : ∀ start ts, Part.types (Part.ofTrees start (arg.tree :: ts))
          = arg :: Part.types (Part.ofTrees (start + arg.tree.width) ts) := by
        intro start ts
        rw [Part.ofTrees, h.1 start]
        rfl
      cases args with
      | nil => exact hfirst _ _
      | cons other args => exact (hfirst _ _).trans (congrArg _ (ih h.2 _))

/-- The arguments that a part lists, if it is a list of arguments. -/
def typeArgs? : Part → Option (List TypeRef)
  | .typeArgs types => some types
  | _ => none

/-- A dotted name and what stands behind it are read as a type. -/
theorem ofTree_dotted (start : Nat) (segments : List String) (ts : List Tree)
    (hts : ts.filterMap Tree.leaf? = []) : ∃ next,
      Part.ofTree start (.node .namedType (dotted segments ++ ts))
        = .type (.named segments ((Part.ofTrees next ts).findSome? typeArgs?)) := by
  rcases dotted_eq segments with ⟨ls, hdotted, hwords⟩
  rcases findSome?_tokens typeArgs? (fun _ => rfl) start ls ts with ⟨next, hnext⟩
  have hleaves : (ls.map Tree.token).filterMap Tree.leaf? = ls := by
    rw [List.filterMap_map]
    exact List.filterMap_some
  have hnames : Part.names (Part.ofTrees start (ls.map .token ++ ts)) = segments := by
    rw [Part.names, Part.tokens_ofTrees, List.filterMap_append, hts, List.append_nil, hleaves, hwords]
  refine ⟨next, ?_⟩
  rw [hdotted, ← hnext, Part.ofTree, Part.assemble, hnames]
  rfl

theorem isRead_path {segments : List String} {args : List TypeRef} (h : ∀ arg ∈ args, arg.IsRead) :
    (path segments args).IsRead := by
  intro start
  unfold path
  cases args with
  | nil =>
      rcases ofTree_dotted start segments [] rfl with ⟨next, hread⟩
      rw [List.append_nil] at hread
      exact hread
  | cons arg args =>
      let brackets : Tree := .node .typeArgList
        (leaf .lt "<" :: separated [leaf .comma ",", space] (trees (arg :: args)) ++ [leaf .gt ">"])
      rcases ofTree_dotted start segments [brackets] rfl with ⟨next, hread⟩
      have hlist : Part.ofTree next brackets = .typeArgs (arg :: args) :=
        congrArg Part.typeArgs (types_separated h _)
      rw [Part.ofTrees, hlist] at hread
      exact hread

theorem isRead_array {element : TypeRef} (h : element.IsRead) : (array element).IsRead := by
  intro start
  rw [tree, Part.ofTree, Part.ofTrees, h start]
  rfl

theorem isRead_nullable {inner : TypeRef} (h : inner.IsRead) : (nullable inner).IsRead := by
  intro start
  rw [tree, Part.ofTree, Part.ofTrees, h start]
  rfl

end Program.TypeRef

/-- What is written for a type is read as what it was made of. -/
theorem Types.isRead_spellWithin? {r : Registry} {d : DeclaredTypes} {c : NameContext}
    {shadow : String} {depth : Nat} {t : TypeId} {type : TypeRef}
    (h : spellWithin? r d c shadow depth t = some type) : type.IsRead := by
  induction depth generalizing t type with
  | zero => cases h
  | succ depth ih =>
      rw [spellWithin?] at h
      split at h
      · cases h
        exact fun _ => rfl
      · rcases Option.map_eq_some_iff.mp h with ⟨type', helement, rfl⟩
        exact TypeRef.isRead_array (ih helement)
      · rcases Option.map_eq_some_iff.mp h with ⟨type', hinner, rfl⟩
        exact TypeRef.isRead_nullable (ih hinner)
      · split at h
        · next types path htypes _ =>
            cases h
            refine TypeRef.isRead_path fun type htype => ?_
            rcases forall₂_right (forall₂_of_mapM htypes) htype with ⟨arg, _, harg⟩
            exact ih harg
        · cases h
      · cases h

open Nominal.Types (TypeId)

/-- Whatever is written for the type of a member is a node that is read as what was written. Read
    where the new class stands and with the class declared, it means that type, and is described as
    that type, if every type without a namespace in it is found by its name there, and only then. -/
theorem written_types_understood {source : String} {d : Document}
    (hd : Document.parse source = .ok d) {scope : Scope} {t : TypeId} {newName : String}
    {type : TypeRef} (htype : d.model.spell? t scope newName = some type) {decl : TypeDecl}
    (hdecl : decl.name = some newName) :
    let found := (d.model.declared.declare decl scope.home).resolve scope.context d.model.registry type
    (∀ start, Part.ofTree start type.tree = .type type)
      ∧ (found.1 = t ↔ d.model.declared.Sees scope.context d.model.registry t)
      ∧ (d.model.declared.Sees scope.context d.model.registry t →
        found = (t, d.model.registry) ∧ found.2.describe found.1 = d.model.describe t) := by
  have hknown : d.model.registry.IsKnown d.model.declared := by
    rw [(Document.parse_eq_ok hd).2.2.2.1]
    exact Model.known_ofTree d.tree
  have hunderstood := Types.understands_spellWithin? hknown hdecl scope.home htype
  intro found
  refine ⟨Types.isRead_spellWithin? htype, ⟨hunderstood.only (.refl _), fun hsees => ?_⟩,
    fun hsees => ?_⟩
  · exact congrArg Prod.fst (hunderstood.back (.refl _) hsees)
  · have hback : found = (t, d.model.registry) := hunderstood.back (.refl _) hsees
    rw [hback]
    exact ⟨rfl, rfl⟩

/-- Two types of the same name, one in the namespace of the new class and one in none. Both are
    written by the name alone, which is read as the first one. -/
theorem written_types_understood_hidden :
    ∃ source d, ∃ scope : Scope, ∃ t u type type', source =
        "class Foo { Foo F; } namespace A { class Foo { } class C { void M() { var x = new { F = 1 }; } } }"
      ∧ Document.parse source = .ok d ∧ scope.home = ["A"]
      ∧ d.model.describe t = "A.Foo" ∧ d.model.describe u = "Foo"
      ∧ d.model.spell? t scope "X" = some type ∧ type.text = "Foo"
      ∧ d.model.spell? u scope "X" = some type' ∧ type'.text = "Foo"
      ∧ ∀ decl : TypeDecl, decl.name = some "X" →
        let extended := d.model.declared.declare decl scope.home
        (extended.resolve scope.context d.model.registry type).1 = t
          ∧ (extended.resolve scope.context d.model.registry type').1 ≠ u := by
  generalize hsource :
    "class Foo { Foo F; } namespace A { class Foo { } class C { void M() { var x = new { F = 1 }; } } }"
    = source
  have hok : ((Document.parse source).toOption.any fun d => d.sites.any fun site =>
      (d.model.scopeOf site.location).toOption.any fun scope => scope.home == ["A"]
        && d.model.describe ⟨18⟩ == "A.Foo" && d.model.describe ⟨17⟩ == "Foo"
        && d.model.registry.shape? ⟨18⟩ == some (.named ["A"] "Foo" [])
        && d.model.registry.shape? ⟨17⟩ == some (.named [] "Foo" [])
        && d.model.declared.homeOf? scope.context "Foo" 0 == some ["A"]
        && (d.model.spell? ⟨18⟩ scope "X").any (fun type => type.text == "Foo")
        && (d.model.spell? ⟨17⟩ scope "X").any fun type => type.text == "Foo") = true := by
    rw [← hsource]
    decide +kernel
  rcases (Option.any_eq_true _ _).mp hok with ⟨d, hd, hsites⟩
  rcases List.any_eq_true.mp hsites with ⟨site, _, hsite⟩
  rcases (Option.any_eq_true _ _).mp hsite with ⟨scope, _, hall⟩
  simp only [Bool.and_eq_true, beq_iff_eq, Option.any_eq_true] at hall
  rcases hall with ⟨⟨⟨⟨⟨⟨⟨hhome, ht⟩, hu⟩, hnear⟩, hfar⟩, hmeans⟩, type, htype, htext⟩,
    type', htype', htext'⟩
  cases hparse : Document.parse source with
  | error failure =>
      rw [hparse] at hd
      cases hd
  | ok d' =>
      rw [hparse] at hd
      cases hd
      refine ⟨source, d, scope, ⟨18⟩, ⟨17⟩, type, type', rfl, hparse, hhome, ht, hu, htype, htext,
        htype', htext', fun decl hdecl => ⟨?_, fun hfound => ?_⟩⟩
      · refine (written_types_understood hparse htype hdecl).2.1.mpr ?_
        refine (Types.DeclaredTypes.sees_iff hnear).mpr ⟨?_, List.forall_mem_nil _⟩
        rintro name args ⟨⟩
      · have hsees := (written_types_understood hparse htype' hdecl).2.1.mp hfound
        have hglobal := hsees ⟨17⟩ "Foo" [] (.refl _) hfar
        cases hmeans.symm.trans hglobal

end Nominal
