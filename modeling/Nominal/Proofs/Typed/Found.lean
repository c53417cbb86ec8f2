import Nominal.Proofs.Typed.Filed
import Nominal.Proofs.Typed.Members

/-!
# The Types of Creations

Typing files a type for every creation of an anonymous object that it visits. The type is
anonymous if each member of the creation has a name of its own, and then its fields are these
members, with the types that are filed for their values; else it is the unknown one.

Typing only ever adds to what it knows. So `Finds` says of each of its steps which creations it
files types for, whatever was known before.

## Main definitions

* `IsFilled`: The fields of a type have the types that are filed for the values of members.
* `Finds`: A step of typing that files the types of some creations.

## Theorems

* `itemLaw_finds`: Typing files the types of the creations that it comes across.
* `found_typeFile`: What is known at the end of typing a file.
-/

namespace Nominal

open Text (Span)
open Nominal.Types (TypeId Registry Shape Field DeclaredTypes Derived)

namespace Typing

open Program

/-- The fields of an anonymous type have the types that are filed for the values of members. -/
def IsFilled (records : List (NodeKey × TypeId)) (ms : List AnonMember) (fields : List Field) :
    Prop :=
  List.Forall₂ (fun m f => IsFiled records m.value f.type) ms fields

theorem IsFilled.mono {records records' : List (NodeKey × TypeId)} {ms : List AnonMember}
    {fields : List Field} (h : IsFilled records ms fields) (hsub : records ⊆ records') :
    IsFilled records' ms fields :=
  List.Forall₂.imp (fun _ _ hfiled => hfiled.mono hsub) h

/-- What is known before a step of typing and after it, if the step files the types of some
    creations. -/
structure Found (cs : List Creation) (s s' : TypingState) : Prop where
  grows : s.registry.Grows s'.registry
  recorded : ∃ new, s'.records = new ++ s.records
    ∧ (∀ r ∈ new, r.1.kind = .anonObjectCreation →
      ∃ c ∈ cs, c.span = r.1.span ∧ ∃ shape, s'.registry.shape? r.2 = some shape
        ∧ c.IsOfShape shape
        ∧ ∀ fields, shape = .anonymous fields → IsFilled s'.records c.members fields)
    ∧ ∀ c ∈ cs, ∃ r ∈ new, r.1 = ⟨.anonObjectCreation, c.span⟩

namespace Found

variable {cs ds : List Creation} {s s' s'' : TypingState}

theorem subset (h : Found cs s s') : s.records ⊆ s'.records := by
  rcases h.recorded with ⟨new, hnew, _⟩
  rw [hnew]
  exact List.subset_append_right _ _

/-- What is found first stays found. -/
theorem append (h : Found cs s s') (h' : Found ds s' s'') : Found (cs ++ ds) s s'' := by
  have hsub := h'.subset
  rcases h with ⟨hgrows, new, hnew, honly, hall⟩
  rcases h' with ⟨hgrows', new', hnew', honly', hall'⟩
  refine ⟨hgrows.trans hgrows', new' ++ new, ?_, ?_, ?_⟩
  · rw [hnew', hnew, List.append_assoc]
  · intro r hr hkind
    rw [List.mem_append] at hr
    rcases hr with hr | hr
    · rcases honly' r hr hkind with ⟨d, hd, hspan, hshape⟩
      exact ⟨d, List.mem_append_right _ hd, hspan, hshape⟩
    · rcases honly r hr hkind with ⟨d, hd, hspan, shape, hshape, hsound, hfilled⟩
      exact ⟨d, List.mem_append_left _ hd, hspan, shape, hgrows'.shape? hshape, hsound,
        fun fields heq => (hfilled fields heq).mono hsub⟩
  · intro d hd
    rw [List.mem_append] at hd
    rcases hd with hd | hd
    · rcases hall d hd with ⟨r, hr, hkey⟩
      exact ⟨r, List.mem_append_right new' hr, hkey⟩
    · rcases hall' d hd with ⟨r, hr, hkey⟩
      exact ⟨r, List.mem_append_left new hr, hkey⟩

end Found

/-- A step of typing files the types of some creations, and those of no others. -/
def Finds : StepProperty := fun _ c es =>
  ∀ s : TypingState, s.registry.IsSound → Found (creationsAmong es) s (c s).2

variable {declared : DeclaredTypes}

namespace Finds

variable {α β : Type} {c : TypingM α} {f : α → TypingM β} {es fs : List Expr}

/-- A step that files no types finds nothing. -/
theorem quiet (hgrows : ∀ s : TypingState, s.registry.Grows (c s).2.registry)
    (hrecords : ∀ s : TypingState, (c s).2.records = s.records) : Finds α c [] := by
  intro s _
  exact ⟨hgrows s, [], hrecords s, nofun, nofun⟩

/-- Two steps find what each of them finds, if the answer of the first says enough of the
    second. -/
theorem bind_of {P : α → Prop} (hc : Finds α c es) (ha : Answers c P)
    (hf : ∀ a, P a → Finds β (f a) fs) : Finds β (c >>= f) (es ++ fs) := by
  intro s hs
  rw [creationsAmong_append]
  have hfirst := hc s hs
  exact hfirst.append (hf (c s).1 (ha s) (c s).2 (hfirst.grows.isSound hs))

/-- The type of what is no creation may be filed. -/
theorem record {kind : Syntax.Kind} (hkind : (kind == .anonObjectCreation) = false) (span : Span)
    (type : TypeId) (h : creationsAmong es = []) : Finds Unit (record kind span type) es := by
  intro s _
  rw [h]
  refine ⟨.refl _, [(⟨kind, span⟩, type)], rfl, ?_, nofun⟩
  intro r hr hanonymous
  rw [List.mem_singleton] at hr
  rw [hr] at hanonymous
  exact absurd hanonymous (beq_eq_false_iff_ne.mp hkind)

end Finds

theorem stepLaw_finds : StepLaw declared Finds where
  pure _ := .quiet (fun _ => .refl _) fun _ => rfl
  bind_of := Finds.bind_of
  known := .quiet (fun _ => .refl _) fun _ => rfl
  aside hregistry hrecords _ _ := .quiet (fun s => (hregistry s).symm ▸ .refl s.registry) hrecords
  record hkind span type := .record (by rcases hkind with rfl | rfl <;> rfl) span type rfl
  file hkind _ type := .record hkind _ type (creationsAmong_concat hkind [])
  more hkind hc s hs := (creationsAmong_concat hkind _).symm ▸ hc s hs
  internArray element := .quiet (fun s => s.registry.grows_intern _) fun _ => rfl
  internDerived? := by
    intro derived _
    cases derived with
    | none => exact .quiet (fun _ => .refl _) fun _ => rfl
    | some d => exact .quiet (fun s => d.grows_intern s.registry) fun _ => rfl
  resolveType type :=
    .quiet (fun s => declared.grows_resolve s.context s.registry type) fun _ => rfl
  resolveName segments :=
    .quiet (fun s => declared.grows_resolvePath s.context s.registry segments []) fun _ => rfl

/-- A member that cannot be named does not matter for what is filed. -/
theorem finds_addAnonymousMember (found : AnonymousMembers) (m : AnonMember) (type : TypeId) :
    Finds AnonymousMembers (addAnonymousMember found m type) [] := by
  rw [addAnonymousMember]
  split
  · exact .quiet (fun _ => .refl _) fun _ => rfl
  · split
    · exact .quiet (fun _ => .refl _) fun _ => rfl
    · exact .quiet (fun _ => .refl _) fun _ => rfl

/-- A member is typed and added before the ones behind it. -/
theorem typeMembers_cons (found : AnonymousMembers) (m : AnonMember) (ms : List AnonMember)
    (s : TypingState) : typeMembers declared found (m :: ms) s =
      let p := (examine declared m.value >>= settle m.value) s
      let q := addAnonymousMember found m p.1 p.2
      typeMembers declared q.1 ms q.2 := by
  cases m
  rw [typeMembers]
  rfl

/-- If all members can be named, the fields have the types that are filed for the values. -/
theorem isFilled_typeMembers {ms : List AnonMember}
    (h : ∀ m ∈ ms, Finds TypeId (examine declared m.value >>= settle m.value) m.value.visited)
    (found : AnonymousMembers) {s : TypingState} (hs : s.registry.IsSound)
    (hvalid : (typeMembers declared found ms s).1.valid = true) :
    ∃ fields, (typeMembers declared found ms s).1.fields = found.fields ++ fields
      ∧ IsFilled (typeMembers declared found ms s).2.records ms fields := by
  induction ms generalizing found s with
  | nil => exact ⟨[], (List.append_nil _).symm, .nil⟩
  | cons m ms ih =>
      rw [List.forall_mem_cons] at h
      have hvalue := h.1 s hs
      have hsettled : Leaves (examine declared m.value >>= settle m.value) fun t s =>
          IsFiled s.records m.value t := isFiled_settle m.value
      have hfiled := hsettled s
      rw [typeMembers_cons] at hvalid ⊢
      -- Of the value only its type and what is known behind it matter from here on.
      generalize (examine declared m.value >>= settle m.value) s = p at *
      rcases p with ⟨t, s₁⟩
      have hs₁ := hvalue.grows.isSound hs
      have hadd := finds_addAnonymousMember found m t s₁ hs₁
      have hanswer := answers_addAnonymousMember found m t [] s₁
      dsimp only at hvalid ⊢
      generalize addAnonymousMember found m t s₁ = q at *
      rcases q with ⟨r, s₂⟩
      have hs₂ := hadd.grows.isSound hs₁
      have hrest := stepLaw_finds.typeMembers finds_addAnonymousMember r h.2 s₂ hs₂
      have hnamed : r.valid = true := by
        rw [(answers_typeMembers r ms s₂).1, Bool.and_eq_true] at hvalid
        exact hvalid.1
      rcases hanswer.2 hnamed with ⟨name, _, hfields⟩
      rcases ih h.2 r hs₂ hvalid with ⟨fields, hmore, hfilled⟩
      refine ⟨⟨name, t⟩ :: fields, ?_, .cons ?_ hfilled⟩
      · rw [hmore, hfields, List.append_assoc]
        rfl
      · exact hfiled.mono (List.Subset.trans hadd.subset hrest.subset)

/-- The type that is filed for a creation has the shape that the members say. -/
theorem found_recordCreation (span : Span) (keyword : Option String) (members : List AnonMember)
    {found : AnonymousMembers} {s : TypingState} (hs : s.registry.IsSound)
    (hvalid : found.valid = (Creation.mk span members).isSound)
    (hgives : found.valid = true → List.Forall₂ AnonMember.Gives members found.fields)
    (hfilled : found.valid = true → IsFilled s.records members found.fields) :
    Found [⟨span, members⟩] s ((do
      let t ← if found.valid then internShape (.anonymous found.fields) else pure .unknown
      recordValue (.anonymous span keyword members) t : TypingM Referent) s).2 := by
  have hfiled : ∀ (t : TypeId) (r : Registry) (shape : Shape), s.registry.Grows r →
      r.shape? t = some shape → (Creation.mk span members).IsOfShape shape →
      (∀ fields, shape = .anonymous fields → IsFilled s.records members fields) →
      Found [⟨span, members⟩] s
        (recordValue (.anonymous span keyword members) t { s with registry := r }).2 := by
    intro t r shape hgrows hshape hof hfields
    refine ⟨hgrows, [(⟨.anonObjectCreation, span⟩, t)], rfl, ?_, ?_⟩
    · intro filed hfiled _
      rw [List.mem_singleton] at hfiled
      rw [hfiled]
      exact ⟨_, List.mem_singleton_self _, rfl, shape, hshape, hof,
        fun fields heq => (hfields fields heq).mono (List.subset_cons_self _ _)⟩
    · intro c hc
      rw [List.mem_singleton] at hc
      rw [hc]
      exact ⟨_, List.mem_singleton_self _, rfl⟩
  by_cases h : found.valid = true
  · dsimp only
    rw [if_pos h]
    refine hfiled _ _ _ (s.registry.grows_intern _) (s.registry.shape?_intern _) ?_ ?_
    · rw [Creation.IsOfShape, if_pos (hvalid ▸ h)]
      exact ⟨_, rfl, hgives h⟩
    · intro fields heq
      cases heq
      exact hfilled h
  · dsimp only
    rw [if_neg h]
    refine hfiled .unknown s.registry .unknown (.refl _) hs ?_ nofun
    rw [Creation.IsOfShape, if_neg (hvalid ▸ h)]

/-- Typing files the types of the creations that it comes across. -/
theorem itemLaw_finds : ItemLaw declared Finds where
  toStepLaw := stepLaw_finds
  anonymous span keyword members h := by
    intro s hs
    have hmembers := stepLaw_finds.typeMembers finds_addAnonymousMember ⟨[], true⟩ h s hs
    have hanswers : Answers (typeMembers declared ⟨[], true⟩ members) _ :=
      answers_typeMembers ⟨[], true⟩ members
    have hanswer := hanswers s
    have hfilled := isFilled_typeMembers h ⟨[], true⟩ hs
    rw [creationsAmong_append, examine]
    refine hmembers.append ?_
    refine found_recordCreation span keyword members (hmembers.grows.isSound hs) ?_ ?_ ?_
    · rw [hanswer.1, Bool.true_and]
      rfl
    · intro hvalid
      rcases hanswer.2 hvalid with ⟨fields, hfields, hgives⟩
      rw [hfields]
      exact hgives
    · intro hvalid
      rcases hfilled hvalid with ⟨fields, hfields, hall⟩
      rw [hfields]
      exact hall
  context _ := .quiet (fun _ => .refl _) fun _ => rfl
  internNamed home name := .quiet (fun s => s.registry.grows_intern _) fun _ => rfl

/-- What is known at the end of typing a file, if the first type was the unknown one. -/
theorem found_typeFile (file : SourceFile) {r : Registry} (h : r.IsSound) :
    Found (creationsOfItems file.items) (TypingState.initial file r)
      (typeFile declared file r) :=
  creationsAmong_visitedOfItems file.items ▸ itemLaw_finds.typeItems file.items _ h

end Typing

end Nominal
