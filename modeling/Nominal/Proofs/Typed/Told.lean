import Nominal.Proofs.Typed.Members

/-!
# Mistakes in Anonymous Objects

Typing reports a mistake where a member of an anonymous object has no name, or has the name of
one before it, and it reports nothing else. So what is reported about a file is a matter of the
creations in it that typing visits, whatever the types are, and nothing is reported exactly if the
members of each of them have names of their own.

Reports are only ever put behind those before. So `Adds` says which ones a step of typing puts
there, without regard to the ones that are there already. Their order is left open: mistakes in the
value of a member come before those in the members behind it.

## Main definitions

* `AnonMember.fault?`: The mistake in a member behind others.
* `Creation.faults`: The mistakes in the members of a creation.
* `Adds`: The reports that a step of typing adds.
* `Tells`: A step of typing that reports the mistakes in some creations.

## Theorems

* `Creation.faults_eq_nil_iff`: There are no mistakes in a creation exactly if it is sound.
* `itemLaw_tells`: Typing reports the mistakes in the creations that it visits, and nothing else.
* `reported_typeFile`: What is reported about a file.
* `told_typeFile`: When nothing is reported about a file.
-/

namespace Nominal

open Text (Span)
open Nominal.Types (DeclaredTypes Field TypeId)

namespace Program

/-- The mistake in a member behind others: it has no name, or the name of one of them. -/
def AnonMember.fault? (before : List AnonMember) (m : AnonMember) : Option Diagnostic :=
  match m.name? with
  | none => some ((Diagnostic.of .invalidAnonymousMember m.span).withDetail none)
  | some name =>
    if (before.map AnonMember.name?).contains (some name) then
      some ((Diagnostic.of .duplicateAnonymousMember m.span).withDetail (some name))
    else none

/-- The mistakes in members behind others, in their order. -/
def faultsBehind (before : List AnonMember) : List AnonMember → List Diagnostic
  | [] => []
  | m :: ms => (m.fault? before).toList ++ faultsBehind (before ++ [m]) ms

/-- The mistakes in the members of a creation. -/
def Creation.faults (c : Creation) : List Diagnostic := faultsBehind [] c.members

/-- Members without mistakes have names of their own. -/
theorem faultsBehind_eq_nil_iff {before ms : List AnonMember} {taken : List String}
    (h : ∀ name, taken.contains name = (before.map AnonMember.name?).contains (some name)) :
    faultsBehind before ms = [] ↔ areApart taken (ms.map AnonMember.name?) = true := by
  induction ms generalizing before taken with
  | nil => exact iff_of_true rfl rfl
  | cons m ms ih =>
      rw [faultsBehind, List.append_eq_nil_iff, Option.toList_eq_nil_iff, AnonMember.fault?,
        List.map_cons]
      cases hname : m.name? with
      | none => exact iff_of_false (fun hnil => Option.some_ne_none _ hnil.1) Bool.false_ne_true
      | some name =>
          have hmore : ∀ other, (taken ++ [name]).contains other
              = ((before ++ [m]).map AnonMember.name?).contains (some other) := by
            intro other
            have hold := h other
            simp only [List.contains_eq_mem] at hold ⊢
            simp [hname, decide_eq_decide.mp hold]
          dsimp only
          rw [ih hmore, areApart, h name]
          split
          · next htaken =>
              rw [htaken]
              exact iff_of_false (fun hnil => Option.some_ne_none _ hnil.1) Bool.false_ne_true
          · next hfree =>
              rw [(Bool.not_eq_true _).mp hfree]
              exact and_iff_right rfl

/-- There are no mistakes in a creation exactly if it is sound. -/
theorem Creation.faults_eq_nil_iff {c : Creation} : c.faults = [] ↔ c.isSound = true :=
  faultsBehind_eq_nil_iff fun _ => rfl

end Program

namespace Typing

open Program

/-- A step of typing adds reports, in some order. -/
def Adds {α : Type} (c : TypingM α) (ds : List Diagnostic) : Prop :=
  ∀ s : TypingState, ∃ new, (c s).2.diagnostics = s.diagnostics ++ new ∧ new.Perm ds

namespace Adds

variable {α β : Type} {c : TypingM α} {f : α → TypingM β} {ds ds' : List Diagnostic}

theorem perm (h : Adds c ds) (hperm : ds.Perm ds') : Adds c ds' := by
  intro s
  rcases h s with ⟨new, hnew, hsame⟩
  exact ⟨new, hnew, hsame.trans hperm⟩

/-- A step that leaves the reports adds none. -/
theorem quiet (h : ∀ s : TypingState, (c s).2.diagnostics = s.diagnostics) : Adds c [] :=
  fun s => ⟨[], (h s).trans (List.append_nil _).symm, .refl _⟩

/-- Two steps add what each of them adds. -/
theorem bind_of {P : α → Prop} (hc : Adds c ds) (ha : Answers c P)
    (hf : ∀ a, P a → Adds (f a) ds') : Adds (c >>= f) (ds ++ ds') := by
  intro s
  rcases hc s with ⟨new, hnew, hperm⟩
  rcases hf (c s).1 (ha s) (c s).2 with ⟨new', hnew', hperm'⟩
  refine ⟨new ++ new', ?_, hperm.append hperm'⟩
  have hrun : ((c >>= f) s).2 = (f (c s).1 (c s).2).2 := rfl
  rw [hrun, hnew', hnew, List.append_assoc]

theorem bind (hc : Adds c ds) (hf : ∀ a, Adds (f a) ds') : Adds (c >>= f) (ds ++ ds') :=
  hc.bind_of (P := fun _ => True) (fun _ => trivial) fun a _ => hf a

end Adds

/-- A step of typing reports the mistakes in the creations that it comes across. -/
def Tells : StepProperty := fun _ c es => Adds c ((creationsAmong es).flatMap Creation.faults)

variable {declared : DeclaredTypes}

theorem stepLaw_tells : StepLaw declared Tells where
  pure _ := .quiet fun _ => rfl
  bind_of hc ha hf := by
    rw [Tells, creationsAmong_append, List.flatMap_append]
    exact Adds.bind_of hc ha hf
  known := .quiet fun _ => rfl
  aside _ _ h _ := .quiet h
  record _ _ _ := .quiet fun _ => rfl
  file hkind _ _ := by
    rw [Tells, ← List.nil_append [_], creationsAmong_concat hkind]
    exact .quiet fun _ => rfl
  more hkind hc := by
    rw [Tells, creationsAmong_concat hkind]
    exact hc
  internArray _ := .quiet fun _ => rfl
  internDerived? := by
    intro derived _
    cases derived with
    | none => exact .quiet fun _ => rfl
    | some d => exact .quiet fun _ => rfl
  resolveType _ := .quiet fun _ => rfl
  resolveName _ := .quiet fun _ => rfl

/-- The fields that are found have the names of some members. -/
def AnonymousMembers.NamedBy (found : AnonymousMembers) (ms : List AnonMember) : Prop :=
  ∀ name, (found.fields.any fun f => f.name == name)
    = (ms.map AnonMember.name?).contains (some name)

/-- When a member is added, the mistake in it is reported, and its name is taken. -/
theorem adds_addAnonymousMember {found : AnonymousMembers} {before : List AnonMember}
    (h : found.NamedBy before) (m : AnonMember) (type : TypeId) :
    Adds (addAnonymousMember found m type) (m.fault? before).toList
      ∧ Answers (addAnonymousMember found m type) fun r => r.NamedBy (before ++ [m]) := by
  have hreport : ∀ kind detail, Adds (do
      reportMember kind m.span detail
      return { found with valid := false } : TypingM AnonymousMembers)
      [(Diagnostic.of kind m.span).withDetail detail] := fun _ _ s => ⟨[_], rfl, .refl _⟩
  rw [addAnonymousMember, AnonMember.fault?]
  cases hname : m.name? with
  | none =>
      refine ⟨hreport _ _, .last fun _ => .pure fun other => ?_⟩
      rw [h other]
      simp [hname]
  | some name =>
      dsimp only
      rw [h name]
      cases htaken : (before.map AnonMember.name?).contains (some name) with
      | true =>
          refine ⟨hreport _ _, .last fun _ => .pure fun other => ?_⟩
          rw [h other]
          -- The name is not new, so nothing changes when the member is counted in.
          rw [List.map_append, List.contains_append]
          by_cases hother : name = other
          · rw [← hother, htaken, Bool.true_or]
          · simp [hname, Ne.symm hother]
      | false =>
          refine ⟨.quiet fun _ => rfl, .pure fun other => ?_⟩
          rw [List.any_append, h other, List.map_append, List.contains_append]
          simp [hname, eq_comm, beq_eq_decide]

/-- Typing the members of a creation reports the mistakes in their values and in them. -/
theorem adds_typeMembers {ms : List AnonMember}
    (h : ∀ m ∈ ms, Tells TypeId (examine declared m.value >>= settle m.value) m.value.visited)
    {found : AnonymousMembers} {before : List AnonMember} (hnames : found.NamedBy before) :
    Adds (typeMembers declared found ms)
      ((creationsAmong (visitedOfMembers ms)).flatMap Creation.faults ++ faultsBehind before ms) := by
  induction ms generalizing found before with
  | nil => exact .quiet fun _ => rfl
  | cons m ms ih =>
      rw [List.forall_mem_cons] at h
      cases m with
      | mk span explicit value =>
          rw [typeMembers, ← bind_assoc, visitedOfMembers, creationsAmong_append,
            List.flatMap_append, faultsBehind]
          have hadd := fun type => adds_addAnonymousMember hnames (.mk span explicit value) type
          have hsteps := Adds.bind h.1 fun type =>
            (hadd type).1.bind_of (hadd type).2 fun r hr => ih h.2 hr
          refine hsteps.perm ?_
          -- The mistake in the member comes before those in the values behind it.
          rw [List.append_assoc]
          exact (List.perm_append_comm_assoc _ _ _).append_left _

/-- Typing reports the mistakes in the creations that it visits, and nothing else. -/
theorem itemLaw_tells : ItemLaw declared Tells where
  toStepLaw := stepLaw_tells
  anonymous span keyword members h := by
    have hrecord : ∀ found : AnonymousMembers, Adds (do
        let t ← if found.valid then internShape (.anonymous found.fields) else pure .unknown
        recordValue (.anonymous span keyword members) t : TypingM Referent) [] := by
      intro found
      dsimp only
      split
      · exact .quiet fun _ => rfl
      · exact .quiet fun _ => rfl
    have hnone : AnonymousMembers.NamedBy ⟨[], true⟩ [] := fun _ => rfl
    rw [examine, Tells, creationsAmong_append, List.flatMap_append]
    have hsteps := (adds_typeMembers h hnone).bind hrecord
    rw [List.append_nil] at hsteps
    refine hsteps.perm (.of_eq (congrArg _ ?_))
    exact (List.flatMap_singleton ..).symm
  context _ := .quiet fun _ => rfl
  internNamed _ _ := .quiet fun _ => rfl

/-- What is reported about a file are the mistakes in the creations in it that typing visits. -/
theorem reported_typeFile (declared : DeclaredTypes) (file : SourceFile) (r : Types.Registry) :
    (typeFile declared file r).diagnostics.Perm
      ((creationsOfItems file.items).flatMap Creation.faults) := by
  have htells : Tells Unit (typeItems declared file.items) (visitedOfItems file.items) :=
    itemLaw_tells.typeItems file.items
  rw [Tells, creationsAmong_visitedOfItems] at htells
  rcases htells (TypingState.initial file r) with ⟨new, hnew, hperm⟩
  have hall : (typeFile declared file r).diagnostics = new := hnew.trans (List.nil_append new)
  rw [hall]
  exact hperm

/-- Nothing is reported about a file exactly if the creations in it that typing visits are
    sound. -/
theorem told_typeFile (declared : DeclaredTypes) (file : SourceFile) (r : Types.Registry) :
    (typeFile declared file r).diagnostics = []
      ↔ ∀ x ∈ creationsOfItems file.items, x.isSound = true := by
  have hperm := reported_typeFile declared file r
  rw [← List.perm_nil, hperm.congr_left, List.perm_nil, List.flatMap_eq_nil_iff]
  exact forall₂_congr fun x _ => Creation.faults_eq_nil_iff

end Typing

end Nominal
