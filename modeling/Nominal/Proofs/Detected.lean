import Nominal.Proofs.Extracted
import Nominal.Proofs.Typed.Found
import Nominal.Proofs.Visited

/-!
# Which Creations Are Candidate Sites

A creation is a candidate site if its members have names of their own and typing comes by.
The members are a matter of the creation alone; whether typing comes by depends on what it
stands in.

The type of a creation is filed under its span, so two creations must not have the same
one. They do not: a creation starts with its keyword, and other creations in it start
behind that.

## Main definitions

* `Location.IsNameable`: A location is a creation whose members could all be named.

## Theorems

* `eq_of_span_eq`: Two creations with the same span are the same one.
* `Model.shape?_creation`: The type that is filed for a creation has the members as its fields.
* `locations_sites`: The candidate sites are the creations whose members could be named and
  that are not passed over, in the order of the text.
* `sites_complete_iff`: None is missing exactly if none is passed over.
-/

namespace Nominal

open Syntax (Tree Kind Lexeme Location Node isPassedOver)
open Text (Span)
open Program (Creation Part areApart)

namespace Syntax

/-! ### Spans of creations -/

theorem Tree.Opens.widthOf_pos {ts : List Tree} (h : Tree.Opens ts)
    (hpos : ∀ x ∈ Tree.leavesOf ts, 0 < x.width) : 0 < Tree.widthOf ts := by
  rcases h with ⟨before, between, keyword, brace, behind, rfl, _⟩
  have hkeyword : 0 < keyword.width := by
    refine hpos keyword ?_
    simp only [Tree.leavesOf_append, Tree.leavesOf, Tree.leaves, List.mem_append, List.mem_singleton,
      true_or, or_true]
  rw [Tree.widthOf_map_token, Tree.widthOf, Tree.width]
  omega

mutual

/-- A location lies in the tree that it is in, and a creation has some extent. -/
theorem bounds_of_mem_locationsAt {t : Tree} {above : List Node} {start index : Nat} {l : Location}
    (ht : t.Conforms) (hpos : ∀ x ∈ t.leaves, 0 < x.width)
    (hl : l ∈ Tree.locationsAt above start index t) :
    start ≤ l.span.start ∧ l.span.stop ≤ start + t.width
      ∧ (l.node.kind = .anonObjectCreation → l.span.start < l.span.stop) := by
  cases t with
  | token lexeme => cases hl
  | node kind children =>
      rw [Tree.locationsAt, List.mem_cons] at hl
      cases ht with
      | @node _ _ hfits hopens hchildren =>
          rcases hl with rfl | hl
          · refine ⟨Nat.le_refl start, Nat.le_refl _, fun hkind => ?_⟩
            exact Nat.lt_add_of_pos_right ((hopens hkind).widthOf_pos hpos)
          · exact bounds_of_mem_locationsOf hchildren hpos hl

theorem bounds_of_mem_locationsOf {ts : List Tree} {above : List Node} {start index : Nat}
    {l : Location} (hts : ∀ t ∈ ts, t.Conforms) (hpos : ∀ x ∈ Tree.leavesOf ts, 0 < x.width)
    (hl : l ∈ Tree.locationsOf above start index ts) :
    start ≤ l.span.start ∧ l.span.stop ≤ start + Tree.widthOf ts
      ∧ (l.node.kind = .anonObjectCreation → l.span.start < l.span.stop) := by
  cases ts with
  | nil => cases hl
  | cons t ts =>
      rw [List.forall_mem_cons] at hts
      rw [Tree.leavesOf, List.forall_mem_append] at hpos
      rw [Tree.locationsOf, List.mem_append] at hl
      rw [Tree.widthOf]
      rcases hl with hl | hl
      · have hfirst := bounds_of_mem_locationsAt hts.1 hpos.1 hl
        exact ⟨hfirst.1, by omega, hfirst.2.2⟩
      · have hrest := bounds_of_mem_locationsOf hts.2 hpos.2 hl
        exact ⟨by omega, by omega, hrest.2.2⟩

end

/-- What stands in a creation starts behind its keyword. -/
theorem start_lt_of_mem_creation {children : List Tree} {above : List Node} {start : Nat}
    {l : Location} (hopens : Tree.Opens children) (hchildren : ∀ t ∈ children, t.Conforms)
    (hpos : ∀ x ∈ Tree.leavesOf children, 0 < x.width)
    (hl : l ∈ Tree.locationsOf above start 0 children) : start < l.span.start := by
  rcases hopens with ⟨before, between, keyword, brace, behind, rfl, _⟩
  simp only [Tree.leavesOf_append, Tree.leavesOf, Tree.leaves, List.forall_mem_append,
    List.mem_singleton, forall_eq] at hpos
  rw [locationsOf_opens above start rfl] at hl
  have hbehind : ∀ t ∈ behind, t.Conforms := by
    intro t ht
    refine hchildren t ?_
    simp only [List.mem_append, List.mem_cons, ht, or_true]
  have hbounds := bounds_of_mem_locationsOf hbehind hpos.2.2.2.2 hl
  have hkeyword := hpos.2.1
  omega

mutual

/-- Two creations in a tree with the same span are the same one. -/
theorem eq_of_span_eq {t : Tree} {above : List Node} {start index : Nat} {l l' : Location}
    (ht : t.Conforms) (hpos : ∀ x ∈ t.leaves, 0 < x.width)
    (hl : l ∈ Tree.locationsAt above start index t)
    (hl' : l' ∈ Tree.locationsAt above start index t)
    (hkind : l.node.kind = .anonObjectCreation) (hkind' : l'.node.kind = .anonObjectCreation)
    (hspan : l.span = l'.span) : l = l' := by
  cases t with
  | token lexeme => cases hl
  | node kind children =>
      rw [Tree.locationsAt, List.mem_cons] at hl hl'
      cases ht with
      | @node _ _ hfits hopens hchildren =>
          rcases hl with rfl | hl
          · rcases hl' with rfl | hl'
            · rfl
            · have hlt := start_lt_of_mem_creation (hopens hkind) hchildren hpos hl'
              rw [← hspan] at hlt
              exact absurd hlt (Nat.lt_irrefl start)
          · rcases hl' with rfl | hl'
            · have hlt := start_lt_of_mem_creation (hopens hkind') hchildren hpos hl
              rw [hspan] at hlt
              exact absurd hlt (Nat.lt_irrefl start)
            · exact eq_of_span_eqOf hchildren hpos hl hl' hkind hkind' hspan

theorem eq_of_span_eqOf {ts : List Tree} {above : List Node} {start index : Nat} {l l' : Location}
    (hts : ∀ t ∈ ts, t.Conforms) (hpos : ∀ x ∈ Tree.leavesOf ts, 0 < x.width)
    (hl : l ∈ Tree.locationsOf above start index ts)
    (hl' : l' ∈ Tree.locationsOf above start index ts)
    (hkind : l.node.kind = .anonObjectCreation) (hkind' : l'.node.kind = .anonObjectCreation)
    (hspan : l.span = l'.span) : l = l' := by
  cases ts with
  | nil => cases hl
  | cons t ts =>
      rw [List.forall_mem_cons] at hts
      rw [Tree.leavesOf, List.forall_mem_append] at hpos
      rw [Tree.locationsOf, List.mem_append] at hl hl'
      rcases hl with hl | hl
      · rcases hl' with hl' | hl'
        · exact eq_of_span_eq hts.1 hpos.1 hl hl' hkind hkind' hspan
        · have hfirst := bounds_of_mem_locationsAt hts.1 hpos.1 hl
          have hrest := bounds_of_mem_locationsOf hts.2 hpos.2 hl'
          have hextent := hfirst.2.2 hkind
          rw [hspan] at hfirst hextent
          omega
      · rcases hl' with hl' | hl'
        · have hfirst := bounds_of_mem_locationsAt hts.1 hpos.1 hl'
          have hrest := bounds_of_mem_locationsOf hts.2 hpos.2 hl
          have hextent := hfirst.2.2 hkind'
          rw [hspan] at hrest
          omega
        · exact eq_of_span_eqOf hts.2 hpos.2 hl hl' hkind hkind' hspan

end

end Syntax

/-! ### Candidate sites -/

namespace Syntax

/-- The names of the members of a creation: those written, or those that their values bring. -/
def Location.memberNames (l : Location) : List (Option String) :=
  l.node.anonMembers.map Program.AnonMember.name?

/-- A location is a creation whose members all have a name, each one of its own. -/
def Location.IsNameable (l : Location) : Prop :=
  l.node.kind = .anonObjectCreation ∧ (∀ name ∈ l.memberNames, name.isSome)
    ∧ l.memberNames.Nodup

instance (l : Location) : Decidable l.IsNameable :=
  inferInstanceAs (Decidable (_ ∧ _ ∧ _))

theorem Location.isNameable_iff {l : Location} (h : l.node.kind = .anonObjectCreation) :
    l.IsNameable ↔ l.creation.isSound = true := by
  rw [Creation.isSound, Program.areApart_nil_iff]
  exact and_iff_right h

end Syntax

theorem Grammar.kind_parseLexemes {limits : Grammar.Limits} {lexemes : List Lexeme}
    {parsed : Grammar.Parsed} (h : Grammar.parseLexemes limits lexemes = .ok parsed) :
    ∃ children, parsed.tree = .node .root children := by
  rw [Grammar.parseLexemes] at h
  split at h
  · next u t hrun =>
      rw [Grammar.State.result] at h
      split at h
      · cases h
      · cases h
        exact ⟨_, rfl⟩
  · cases h
  · cases h

/-- The creations that typing visits are those in the tree that are not passed over. -/
theorem mem_creationsOfItems {t : Tree} (ht : t.Conforms) {children : List Tree}
    (hroot : t = .node .root children) {x : Creation} :
    x ∈ Program.creationsOfItems (Program.SourceFile.ofTree t).items ↔
      ∃ l ∈ t.locations, l.node.kind = .anonObjectCreation ∧ isPassedOver l.lineage = false
        ∧ x = l.creation := by
  rw [Tree.locations, ← mem_creations_ofTree ht fun _ _ _ => rfl, hroot]
  rfl

namespace Model

/-- Types are filed for the creations that are not passed over, and only for them. The shape of
    such a type is a matter of the creation, and its fields have the types that are filed for the
    values. -/
theorem shape?_creation {t : Tree} (ht : t.Conforms) (hpos : ∀ x ∈ t.leaves, 0 < x.width)
    {children : List Tree} (hroot : t = .node .root children) {l : Location}
    (hl : l ∈ t.locations) (hkind : l.node.kind = .anonObjectCreation) :
    match (ofTree t).1.typeOf? l with
    | some type => isPassedOver l.lineage = false
      ∧ ∃ shape, (ofTree t).1.registry.shape? type = some shape ∧ l.creation.IsOfShape shape
        ∧ ∀ fields, shape = .anonymous fields →
          Typing.IsFilled (ofTree t).1.records l.node.anonMembers fields
    | none => isPassedOver l.lineage = true := by
  have hgrows := Types.DeclaredTypes.grows_collect (Program.SourceFile.ofTree t)
    Types.Registry.initial
  have hfound : ∀ declared, Typing.Found _ _ (Typing.typeFile declared _ _) := fun declared =>
    Typing.found_typeFile (Program.SourceFile.ofTree t)
      (hgrows.isSound Types.Registry.isSound_initial)
  rcases hfound (Types.DeclaredTypes.collect (Program.SourceFile.ofTree t)
    Types.Registry.initial).1 with ⟨_, new, hnew, honly, hall⟩
  have hrecords : (ofTree t).1.records = new := hnew.trans (List.append_nil new)
  rw [typeOf?, typeAt?, hrecords, hkind]
  cases hfind : new.find? fun r => r.1 == ⟨.anonObjectCreation, l.span⟩ with
  | none =>
      cases hover : isPassedOver l.lineage with
      | true => rfl
      | false =>
          have hcreation := (mem_creationsOfItems ht hroot).mpr ⟨l, hl, hkind, hover, rfl⟩
          rcases hall _ hcreation with ⟨r, hr, hkey⟩
          have hnot := List.find?_eq_none.mp hfind r hr
          rw [hkey] at hnot
          exact absurd (beq_self_eq_true _) hnot
  | some r =>
      have hkey : r.1 = ⟨.anonObjectCreation, l.span⟩ := by
        have hbeq := List.find?_some hfind
        exact eq_of_beq hbeq
      rcases honly r (List.mem_of_find?_eq_some hfind) (by rw [hkey]) with
        ⟨c, hc, hspan, shape, hshape, hof, hfilled⟩
      rcases (mem_creationsOfItems ht hroot).mp hc with ⟨l', hl', hkind', hover, rfl⟩
      rw [hkey] at hspan
      have hsame := Syntax.eq_of_span_eq ht hpos hl' hl hkind' hkind hspan
      rw [hsame] at hover hof hfilled
      have hfields : ∀ fields, shape = .anonymous fields →
          Typing.IsFilled (ofTree t).1.records l.node.anonMembers fields := hfilled
      rw [hrecords] at hfields
      exact ⟨hover, shape, hshape, hof, hfields⟩

/-- The type that is filed for a creation is anonymous if the members could be named. -/
theorem typeAt?_creation {t : Tree} (ht : t.Conforms) (hpos : ∀ x ∈ t.leaves, 0 < x.width)
    {children : List Tree} (hroot : t = .node .root children) {l : Location}
    (hl : l ∈ t.locations) (hkind : l.node.kind = .anonObjectCreation) :
    match (ofTree t).1.typeOf? l with
    | some type => isPassedOver l.lineage = false
      ∧ ((ofTree t).1.isStructural type = true ↔ l.IsNameable)
    | none => isPassedOver l.lineage = true := by
  have hfiled := shape?_creation ht hpos hroot hl hkind
  cases htype : (ofTree t).1.typeOf? l with
  | none =>
      rw [htype] at hfiled
      exact hfiled
  | some type =>
      rw [htype] at hfiled
      rcases hfiled with ⟨hover, shape, hshape, hof, _⟩
      refine ⟨hover, ?_⟩
      rw [Location.isNameable_iff hkind, ← hof.isAnonymous, isStructural,
        Types.Registry.isAnonymous, hshape]
      rfl

end Model

/-- The candidate sites are the creations whose members all have a name of their own and that
    typing does not pass over, in the order of the text. -/
theorem locations_sites {source : String} {d : Document} (hd : Document.parse source = .ok d) :
    d.sites.map Site.location
        = d.tree.locations.filter fun l => decide l.IsNameable && !isPassedOver l.lineage := by
  rcases Document.parse_eq_ok hd with ⟨_, hleaves, hconforms, hmodel, parsed, hparsed, htree, _⟩
  rcases Grammar.kind_parseLexemes hparsed with ⟨children, hroot⟩
  rw [← htree] at hroot
  have hpos : ∀ x ∈ d.tree.leaves, 0 < x.width := hleaves ▸ Syntax.pos_of_mem_lex source
  rw [Document.sites, Model.sites, List.map_filterMap, ← List.filterMap_eq_filter]
  refine List.filterMap_congr fun l hl => ?_
  rw [Model.siteOf?]
  split
  · next hkind =>
      have htype := Model.typeAt?_creation hconforms hpos hroot hl hkind
      rw [← hmodel] at htype
      cases hfound : d.model.typeOf? l with
      | none =>
          rw [hfound] at htype
          simp [htype, Option.guard]
      | some type =>
          rw [hfound] at htype
          rcases htype with ⟨hover, hstructural⟩
          by_cases hnameable : l.IsNameable
          · simp [hover, hnameable, hstructural.mpr hnameable, Option.guard]
          · have hplain : ¬ d.model.isStructural type = true := fun h =>
              hnameable (hstructural.mp h)
            simp [hnameable, hplain, Option.guard]
  · next hkind =>
      have hnot : ¬ l.IsNameable := fun h => hkind h.1
      simp [hnot, Option.guard]

/-- All creations whose members have a name of their own are candidate sites, each once and in
    the order of the text, exactly if typing passes over none of them. Those that it passes
    over are the ones that are missing. -/
theorem sites_complete_iff {source : String} {d : Document} (hd : Document.parse source = .ok d) :
    d.sites.map Site.location
        = d.tree.locations.filter (fun l => decide l.IsNameable && !isPassedOver l.lineage)
      ∧ (d.sites.map Site.location = d.tree.locations.filter (fun l => decide l.IsNameable) ↔
        ∀ l ∈ d.tree.locations, l.IsNameable → isPassedOver l.lineage = false) := by
  have hsites := locations_sites hd
  refine ⟨hsites, ?_, fun h => ?_⟩
  · intro hcomplete l hl hnameable
    have hmem : l ∈ d.tree.locations.filter (fun l => decide l.IsNameable) :=
      List.mem_filter.mpr ⟨hl, decide_eq_true hnameable⟩
    rw [← hcomplete, hsites, List.mem_filter, Bool.and_eq_true, Bool.not_eq_true'] at hmem
    exact hmem.2.2
  · rw [hsites]
    refine List.filter_congr fun l hl => ?_
    by_cases hnameable : l.IsNameable
    · rw [h l hl hnameable, Bool.not_false, Bool.and_true]
    · rw [decide_eq_false hnameable, Bool.false_and]

/-- In the expression that a constructor consists of, a creation is missing, although there is
    no mistake in the source. -/
theorem sites_incomplete_constructor :
    ∃ d, Document.parse "class C { C() => f(new { A = 1 }); }" = .ok d ∧ d.diagnostics = []
      ∧ d.sites.map Site.location
        = d.tree.locations.filter (fun l => decide l.IsNameable && !isPassedOver l.lineage)
      ∧ (d.sites.map Site.location = d.tree.locations.filter (fun l => decide l.IsNameable) ↔
        ∀ l ∈ d.tree.locations, l.IsNameable → isPassedOver l.lineage = false)
      ∧ d.sites.length = 0 ∧ (d.tree.locations.filter fun l => decide l.IsNameable).length = 1 := by
  have hok : ((Document.parse "class C { C() => f(new { A = 1 }); }").toOption.any fun d =>
      d.diagnostics.isEmpty && d.sites.length == 0
        && (d.tree.locations.filter fun l => decide l.IsNameable).length == 1) = true := by
    decide +kernel
  cases hd : Document.parse "class C { C() => f(new { A = 1 }); }" with
  | error failure =>
      rw [hd] at hok
      cases hok
  | ok d =>
      simp only [hd, Except.toOption, Option.any_some, Bool.and_eq_true, List.isEmpty_iff,
        beq_iff_eq] at hok
      rcases hok with ⟨⟨hclean, hnone⟩, hone⟩
      rcases sites_complete_iff hd with ⟨hsites, hcomplete⟩
      exact ⟨d, rfl, hclean, hsites, hcomplete, hnone, hone⟩

end Nominal
