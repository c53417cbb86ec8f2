import Mathlib.Data.List.Chain
import Nominal.Diagnostic.Filter
import Nominal.Grammar.Parse

/-!
# What Stays Shown

Diagnostics are gone through in their order, and one that is not hidden when its turn comes
hides others. Say that it acts. It may be hidden later on, but what it has hidden stays
hidden: a diagnostic stays shown exactly if nothing that acts hides it.

So everything about hiding follows from two facts about those that act. They stand in the
order of the list, and none of them is hidden by one that acted before. Whoever acts and is
hidden all the same is hidden by one that acts later. Going from a hidden diagnostic to one
that hides it, and on from there, leads forward through the list and ends at one that is
shown.

The way may be longer than one step. Then the last one on it need not hide the first: a
diagnostic may be hidden although nothing that is shown hides it. This takes a diagnostic
that hides an earlier one, as a delimiter that is never closed hides what was left out behind
it and reported before.

## Main definitions

* `Diagnostic.isHiddenBy`: Some of several diagnostics hides another one.
* `Diagnostic.actingAfter`: Those that act when some have acted already.
* `Diagnostic.markedBy`: The marks of diagnostics when some have acted.

## Theorems

* `Diagnostic.filtered_eq`: What stays shown is what nothing that acts hides.
* `Diagnostic.pairwise_actingAfter`: Nothing that acts is hidden by what acted before.
* `Diagnostic.exists_chain`: From one that acts a way leads forward to one that is shown.
* `Diagnostic.filtered_stable`: Hiding keeps the order and the findings, leaves some mistake if
  there was one, and leaves nothing to hide.
* `Diagnostic.hidden_without_cause`: A diagnostic may be hidden though nothing shown hides it.
* `Diagnostic.hidden_behind_shown`: A way leads from every hidden diagnostic to one that is
  shown, and it has one step where none hides an earlier one.
-/

namespace Nominal

namespace Diagnostic

variable {a b d : Diagnostic} {before ds hs : List Diagnostic}

/-! ### Those that act -/

/-- Whether some of the diagnostics `hs` hides `d`. -/
def isHiddenBy (hs : List Diagnostic) (d : Diagnostic) : Bool := hs.any fun h => h.hides d

theorem isHiddenBy_eq_false : isHiddenBy hs d = false ↔ ∀ h ∈ hs, h.hides d = false := by
  simp only [isHiddenBy, List.any_eq_false, Bool.not_eq_true]

/-- Those of the diagnostics `ds` that act when the ones in `before` have acted already. -/
def actingAfter : List Diagnostic → List Diagnostic → List Diagnostic
  | _, [] => []
  | before, d :: ds =>
    if isHiddenBy before d then actingAfter before ds else d :: actingAfter (before ++ [d]) ds

/-- Those that act stand in the order of the list. -/
theorem sublist_actingAfter (before ds : List Diagnostic) :
    (actingAfter before ds).Sublist ds := by
  induction ds generalizing before with
  | nil => exact List.Sublist.refl []
  | cons d ds ih =>
      by_cases hd : isHiddenBy before d
      · rw [actingAfter, if_pos hd]
        exact (ih before).cons d
      · rw [actingAfter, if_neg hd]
        exact (ih (before ++ [d])).cons_cons d

/-- Nothing that acts is hidden by what acted before. -/
theorem pairwise_actingAfter (h : before.Pairwise fun a b => a.hides b = false) (ds) :
    (before ++ actingAfter before ds).Pairwise fun a b => a.hides b = false := by
  induction ds generalizing before with
  | nil => rwa [actingAfter, List.append_nil]
  | cons d ds ih =>
      by_cases hd : isHiddenBy before d
      · rw [actingAfter, if_pos hd]
        exact ih h
      · rw [actingAfter, if_neg hd, List.append_cons]
        refine ih (List.pairwise_append.mpr ⟨h, List.pairwise_singleton _ d, fun a ha b hb => ?_⟩)
        rw [List.mem_singleton.mp hb]
        exact isHiddenBy_eq_false.mp (Bool.eq_false_iff.mpr hd) a ha

/-- What nothing that acts hides acts itself when its turn comes. -/
theorem mem_actingAfter (hd : d ∈ ds)
    (hshown : isHiddenBy (before ++ actingAfter before ds) d = false) :
    d ∈ actingAfter before ds := by
  induction ds generalizing before with
  | nil => cases hd
  | cons e ds ih =>
      by_cases he : isHiddenBy before e
      · rw [actingAfter, if_pos he] at hshown ⊢
        -- The head is hidden already, so it is not the one in question.
        rcases List.mem_cons.mp hd with rfl | hd
        · rw [isHiddenBy, List.any_append, Bool.or_eq_false_iff] at hshown
          exact absurd hshown.1 (Bool.not_eq_false _ ▸ he)
        · exact ih hd hshown
      · rw [actingAfter, if_neg he] at hshown ⊢
        rcases List.mem_cons.mp hd with rfl | hd
        · exact List.mem_cons_self
        · rw [List.append_cons] at hshown
          exact List.mem_cons_of_mem e (ih hd hshown)

/-! ### Marks -/

/-- The marks of diagnostics when the ones in `hs` have acted. -/
def markedBy (hs ds : List Diagnostic) : List (Diagnostic × Bool) :=
  ds.map fun d => (d, !isHiddenBy hs d)

/-- A turn adds to those that have acted whom it falls to, unless that one is hidden. -/
theorem strike_markedBy {behind : List Diagnostic} (hs : List Diagnostic) :
    strike (markedBy hs (before ++ d :: behind)) before.length =
      markedBy (if isHiddenBy hs d then hs else hs ++ [d]) (before ++ d :: behind) := by
  have hmark : (markedBy hs (before ++ d :: behind))[before.length]? =
      some (d, !isHiddenBy hs d) := by
    rw [markedBy, List.getElem?_map, List.getElem?_append_right (Nat.le_refl _), Nat.sub_self]
    rfl
  by_cases hd : isHiddenBy hs d
  · rw [strike, hmark, hd, if_pos rfl]
    rfl
  · rw [strike, hmark, Bool.eq_false_iff.mpr hd, if_neg Bool.false_ne_true]
    refine List.map_map.trans (List.map_congr_left fun e _ => Prod.ext rfl ?_)
    simp only [Function.comp_apply, isHiddenBy, List.any_append, List.any_cons, List.any_nil,
      Bool.or_false, Bool.not_or]

/-- All turns together: induction on those whose turn is still to come. -/
theorem foldl_strike (hs before ds : List Diagnostic) :
    (List.range' before.length ds.length).foldl strike (markedBy hs (before ++ ds)) =
      markedBy (hs ++ actingAfter hs ds) (before ++ ds) := by
  induction ds generalizing hs before with
  | nil => rw [actingAfter, List.append_nil, List.append_nil]; rfl
  | cons d ds ih =>
      have hrest := ih (if isHiddenBy hs d then hs else hs ++ [d]) (before ++ [d])
      rw [List.length_append, List.length_singleton, List.append_cons before d ds |>.symm] at hrest
      rw [List.length_cons, List.range'_succ, List.foldl_cons, strike_markedBy, hrest, actingAfter]
      by_cases hd : isHiddenBy hs d
      · rw [if_pos hd, if_pos hd]
      · rw [if_neg hd, if_neg hd, List.append_assoc, List.singleton_append]

/-- What stays shown is what nothing that acts hides. -/
theorem filtered_eq (ds : List Diagnostic) :
    filtered ds = ds.filter fun d => !isHiddenBy (actingAfter [] ds) d := by
  have hmarked : marked ds = markedBy (actingAfter [] ds) ds := by
    have hall := foldl_strike [] [] ds
    rwa [List.length_nil, ← List.range_eq_range', List.nil_append, List.nil_append] at hall
  rw [filtered, hmarked, markedBy, List.filter_map, List.map_map]
  exact List.map_id _

theorem mem_filtered :
    d ∈ filtered ds ↔ d ∈ ds ∧ ∀ h ∈ actingAfter [] ds, h.hides d = false := by
  rw [filtered_eq, List.mem_filter, Bool.not_eq_true', isHiddenBy_eq_false]

/-! ### Ways to what is shown -/

/-- From one that acts a way leads forward, from each to one that hides it, up to one that
    nothing hides. -/
theorem exists_chain (h : hs.Pairwise fun a b => a.hides b = false) {front back : List Diagnostic}
    (hsplit : hs = front ++ back) (ha : a ∈ back) :
    ∃ chain : List Diagnostic, (a :: chain).Sublist back ∧
      (a :: chain).IsChain (fun x y => y.hides x = true) ∧
      ∃ k, (a :: chain).getLast? = some k ∧ ∀ h ∈ hs, h.hides k = false := by
  induction back generalizing a front with
  | nil => cases ha
  | cons e back ih =>
      have hback : hs = (front ++ [e]) ++ back := by rw [hsplit, List.append_cons]
      rcases List.mem_cons.mp ha with rfl | ha
      · by_cases hshown : isHiddenBy hs a
        · -- Whoever hides `a` acted neither before it nor at its turn, so it acts later.
          rcases List.any_eq_true.mp hshown with ⟨b, hb, hhides⟩
          rw [hsplit, List.mem_append, List.mem_cons] at hb
          rw [hsplit, List.pairwise_append] at h
          rcases hb with hb | rfl | hb
          · exact absurd hhides (Bool.eq_false_iff.mp (h.2.2 b hb a List.mem_cons_self))
          · exact absurd hhides (Bool.eq_false_iff.mp (not_hides_self b))
          · rcases ih hback hb with ⟨chain, hsub, hchain, k, hk, hfree⟩
            refine ⟨b :: chain, hsub.cons_cons a, .cons_cons hhides hchain, k, ?_, hfree⟩
            rw [List.getLast?_cons_cons, hk]
        · exact ⟨[], List.singleton_sublist.mpr List.mem_cons_self, List.IsChain.singleton a, a, rfl,
            isHiddenBy_eq_false.mp (Bool.eq_false_iff.mpr hshown)⟩
      · rcases ih hback ha with ⟨chain, hsub, hchain⟩
        exact ⟨chain, hsub.cons e, hchain⟩

/-- A way leads from every hidden diagnostic to one that is shown. -/
theorem exists_chain_of_hidden (hd : d ∈ ds) (hhidden : d ∉ filtered ds) :
    ∃ chain : List Diagnostic, chain.Sublist ds ∧
      (d :: chain).IsChain (fun x y => y.hides x = true) ∧
      ∃ k, chain.getLast? = some k ∧ k ∈ filtered ds := by
  have hacting : (actingAfter [] ds).Pairwise fun a b => a.hides b = false :=
    pairwise_actingAfter List.Pairwise.nil ds
  by_cases hsome : isHiddenBy (actingAfter [] ds) d
  · rcases List.any_eq_true.mp hsome with ⟨a, ha, hhides⟩
    rcases exists_chain hacting (List.nil_append _).symm ha with ⟨chain, hsub, hchain, k, hk, hfree⟩
    have hsub' := hsub.trans (sublist_actingAfter [] ds)
    exact ⟨a :: chain, hsub', .cons_cons hhides hchain, k, hk,
      mem_filtered.mpr ⟨hsub'.subset (List.mem_of_getLast? hk), hfree⟩⟩
  · exact absurd (mem_filtered.mpr ⟨hd, isHiddenBy_eq_false.mp (Bool.eq_false_iff.mpr hsome)⟩) hhidden

/-! ### Findings -/

/-- Whoever hides something is no finding, and neither is what it hides. -/
theorem not_isFinding_of_hides (h : a.hides b = true) :
    a.kind.isFinding = false ∧ b.kind.isFinding = false := by
  rw [hides, Bool.and_eq_true, Bool.and_eq_true, Bool.not_eq_true', Bool.not_eq_true'] at h
  exact h.1

/-- A finding stays shown. -/
theorem shown_of_isFinding (hd : d ∈ ds) (hfinding : d.kind.isFinding = true) :
    d ∈ filtered ds := by
  refine mem_filtered.mpr ⟨hd, fun h _ => Bool.eq_false_iff.mpr fun hhides => ?_⟩
  rw [(not_isFinding_of_hides hhides).2] at hfinding
  exact Bool.false_ne_true hfinding

/-! ### Hiding once and twice -/

/-- Nothing that is shown hides anything that is shown. -/
theorem not_hides_of_shown (ha : a ∈ filtered ds) (hb : b ∈ filtered ds) : a.hides b = false := by
  rw [mem_filtered] at ha
  -- What is shown has acted, and what has acted hides nothing that is shown.
  have hacts : a ∈ actingAfter [] ds := mem_actingAfter ha.1 (isHiddenBy_eq_false.mpr ha.2)
  exact (mem_filtered.mp hb).2 a hacts

/-- Where nothing hides anything, everything stays shown. -/
theorem filtered_of_not_hides (h : ∀ a ∈ ds, ∀ b ∈ ds, a.hides b = false) : filtered ds = ds := by
  rw [filtered_eq, List.filter_eq_self]
  intro d hd
  rw [Bool.not_eq_true', isHiddenBy_eq_false]
  exact fun a ha => h a ((sublist_actingAfter [] ds).subset ha) d hd

/-- What stays shown stands in the order of the list. It has all findings, and some mistake if
    there was one. Nothing of it hides anything of it, so that hiding once more changes nothing. -/
theorem filtered_stable (ds : List Diagnostic) :
    (filtered ds).Sublist ds ∧
      (filtered ds).filter (fun d => d.kind.isFinding) = ds.filter (fun d => d.kind.isFinding) ∧
      ((filtered ds).any fun d => !d.kind.isFinding) = (ds.any fun d => !d.kind.isFinding) ∧
      (∀ a ∈ filtered ds, ∀ b ∈ filtered ds, a.hides b = false) ∧
      filtered (filtered ds) = filtered ds := by
  have hsub : (filtered ds).Sublist ds := filtered_eq ds ▸ List.filter_sublist
  have hsettled : ∀ a ∈ filtered ds, ∀ b ∈ filtered ds, a.hides b = false :=
    fun a ha b hb => not_hides_of_shown ha hb
  refine ⟨hsub, ?_, ?_, hsettled, filtered_of_not_hides hsettled⟩
  · rw [filtered_eq, List.filter_filter]
    refine List.filter_congr fun d hd => ?_
    by_cases hfinding : d.kind.isFinding
    · have hshown := shown_of_isFinding hd hfinding
      rw [filtered_eq, List.mem_filter] at hshown
      rw [hshown.2, Bool.and_true]
    · rw [Bool.eq_false_iff.mpr hfinding, Bool.false_and]
  · rw [Bool.eq_iff_iff, List.any_eq_true, List.any_eq_true]
    constructor
    · rintro ⟨d, hd, hmistake⟩
      exact ⟨d, hsub.subset hd, hmistake⟩
    · rintro ⟨d, hd, hmistake⟩
      by_cases hshown : d ∈ filtered ds
      · exact ⟨d, hshown, hmistake⟩
      · -- The way from a hidden mistake ends at something that is shown and hides.
        rcases exists_chain_of_hidden hd hshown with ⟨chain, _, hchain, k, hk, hkshown⟩
        have hmistakes : ∀ x ∈ d :: chain, (!x.kind.isFinding) = true :=
          hchain.induction (fun x => (!x.kind.isFinding) = true) _
            (fun x y hhides _ => Bool.not_eq_true' _ ▸ (not_isFinding_of_hides hhides).1)
            fun _ => hmistake
        exact ⟨k, hkshown, hmistakes k (List.mem_cons_of_mem d (List.mem_of_getLast? hk))⟩

/-! ### Hidden by something that is hidden -/

/-- What can be checked of the outcome of parsing holds of what has been parsed. -/
theorem exists_parsed {source : String} {P : Grammar.Parsed → Prop} [DecidablePred P]
    (h : ((Grammar.parse source).toOption.any fun parsed => decide (P parsed)) = true) :
    ∃ parsed, Grammar.parse source = .ok parsed ∧ P parsed := by
  cases hparse : Grammar.parse source with
  | ok parsed =>
      rw [hparse] at h
      exact ⟨parsed, rfl, of_decide_eq_true h⟩
  | error failure =>
      rw [hparse] at h
      cases h

/-- Something may be hidden although nothing that is shown hides it. The type that is left out
    behind the parenthesis hides the semicolon that is left out at the end, and only then the
    parenthesis, which is never closed, hides the type. -/
theorem hidden_without_cause : ∃ parsed, Grammar.parse "foreach (1 in xs) ;" = .ok parsed ∧
    ∃ d ∈ parsed.diagnostics, d ∉ filtered parsed.diagnostics ∧
      ∀ k ∈ filtered parsed.diagnostics, k.hides d = false :=
  exists_parsed (by decide +kernel)

/-- Behind everything that is hidden there is something shown: a way leads from one to the other
    along diagnostics that stand in the order of the list, each of which hides the one before it
    on the way. It has a single step where no diagnostic hides one that stands before it. -/
theorem hidden_behind_shown (hd : d ∈ ds) (hhidden : d ∉ filtered ds) :
    (∃ chain : List Diagnostic, chain.Sublist ds ∧
      (d :: chain).IsChain (fun x y => y.hides x = true) ∧
      ∃ k, chain.getLast? = some k ∧ k ∈ filtered ds) ∧
    ((ds.Pairwise fun x y => y.hides x = false) → ∃ k ∈ filtered ds, k.hides d = true) := by
  have hway := exists_chain_of_hidden hd hhidden
  refine ⟨hway, fun hforward => ?_⟩
  rcases hway with ⟨chain, hsub, hchain, k, hk, hkshown⟩
  cases hchain with
  | singleton => cases hk
  | @cons_cons _ a rest hhides hrest =>
      cases hrest with
      | singleton =>
          cases hk
          exact ⟨a, hkshown, hhides⟩
      | @cons_cons _ b rest hback hrest =>
          -- A second step leads to one that stands behind `a` and hides it.
          have hnot := (List.pairwise_cons.mp (hforward.sublist hsub)).1 b List.mem_cons_self
          exact absurd hback (Bool.eq_false_iff.mp hnot)

/-- The semicolon that is left out is hidden, and a way leads from it to something shown. -/
theorem hidden_behind_shown_parenthesis :
    ∃ parsed, Grammar.parse "foreach (1 in xs) ;" = .ok parsed ∧
      ∃ d ∈ parsed.diagnostics, d.kind = .missingSemicolon ∧ d ∉ filtered parsed.diagnostics ∧
        ∃ chain : List Diagnostic, chain.Sublist parsed.diagnostics ∧
          (d :: chain).IsChain (fun x y => y.hides x = true) ∧
          ∃ k, chain.getLast? = some k ∧ k ∈ filtered parsed.diagnostics := by
  have hsome : ∃ parsed, Grammar.parse "foreach (1 in xs) ;" = .ok parsed ∧
      ∃ d ∈ parsed.diagnostics, d.kind = .missingSemicolon ∧ d ∉ filtered parsed.diagnostics :=
    exists_parsed (by decide +kernel)
  rcases hsome with ⟨parsed, hparse, d, hd, hkind, hhidden⟩
  exact ⟨parsed, hparse, d, hd, hkind, hhidden, (hidden_behind_shown hd hhidden).1⟩

end Diagnostic

end Nominal
