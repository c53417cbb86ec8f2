import Nominal.Proofs.Preview

/-!
# What Is Left When Everything Is Extracted

Extracting everything stops at a document of which no type can be extracted. A type is tried at
its first site only, though, and what is in the way there need not be in the way at a later one:
the first site may stand in a type with several declarations, or inside a lambda. So something
can still be extracted from the document at a later site of a refused type. Such a site is in
another container than the first one, because sites of one type in one container have the same
plan.

## Main definitions

* `Document.extractFrom`: The extraction that starts from a site.

## Theorems

* `extractNext?_fixUpTo`: No type of the last document can be extracted.
* `planAt_congr`: Sites of one type in one container have the same plan.
* `fixAll_leaves_later`: What can still be extracted stands behind a site of the same type in
  another container, from which it cannot.
-/

namespace Nominal

open Syntax (Tree)

namespace Document

variable {d : Document} {request : Request}

/-- The extraction that starts from a site. -/
def extractFrom (d : Document) (site : Site) (request : Request) : Except Refusal Extraction := do
  (← d.model.planAt d.tree site request).apply d.model request.isCancelled

/-- Extracting everything ends with a document of which no type can be extracted. -/
theorem extractNext?_fixUpTo {n : Nat} {f : FixAll} (hd : Document.parse d.source = .ok d)
    (h : fixUpTo request n d = .ok f) :
    ∃ last, Document.parse f.text = .ok last ∧ last.extractNext? request = none := by
  induction n generalizing d f with
  | zero => cases h
  | succ n ih =>
      rw [fixUpTo] at h
      split at h
      · next hnone =>
          cases h
          exact ⟨d, hd, hnone⟩
      · split at h
        · cases h
        · next next hnext =>
            cases hrest : fixUpTo request n next with
            | error failure =>
                rw [hrest] at h
                cases h
            | ok g =>
                rw [hrest] at h
                cases h
                have hsource := (Document.parse_eq_ok hnext).1
                have hagain : Document.parse next.source = .ok next := hsource.symm ▸ hnext
                rcases ih hagain hrest with ⟨last, hlast⟩
                exact ⟨last, hlast⟩

/-- Where no type can be extracted, none can from its first site. -/
theorem extractFrom_first (h : d.extractNext? request = none) {site : Site} (hsite : site ∈ d.sites)
    (hcheck : request.check = .ok ()) :
    ∃ first, (d.sites.find? fun s => s.type == site.type) = some first
      ∧ ∃ refusal, d.extractFrom first request = .error refusal := by
  have htarget : site.type ∈ d.targets :=
    List.mem_eraseDups.mpr (List.mem_map.mpr ⟨site, hsite, rfl⟩)
  have hrefused := List.findSome?_eq_none_iff.mp h site.type htarget
  cases hfirst : d.sites.find? fun s => s.type == site.type with
  | none => exact absurd (beq_self_eq_true site.type) (List.find?_eq_none.mp hfirst site hsite)
  | some first =>
      refine ⟨first, rfl, ?_⟩
      have hextract : d.model.extract d.tree site.type request = d.extractFrom first request := by
        have hplan : d.model.plan d.tree site.type request
            = d.model.planAt d.tree first request := by
          simp only [Model.plan, hcheck, bind, Except.bind]
          rw [show (d.model.sites d.tree).find? _ = some first from hfirst]
        rw [Model.extract, hplan]
        rfl
      rw [hextract] at hrefused
      cases hfrom : d.extractFrom first request with
      | error refusal => exact ⟨refusal, rfl⟩
      | ok e =>
          rw [hfrom] at hrefused
          cases hrefused

end Document

/-- Sites of one type in one container have the same plan. -/
theorem planAt_congr {m : Model} {t : Tree} {anchor anchor' : Site}
    (hcontainer : anchor.location.outermost? .typeDecl = anchor'.location.outermost? .typeDecl)
    (htype : anchor.type = anchor'.type) (request : Request) :
    m.planAt t anchor request = m.planAt t anchor' request := by
  have hscope : m.scopeOf anchor.location = m.scopeOf anchor'.location := by
    rw [Model.scopeOf, Model.scopeOf, hcontainer]
  rw [Model.planAt, Model.planAt, hscope, htype]

/-- Where something is left that can be extracted from a site, there is an earlier site of the
    same type in another container, from which it cannot be extracted. -/
theorem fixAll_leaves_later {source : String} {d last : Document} {request : Request} {f : FixAll}
    {site : Site} {e : Extraction} (hd : Document.parse source = .ok d)
    (hf : d.fixAll request = .ok f) (hlast : Document.parse f.text = .ok last)
    (hsite : site ∈ last.sites) (he : last.extractFrom site request = .ok e) :
    ∃ first ∈ last.sites, first.type = site.type
      ∧ first.location.path < site.location.path
      ∧ first.location.outermost? .typeDecl ≠ site.location.outermost? .typeDecl
      ∧ ∃ refusal, last.extractFrom first request = .error refusal := by
  have hnone : last.extractNext? request = none := by
    have hsource := (Document.parse_eq_ok hd).1
    rcases Document.extractNext?_fixUpTo (hsource ▸ hd) hf with ⟨last', hlast', hnone⟩
    rw [hlast] at hlast'
    cases hlast'
    exact hnone
  have hcheck : request.check = .ok () := by
    rw [Request.check]
    split
    · next hcancelled =>
        simp only [Document.extractFrom, Model.planAt, Request.check, if_pos hcancelled, bind,
          Except.bind] at he
        cases he
    · rfl
  rcases Document.extractFrom_first hnone hsite hcheck with ⟨first, hfirst, refusal, hrefused⟩
  have htype : first.type = site.type := by simpa using List.find?_some hfirst
  refine ⟨first, List.mem_of_find?_eq_some hfirst, htype, ?_, fun hcontainer => ?_, refusal,
    hrefused⟩
  · rcases List.find?_eq_some_iff_append.mp hfirst with ⟨_, front, back, hsplit, hfront⟩
    have hordered : last.sites.Pairwise fun a b => a.location.path < b.location.path :=
      Model.pairwise_sites last.model last.tree
    rw [hsplit] at hordered
    rw [hsplit, List.mem_append, List.mem_cons] at hsite
    rcases hsite with hbefore | rfl | hbehind
    · have hother := hfront site hbefore
      rw [beq_self_eq_true] at hother
      cases hother
    · rw [hrefused] at he
      cases he
    · exact (List.pairwise_cons.mp (List.pairwise_append.mp hordered).2.1).1 site hbehind
  · have hsame : last.extractFrom first request = last.extractFrom site request := by
      rw [Document.extractFrom, planAt_congr hcontainer htype]
      rfl
    rw [hsame, he] at hrefused
    cases hrefused

/-- A type is left in a class of its own when the first site is in a type that is declared twice. -/
theorem fixAll_leaves_later_scattered :
    ∃ d f last site e, Document.parse ("partial class P { void M() { var a = new { A = 1 }; } } "
        ++ "partial class P { } class C { void M() { var b = new { A = 2 }; } }") = .ok d
      ∧ d.fixAll Request.plain = .ok f ∧ Document.parse f.text = .ok last
      ∧ site ∈ last.sites ∧ last.extractFrom site Request.plain = .ok e
      ∧ ∃ first ∈ last.sites, first.type = site.type
        ∧ first.location.path < site.location.path
        ∧ first.location.outermost? .typeDecl ≠ site.location.outermost? .typeDecl
        ∧ ∃ refusal, last.extractFrom first Request.plain = .error refusal := by
  generalize hsource : "partial class P { void M() { var a = new { A = 1 }; } } "
    ++ "partial class P { } class C { void M() { var b = new { A = 2 }; } }" = source
  have hleft : ((Document.parse source).toOption.any fun d => (d.extractNext? Request.plain).isNone
      && d.sites.any fun site => (d.extractFrom site Request.plain).toOption.isSome) = true := by
    rw [← hsource]
    decide +kernel
  rcases (Option.any_eq_true _ _).mp hleft with ⟨d, hd, hboth⟩
  rw [Bool.and_eq_true, Option.isNone_iff_eq_none, List.any_eq_true] at hboth
  rcases hboth with ⟨hnone, site, hsite, hextracted⟩
  cases hparse : Document.parse source with
  | error failure => rw [hparse] at hd; cases hd
  | ok d' =>
      rw [hparse] at hd
      cases hd
      cases he : d.extractFrom site Request.plain with
      | error refusal => rw [he] at hextracted; cases hextracted
      | ok e =>
          have hf : d.fixAll Request.plain = .ok ⟨d.source, []⟩ := by
            rw [Document.fixAll, Document.fixUpTo, hnone]
          have hlast : Document.parse d.source = .ok d := by
            rw [(Document.parse_eq_ok hparse).1, hparse]
          exact ⟨d, _, d, site, e, rfl, hf, hlast, hsite, he,
            fixAll_leaves_later hparse hf hlast hsite he⟩

end Nominal
