import Mathlib.Data.List.Infix
import Nominal.Proofs.Freshness

/-!
# The Preview Is the Outcome

The sites of a plan and the creations that get a name are found in two ways. The sites are
those of the whole tree, and of these the ones that stand inside the container. The creations
are come by on a walk through the container. Both ways meet the same creations in the same
order, which is the order of the text.

A place in a tree is told by its path. One path comes before another if the two part at some
node and the first one goes on to an earlier child, or if the first one ends there. This is the
order in which the nodes of a tree are listed, and no two of them have the same path.

## Main definitions

* `Model.PlansFrom`: A plan starts from a site.

## Theorems

* `pairwise_locations`: The nodes of a tree are listed in the order of their paths.
* `filter_isWithin`: The nodes inside a node are the node and those below it.
* `Model.locations_sitesWithin`: The sites of a type inside a node are the creations of the type.
* `preview_is_outcome`: Carrying out a plan names the sites of the plan, or fails if one of them
  is inside a lambda.
-/

namespace Nominal

open Syntax (Tree Kind Location Node)
open Nominal.Types (TypeId)

/-! ### Nodes in the order of their paths -/

namespace Syntax

mutual

theorem path_of_mem_locationsAt {t : Tree} {parent : Node} {above : List Node}
    {start index : Nat} {l : Location}
    (h : l ∈ Tree.locationsAt (parent :: above) start index t) :
    ∃ tail, l.path = Location.path ⟨parent, above⟩ ++ index :: tail := by
  cases t with
  | token lexeme => cases h
  | node kind children =>
      rw [Tree.locationsAt, List.mem_cons] at h
      rcases h with rfl | h
      · exact ⟨[], path_cons _ _ _⟩
      · rcases path_of_mem_locationsOf h with ⟨i, tail, _, hpath⟩
        refine ⟨i :: tail, ?_⟩
        rw [hpath, path_cons, List.append_assoc, List.singleton_append]

/-- The path of a node below another one goes on with the index of a child. -/
theorem path_of_mem_locationsOf {ts : List Tree} {parent : Node} {above : List Node}
    {start index : Nat} {l : Location}
    (h : l ∈ Tree.locationsOf (parent :: above) start index ts) :
    ∃ i tail, index ≤ i ∧ l.path = Location.path ⟨parent, above⟩ ++ i :: tail := by
  cases ts with
  | nil => cases h
  | cons t ts =>
      rw [Tree.locationsOf, List.mem_append] at h
      rcases h with h | h
      · rcases path_of_mem_locationsAt h with ⟨tail, hpath⟩
        exact ⟨index, tail, Nat.le_refl index, hpath⟩
      · rcases path_of_mem_locationsOf h with ⟨i, tail, hi, hpath⟩
        exact ⟨i, tail, Nat.le_of_succ_le hi, hpath⟩

end

mutual

theorem pairwise_locationsAt (above : List Node) (start index : Nat) (t : Tree) :
    (Tree.locationsAt above start index t).Pairwise fun a b => a.path < b.path := by
  cases t with
  | token lexeme => exact .nil
  | node kind children =>
      refine .cons (fun l hl => ?_) (pairwise_locationsOf _ above start 0 children)
      rcases path_of_mem_locationsOf hl with ⟨i, tail, _, hpath⟩
      have hlonger : Location.path ⟨⟨kind, children, start, index⟩, above⟩ ++ []
          < Location.path ⟨⟨kind, children, start, index⟩, above⟩ ++ i :: tail :=
        List.append_left_lt (List.nil_lt_cons i tail)
      rwa [List.append_nil, ← hpath] at hlonger

theorem pairwise_locationsOf (parent : Node) (above : List Node) (start index : Nat)
    (ts : List Tree) :
    (Tree.locationsOf (parent :: above) start index ts).Pairwise fun a b => a.path < b.path := by
  cases ts with
  | nil => exact .nil
  | cons t ts =>
      refine List.pairwise_append.mpr ⟨pairwise_locationsAt (parent :: above) start index t,
        pairwise_locationsOf parent above (start + t.width) (index + 1) ts, fun a ha b hb => ?_⟩
      rcases path_of_mem_locationsAt ha with ⟨tail, hpath⟩
      rcases path_of_mem_locationsOf hb with ⟨i, tail', hi, hpath'⟩
      rw [hpath, hpath']
      exact List.append_left_lt (List.cons_lt_cons_iff.mpr (.inl hi))

end

/-- The nodes of a tree are listed in the order of their paths. -/
theorem pairwise_locations (t : Tree) : t.locations.Pairwise fun a b => a.path < b.path :=
  pairwise_locationsAt [] 0 0 t

/-! ### Nodes inside a node -/

section Within

variable {l c : Location}

theorem isWithin_iff : l.isWithin c = true ↔ c.path <+: l.path := List.isPrefixOf_iff_prefix

/-- Where two paths part, neither node is inside the other. -/
theorem not_isWithin {path tail tail' : List Nat} {i j : Nat} (hl : l.path = path ++ i :: tail)
    (hc : c.path = path ++ j :: tail') (hij : i ≠ j) : l.isWithin c = false := by
  rw [Bool.eq_false_iff]
  intro hwithin
  rw [isWithin_iff, hl, hc, List.prefix_append_right_inj, List.cons_prefix_cons] at hwithin
  exact hij hwithin.1.symm

end Within

mutual

theorem split_locationsAt {t : Tree} {above : List Node} {start index : Nat} {c : Location}
    (h : c ∈ Tree.locationsAt above start index t) :
    ∃ front back, Tree.locationsAt above start index t = front ++ (c :: locationsBelow c) ++ back
      ∧ ∀ l ∈ front ++ back, l.isWithin c = false := by
  cases t with
  | token lexeme => cases h
  | node kind children =>
      rw [Tree.locationsAt, List.mem_cons] at h
      rcases h with rfl | h
      · refine ⟨[], [], ?_, nofun⟩
        rw [List.append_nil]
        rfl
      · rcases split_locationsOf h with ⟨front, back, hsplit, hout⟩
        refine ⟨_ :: front, back, by rw [Tree.locationsAt, hsplit]; rfl, ?_⟩
        rw [List.cons_append, List.forall_mem_cons]
        refine ⟨?_, hout⟩
        rcases path_of_mem_locationsOf h with ⟨i, tail, _, hpath⟩
        rw [Bool.eq_false_iff]
        intro hwithin
        have hlength := (isWithin_iff.mp hwithin).length_le
        rw [hpath, List.length_append, List.length_cons] at hlength
        omega

/-- A node and those below it stand in a row, and no other node is inside it. -/
theorem split_locationsOf {ts : List Tree} {parent : Node} {above : List Node}
    {start index : Nat} {c : Location}
    (h : c ∈ Tree.locationsOf (parent :: above) start index ts) :
    ∃ front back, Tree.locationsOf (parent :: above) start index ts
        = front ++ (c :: locationsBelow c) ++ back
      ∧ ∀ l ∈ front ++ back, l.isWithin c = false := by
  cases ts with
  | nil => cases h
  | cons t ts =>
      rw [Tree.locationsOf, List.mem_append] at h
      rw [Tree.locationsOf]
      rcases h with h | h
      · rcases split_locationsAt h with ⟨front, back, hsplit, hout⟩
        refine ⟨front, back ++ Tree.locationsOf (parent :: above) (start + t.width) (index + 1) ts,
          by rw [hsplit, List.append_assoc _ back], fun l hl => ?_⟩
        rw [← List.append_assoc, List.mem_append] at hl
        rcases hl with hl | hl
        · exact hout l hl
        · rcases path_of_mem_locationsOf hl with ⟨i, tail, hi, hpath⟩
          rcases path_of_mem_locationsAt h with ⟨tail', hpath'⟩
          exact not_isWithin hpath hpath' (by omega)
      · rcases split_locationsOf h with ⟨front, back, hsplit, hout⟩
        refine ⟨Tree.locationsAt (parent :: above) start index t ++ front, back,
          by rw [hsplit]; simp only [List.append_assoc], fun l hl => ?_⟩
        rw [List.append_assoc, List.mem_append] at hl
        rcases hl with hl | hl
        · rcases path_of_mem_locationsAt hl with ⟨tail, hpath⟩
          rcases path_of_mem_locationsOf h with ⟨i, tail', hi, hpath'⟩
          exact not_isWithin hpath hpath' (by omega)
        · exact hout l hl

end

/-- The nodes inside a node are the node and those below it. -/
theorem filter_isWithin {t : Tree} {c : Location} (h : c ∈ t.locations) :
    (t.locations.filter fun l => l.isWithin c) = c :: locationsBelow c := by
  rcases split_locationsAt h with ⟨front, back, hsplit, hout⟩
  have hnone : ∀ ls : List Location, (∀ l ∈ ls, l.isWithin c = false) →
      ls.filter (fun l => l.isWithin c) = [] :=
    fun ls hls => List.filter_eq_nil_iff.mpr fun l hl => Bool.eq_false_iff.mp (hls l hl)
  have hall : ∀ l ∈ c :: locationsBelow c, l.isWithin c = true := by
    intro l hl
    rw [isWithin_iff]
    rcases List.mem_cons.mp hl with rfl | hl
    · exact List.prefix_refl _
    · rcases path_of_mem_locationsOf hl with ⟨i, tail, _, hpath⟩
      exact ⟨i :: tail, hpath.symm⟩
  rw [Tree.locations, hsplit, List.filter_append, List.filter_append,
    hnone front fun l hl => hout l (List.mem_append_left back hl),
    hnone back fun l hl => hout l (List.mem_append_right front hl),
    List.filter_eq_self.mpr hall, List.nil_append, List.append_nil]

/-- The nodes above a node of a tree are nodes of the tree. -/
theorem mem_locations_of_suffix {t : Tree} {l c : Location} (hl : l ∈ t.locations)
    (h : c.lineage <:+ l.lineage) : c ∈ t.locations := by
  rcases l with ⟨n, above⟩
  induction above generalizing n with
  | nil =>
      rw [Location.lineage_eq, Location.lineage_eq, List.suffix_cons_iff] at h
      rcases h with heq | hnil
      · rw [List.cons.injEq] at heq
        have hsame : c = ⟨n, []⟩ := congrArg₂ Location.mk heq.1 heq.2
        exact hsame ▸ hl
      · exact absurd (List.suffix_nil.mp hnil) (List.cons_ne_nil _ _)
  | cons parent above ih =>
      rw [Location.lineage_eq, Location.lineage_eq, List.suffix_cons_iff] at h
      rcases h with heq | habove
      · rw [List.cons.injEq] at heq
        have hsame : c = ⟨n, parent :: above⟩ := congrArg₂ Location.mk heq.1 heq.2
        exact hsame ▸ hl
      · refine ih parent ?_ habove
        rcases mem_locationsAt_of_parent hl with hnone | hparent
        · cases hnone
        · exact hparent

/-- A node is inside the nodes above it. -/
theorem isWithin_of_suffix {l c : Location} (h : c.lineage <:+ l.lineage) :
    l.isWithin c = true := by
  have hprefix : (c.lineage.map Node.index).reverse <+: (l.lineage.map Node.index).reverse :=
    List.reverse_prefix.mpr (h.map Node.index)
  exact isWithin_iff.mpr (List.IsPrefix.drop hprefix 1)

end Syntax

/-! ### Sites and creations -/

namespace Model

variable {m : Model} {t : Tree}

/-- The sites of an anonymous type inside a node are the creations of the type. -/
theorem locations_sitesWithin {target : TypeId} (htarget : m.isStructural target = true)
    (c : Location) :
    (m.sitesWithin t target c).map Site.location
      = t.locations.filter fun l => m.creates target l && l.isWithin c := by
  have hsite : ∀ l : Location,
      ((m.siteOf? l).filter fun s => s.type == target && s.location.isWithin c).map Site.location
        = Option.guard (fun l => m.creates target l && l.isWithin c) l := by
    intro l
    rw [siteOf?, Option.guard, creates]
    split
    · next hkind =>
        rw [hkind, beq_self_eq_true, Bool.true_and]
        cases m.typeOf? l with
        | none => rfl
        | some type =>
            by_cases htype : type = target
            · subst htype
              simp only [if_pos htarget, Option.filter_some, beq_self_eq_true, Bool.true_and]
              cases l.isWithin c <;> rfl
            · have hother : (some type == some target) = false := by
                rw [beq_eq_false_iff_ne]
                exact fun h => htype (Option.some.inj h)
              simp only [hother, Bool.false_and, Bool.false_eq_true, if_false]
              split
              · rw [Option.filter_some, beq_eq_false_iff_ne.mpr htype]
                rfl
              · rfl
    · next hkind =>
        rw [beq_eq_false_iff_ne.mpr hkind]
        rfl
  rw [sitesWithin, sites, List.filter_filterMap, List.map_filterMap, ← List.filterMap_eq_filter]
  exact congrArg (List.filterMap · t.locations) (funext hsite)

/-- What a site tells of its place. -/
theorem siteOf?_eq_some {l : Location} {s : Site} (h : m.siteOf? l = some s) :
    s.location = l ∧ s.inLambda = l.isUnder .lambda ∧ m.isStructural s.type = true := by
  rw [siteOf?] at h
  split at h
  · split at h
    · split at h
      · next hstructural =>
          cases h
          exact ⟨rfl, rfl, hstructural⟩
      · cases h
    · cases h
  · cases h

theorem inLambda_of_mem_sites {s : Site} (h : s ∈ m.sites t) :
    s.inLambda = s.location.isUnder .lambda ∧ m.isStructural s.type = true := by
  rcases List.mem_filterMap.mp h with ⟨l, _, hsite⟩
  rcases siteOf?_eq_some hsite with ⟨rfl, hlambda, hstructural⟩
  exact ⟨hlambda, hstructural⟩

/-- The sites of a tree are listed in the order of their paths. -/
theorem pairwise_sites (m : Model) (t : Tree) :
    (m.sites t).Pairwise fun a b => a.location.path < b.location.path := by
  refine List.Pairwise.filterMap m.siteOf? (fun a b hab s hs s' hs' => ?_)
    (Syntax.pairwise_locations t)
  rw [(siteOf?_eq_some hs).1, (siteOf?_eq_some hs').1]
  exact hab

/-- A plan that starts from a site: it was asked for at the site, or for the type of the site,
    of which this is the first one. -/
structure PlansFrom (m : Model) (t : Tree) (anchor : Site) (p : Plan) : Prop where
  site : anchor ∈ m.sites t
  planned : ∃ request, m.planAt t anchor request = .ok p
    ∨ ((m.sites t).find? fun s => s.type == anchor.type) = some anchor
      ∧ m.plan t anchor.type request = .ok p

/-- A plan for a type is the one that starts from the first site of the type. -/
theorem PlansFrom.planAt {anchor : Site} {p : Plan} (h : m.PlansFrom t anchor p) :
    ∃ request, m.planAt t anchor request = .ok p := by
  rcases h.planned with ⟨request, hplan | ⟨hfirst, hplan⟩⟩
  · exact ⟨request, hplan⟩
  · refine ⟨request, ?_⟩
    simp only [plan, hfirst, bind, Except.bind] at hplan
    split at hplan
    · cases hplan
    · exact hplan

end Model

/-- The sites of a plan are the creations of its type inside the container, each once and in the
    order of the text, and the anchor is among them. Carrying out the plan names just these, unless
    one of them is inside a lambda; then it fails for this reason. -/
theorem preview_is_outcome {m : Model} {t : Tree} {anchor : Site} {p : Plan}
    (hroot : t.kind = .root) (h : m.PlansFrom t anchor p) :
    anchor.location.outermost? .typeDecl = some p.scope.container
      ∧ p.sites.map Site.location
        = (t.locations.filter fun l => m.creates p.target l && l.isWithin p.scope.container)
      ∧ (p.sites.Pairwise fun a b => a.location.path < b.location.path)
      ∧ anchor ∈ p.sites
      ∧ (p.apply m false = .error .insideLambda ↔ ∃ s ∈ p.sites, s.inLambda = true)
      ∧ ((∀ s ∈ p.sites, s.inLambda = false) →
        ∃ e, p.apply m false = .ok e ∧ e.named = p.sites.map Site.span) := by
  rcases h.planAt with ⟨request, hplan⟩
  rcases Model.planAt_eq_ok hplan with ⟨hscope, htarget, hsites, _⟩
  have hcontainer := (Model.scopeOf_eq_ok hscope).1
  rcases Syntax.outermost?_eq_some hcontainer with ⟨hsuffix, hkind⟩
  rcases Model.inLambda_of_mem_sites h.site with ⟨_, hstructural⟩
  have hanchor := Model.mem_locations_of_mem_sites h.site
  have hlocations : p.sites.map Site.location
      = t.locations.filter fun l => m.creates p.target l && l.isWithin p.scope.container := by
    rw [hsites, htarget, Model.locations_sitesWithin hstructural]
  have hwalk : (p.scope.container :: locationsBelow p.scope.container).filter (m.creates p.target)
      = p.sites.map Site.location := by
    rw [hlocations, ← Syntax.filter_isWithin (Syntax.mem_locations_of_suffix hanchor hsuffix),
      List.filter_filter]
  have hlambda : (p.sites.map Site.location).any (fun l => l.isUnder .lambda)
      = p.sites.any Site.inLambda := by
    have hsite : ∀ s ∈ p.sites, s.inLambda = s.location.isUnder .lambda := fun s hs =>
      (Model.inLambda_of_mem_sites (List.mem_of_mem_filter (hsites ▸ hs))).1
    rw [List.any_map, Bool.eq_iff_iff, List.any_eq_true, List.any_eq_true]
    exact exists_congr fun s => and_congr_right fun hs => by rw [hsite s hs]; rfl
  have habove : p.scope.container.above.isEmpty = false := by
    rw [List.isEmpty_eq_false_iff]
    intro htop
    have htree : p.scope.container.node.tree = t := by
      have htop' := (linked_container hanchor hcontainer).2
      rwa [show p.scope.container = ⟨p.scope.container.node, []⟩ from
        congrArg (Location.mk p.scope.container.node) htop] at htop'
    rw [← htree, Node.tree, Tree.kind, hkind] at hroot
    cases hroot
  have hobjects := Model.nameObjects_eq (m := m) p.scope.container p.target p.newName
  rw [hwalk, hlambda, List.map_map] at hobjects
  refine ⟨hcontainer, hlocations, ?_, ?_, ?_, ?_⟩
  · exact hsites ▸ (Model.pairwise_sites m t).filter _
  · rw [hsites, Model.sitesWithin, List.mem_filter, beq_self_eq_true, Bool.true_and]
    exact ⟨h.site, Syntax.isWithin_of_suffix hsuffix⟩
  · rw [← List.any_eq_true]
    simp only [Plan.apply, bind, Except.bind, Bool.false_eq_true, if_false, hobjects]
    cases p.sites.any Site.inLambda with
    | true => simp only [if_true]
    | false =>
        simp only [Bool.false_eq_true, if_false, habove, iff_false]
        intro h
        cases h
  · intro hfree
    have hnone : p.sites.any Site.inLambda = false :=
      List.any_eq_false.mpr fun s hs => Bool.eq_false_iff.mp (hfree s hs)
    simp only [Plan.apply, bind, Except.bind, Bool.false_eq_true, if_false, hobjects, hnone, habove]
    exact ⟨_, rfl, rfl⟩

/-- Both of two creations that stand one inside the other are named. -/
theorem preview_is_outcome_nested :
    ∃ d anchor p, Document.parse
        "class C { int G(object o) { return 1; } void M() { var x = new { A = G(new { A = 2 }) }; } }"
          = .ok d
      ∧ d.tree.kind = .root ∧ d.model.PlansFrom d.tree anchor p ∧ p.sites.length = 2
      ∧ anchor.location.outermost? .typeDecl = some p.scope.container
      ∧ p.sites.map Site.location = (d.tree.locations.filter fun l =>
          d.model.creates p.target l && l.isWithin p.scope.container)
      ∧ (p.sites.Pairwise fun a b => a.location.path < b.location.path)
      ∧ anchor ∈ p.sites
      ∧ (p.apply d.model false = .error .insideLambda ↔ ∃ s ∈ p.sites, s.inLambda = true)
      ∧ ((∀ s ∈ p.sites, s.inLambda = false) →
        ∃ e, p.apply d.model false = .ok e ∧ e.named = p.sites.map Site.span) := by
  rcases exists_plan
    "class C { int G(object o) { return 1; } void M() { var x = new { A = G(new { A = 2 }) }; } }"
    Request.plain (fun d p => d.tree.kind == .root && p.sites.length == 2) (by decide +kernel)
    with ⟨d, anchor, p, hd, hanchor, hplan, hcheck⟩
  rw [Bool.and_eq_true, beq_iff_eq, beq_iff_eq] at hcheck
  have hfrom : d.model.PlansFrom d.tree anchor p := ⟨hanchor, Request.plain, .inl hplan⟩
  exact ⟨d, anchor, p, hd, hcheck.1, hfrom, hcheck.2, preview_is_outcome hcheck.1 hfrom⟩

end Nominal
