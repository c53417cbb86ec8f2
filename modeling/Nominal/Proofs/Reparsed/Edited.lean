import Nominal.Proofs.Detected
import Nominal.Proofs.Reparsed.Altered

/-!
# The Tree of an Extraction

The tree that an extraction gives is the tree of the document, altered: creations inside the
container are named, and the declaration stands behind the container. Around the container there
are only namespaces up to the file, because nothing else has types among its children; so the
declaration is put among items.

## Theorems

* `altered_nameCreationsOf`: Naming creations alters trees.
* `namespaces_above`: Above an outermost type there are namespaces and the file.
* `altered_rebuilt`: Putting altered items into a tree alters the tree.
* `Document.Extracts.altered`: The tree of an extraction is the tree of the document, altered.
-/

namespace Nominal

open Syntax (Tree Kind Lexeme Location Node Linked rebuilt topOf_cons)
open Text (Span)

/-! ### Naming -/

section Naming

variable {isMeant : Span → Bool} {name : String}

theorem mem_nameCreationsOf {start : Nat} {ts : List Tree} {u : Tree}
    (h : u ∈ nameCreationsOf isMeant name start ts) :
    ∃ t ∈ ts, ∃ at', u = nameCreations isMeant name at' t := by
  induction ts generalizing start with
  | nil => cases h
  | cons t ts ih =>
      rw [nameCreationsOf, List.mem_cons] at h
      rcases h with rfl | h
      · exact ⟨t, List.mem_cons_self, start, rfl⟩
      · rcases ih h with ⟨t', ht', hu⟩
        exact ⟨t', List.mem_cons_of_mem t ht', hu⟩

/-- Naming leaves the equals signs. -/
theorem hasEquals_nameCreationsOf {start : Nat} {ts : List Tree} (h : HasEquals ts) :
    HasEquals (nameCreationsOf isMeant name start ts) := by
  rcases h with ⟨l, hl, hkind⟩
  refine ⟨l, ?_, hkind⟩
  have hleaf : l ∈ (nameCreationsOf isMeant name start ts).filterMap Tree.leaf? := by
    rw [leaves_nameCreationsOf]
    exact List.mem_filterMap.mpr ⟨_, hl, rfl⟩
  rcases List.mem_filterMap.mp hleaf with ⟨u, hu, hleaf⟩
  cases u with
  | token l' =>
      cases hleaf
      exact hu
  | node kind children => cases hleaf

/-- The members of a creation bring the same names when creations in them have been named. -/
theorem areNameable_nameCreationsOf {start : Nat} {ts : List Tree} (h : AreNameable ts) :
    AreNameable (nameCreationsOf isMeant name start ts) := by
  intro ms hms
  rcases mem_nameCreationsOf hms with ⟨t, ht, at', hu⟩
  cases t with
  | token l => cases hu
  | node kind children =>
      rw [nameCreations] at hu
      split at hu
      · cases hu
      · cases hu
        rw [impliedName?_nameCreationsOf]
        exact (h children ht).imp_left hasEquals_nameCreationsOf

/-- Naming creations alters trees. -/
theorem altered_nameCreationsOf {e : Edit} {above : List Node} {start index : Nat} {ts : List Tree}
    (h : ∀ l ∈ Tree.locationsOf above start index ts, isNamed isMeant l = true →
      AreNameable l.node.children) :
    Altered e false ts (nameCreationsOf isMeant e.name start ts) := by
  cases ts with
  | nil => exact .nil
  | cons t ts =>
      rw [Tree.locationsOf, List.forall_mem_append] at h
      have hrest := altered_nameCreationsOf (e := e) h.2
      cases t with
      | token l => exact .token l hrest
      | node kind children =>
          rw [Tree.locationsAt, List.forall_mem_cons] at h
          have hinner := altered_nameCreationsOf (e := e) h.1.2
          rw [nameCreationsOf, nameCreations]
          split
          · next hnamed =>
              cases hnamed.1
              refine .named hinner (areNameable_nameCreationsOf (h.1.1 ?_)) hrest
              rw [isNamed, Bool.and_eq_true]
              exact ⟨rfl, hnamed.2⟩
          · exact .node kind hinner hrest

end Naming

/-! ### What is above the container -/

/-- No node of a kind is above the outermost one. -/
theorem Syntax.outermost?_above {kind : Kind} {l c : Location} (h : l.outermost? kind = some c) :
    ∀ n ∈ c.above, n.kind ≠ kind := by
  have hgo : ∀ (above : List Node) (n : Node) (found : Option Location),
      Location.outermost?.go kind found n above = some c →
      (∀ n' ∈ n :: above, n'.kind ≠ kind) ∧ found = some c ∨ ∀ n' ∈ c.above, n'.kind ≠ kind := by
    intro above
    induction above with
    | nil =>
        intro n found hfound
        rw [Location.outermost?.go] at hfound
        split at hfound
        · cases hfound
          exact .inr (List.forall_mem_nil _)
        · next hkind =>
            refine .inl ⟨?_, hfound⟩
            rw [List.forall_mem_singleton]
            exact fun heq => hkind (beq_iff_eq.mpr heq)
    | cons next above ih =>
        intro n found hfound
        rw [Location.outermost?.go] at hfound
        rcases ih _ _ hfound with ⟨hfree, hfound⟩ | hfree
        · split at hfound
          · cases hfound
            exact .inr hfree
          · next hkind =>
              refine .inl ⟨List.forall_mem_cons.mpr ⟨?_, hfree⟩, hfound⟩
              exact fun heq => hkind (beq_iff_eq.mpr heq)
        · exact .inr hfree
  rcases hgo l.above l.node none h with ⟨_, hnone⟩ | hfree
  · cases hnone
  · exact hfree

/-- What has a kind of node among its children has a slot for it. -/
theorem Syntax.Linked.fits {n parent : Node} {above : List Node} (h : Linked n (parent :: above))
    (htop : (topOf ⟨n, parent :: above⟩).node.tree.Conforms) (hn : n.kind ≠ .error) :
    n.kind ∈ parent.kind.slots.flatMap Syntax.Slot.kinds := by
  rw [topOf_cons] at htop
  have hparent : parent.tree.Conforms := h.above.conforms htop
  cases hparent with
  | node hfits _ _ =>
      refine hfits.mem _ ?_
      rw [Syntax.Tree.nodeKinds, List.mem_filterMap]
      exact ⟨n.tree, List.mem_of_getElem? h.child, if_neg hn⟩

/-- Above an outermost type there are namespaces, and at the top there is the file. -/
theorem namespaces_above {n : Node} {above : List Node} (h : Linked n above)
    (htop : (topOf ⟨n, above⟩).node.tree.Conforms)
    (hkind : n.kind = .typeDecl ∨ n.kind = .namespaceDecl) (hfree : ∀ m ∈ above, m.kind ≠ .typeDecl) :
    ∀ m ∈ above.dropLast, m.kind = .namespaceDecl := by
  induction above generalizing n with
  | nil => exact nofun
  | cons parent above ih =>
      cases above with
      | nil => exact nofun
      | cons next above =>
          have hn : n.kind ≠ .error := by rcases hkind with hkind | hkind <;> rw [hkind] <;> nofun
          have hslot := h.fits htop hn
          have hparents : ∀ k : Kind, k ≠ .typeDecl →
              (Kind.typeDecl ∈ k.slots.flatMap Syntax.Slot.kinds ∨
                Kind.namespaceDecl ∈ k.slots.flatMap Syntax.Slot.kinds) →
              k = .root ∨ k = .namespaceDecl := by
            intro k
            cases k <;> decide
          rw [List.forall_mem_cons] at hfree
          have hparent := hparents parent.kind hfree.1 (by
            rcases hkind with hkind | hkind
            · exact .inl (hkind ▸ hslot)
            · exact .inr (hkind ▸ hslot))
          rw [topOf_cons] at htop
          have hspace : parent.kind = .namespaceDecl := by
            refine hparent.resolve_left fun hroot => ?_
            -- A file is no part of anything.
            have hslot := h.above.fits htop (by rw [hroot]; nofun)
            rw [hroot] at hslot
            revert hslot
            cases next.kind <;> decide
          rw [List.dropLast_cons_cons, List.forall_mem_cons]
          exact ⟨hspace, ih h.above htop (.inr hspace) hfree.2⟩

/-- Putting altered items into a tree alters the tree. -/
theorem altered_rebuilt {e : Edit} {n : Node} {above : List Node} (h : Linked n above)
    (habove : above ≠ []) (hspaces : ∀ m ∈ above.dropLast, m.kind = .namespaceDecl)
    {new : List Tree} (hnew : Altered e true [n.tree] new) :
    ∃ us, rebuilt new n above = .node (topOf ⟨n, above⟩).node.kind us ∧
      Altered e true (topOf ⟨n, above⟩).node.children us := by
  induction above generalizing n new with
  | nil => exact absurd rfl habove
  | cons parent above ih =>
      have hchildren : Altered e true parent.children
          (parent.children.take n.index ++ new ++ parent.children.drop (n.index + 1)) := by
        rcases List.getElem?_eq_some_iff.mp h.child with ⟨hlt, hat⟩
        have hwhole : parent.children = parent.children.take n.index ++ [n.tree]
            ++ parent.children.drop (n.index + 1) := by
          rw [← hat, List.append_assoc, List.singleton_append, List.getElem_cons_drop,
            List.take_append_drop]
        have hjoin := ((Altered.refl e true (parent.children.take n.index)).join hnew).join
          (.refl e true (parent.children.drop (n.index + 1)))
        rwa [← hwhole] at hjoin
      cases above with
      | nil => exact ⟨_, rfl, hchildren⟩
      | cons next above =>
          rw [List.dropLast_cons_cons, List.forall_mem_cons] at hspaces
          have hparent : Altered e true [parent.tree] [parent.spliced n.index new] := by
            rw [Node.tree, Node.spliced, hspaces.1]
            exact .node .namespaceDecl hchildren .nil
          rw [rebuilt, topOf_cons]
          exact ih h.above (List.cons_ne_nil _ _) hspaces.2 hparent

/-! ### Extractions -/

/-- What is put behind the container is what the edit adds. -/
theorem Plan.added_eq (p : Plan) {form : ClassForm}
    (hdeclaration : p.declaration = form.tree p.layout) :
    (form.edit p.layout).added = p.separator ++ [p.declaration] := by
  have hblanks : ((if p.layout.baseIndent.isEmpty then [] else [⟨.whitespace, p.layout.baseIndent⟩] :
      List Lexeme)).map Tree.token = blanks p.layout.baseIndent := by
    rw [blanks]
    split
    · rfl
    · rfl
  rw [Edit.added, ClassForm.edit, ClassForm.lineLexemes, Plan.separator, hdeclaration, ← hblanks]
  rfl

/-- The tree of an extraction is the tree of the document, altered, if the members of the objects
    of the type have names that can be written out. The declaration comes on top of all lexemes
    that there were. -/
theorem Document.Extracts.altered {source : String} {d : Document} {anchor : Site} {p : Plan}
    {e : Extraction} (hd : Document.parse source = .ok d) (h : d.Extracts anchor p e)
    {form : ClassForm} (hname : form.name = p.newName)
    (hdeclaration : p.declaration = form.tree p.layout)
    (hmembers : ∀ l ∈ p.scope.container :: locationsBelow p.scope.container,
      d.model.creates p.target l = true → AreNameable l.node.children) :
    ∃ children us, d.tree = .node .root children ∧ e.tree = .node .root us ∧
      Altered (form.edit p.layout) true children us ∧
      (Tree.leavesOf children).length + (form.tree p.layout).leaves.length
        ≤ (Tree.leavesOf us).length := by
  rcases Document.parse_eq_ok hd with ⟨_, _, hconforms, _, parsed, hparsed, htree, _⟩
  rcases Grammar.kind_parseLexemes hparsed with ⟨children, hroot⟩
  rw [← htree] at hroot
  rcases h with ⟨hsite, ⟨request, hplan⟩, ⟨isCancelled, happly⟩⟩
  have hscope := (Model.planAt_eq_ok hplan).1
  rcases Plan.apply_eq_ok happly with ⟨habove, objects, hobjects, hedited, _⟩
  have hrenamed := (Model.nameObjects_eq_ok hobjects).2.1
  have hcontainer := (Model.scopeOf_eq_ok hscope).1
  have hkind := (Syntax.outermost?_eq_some hcontainer).2
  rcases linked_container (Model.mem_locations_of_mem_sites hsite) hcontainer with ⟨hlinked, htop⟩
  have hfree := Syntax.outermost?_above hcontainer
  have hadded := p.added_eq hdeclaration
  generalize p.scope.container = container at *
  have hspaces := namespaces_above hlinked (htop ▸ hconforms) (.inl hkind) hfree
  rw [List.forall_mem_cons] at hmembers
  have hinner : Altered (form.edit p.layout) false container.node.children
      (nameCreationsOf (fun span => d.model.typeAt? ⟨.anonObjectCreation, span⟩ == some p.target)
        p.newName container.node.start container.node.children) := by
    rw [← hname]
    refine altered_nameCreationsOf fun l hl hmeant => hmembers.2 l hl ?_
    rwa [Model.isNamed_eq_creates] at hmeant
  have hobject : objects.tree = .node .typeDecl (nameCreationsOf
      (fun span => d.model.typeAt? ⟨.anonObjectCreation, span⟩ == some p.target) p.newName
      container.node.start container.node.children) := by
    rw [hrenamed, Node.tree, hkind, nameCreations, if_neg (fun hmeant => absurd hmeant.1 (by decide))]
  have hnew : Altered (form.edit p.layout) true [container.node.tree]
      (objects.tree :: p.separator ++ [p.declaration]) := by
    have hnothing : Altered (form.edit p.layout) true [] [] := .nil
    have hdeclared := Altered.declared hinner hnothing
    rw [List.append_nil] at hdeclared
    rwa [hobject, Node.tree, hkind, List.cons_append, ← hadded]
  rcases altered_rebuilt hlinked habove hspaces hnew with ⟨us, hus, haltered⟩
  rw [hroot] at htop
  rw [show (topOf container).node.kind = .root from (Syntax.Tree.node.inj htop).1] at hus
  rw [show (topOf container).node.children = children from (Syntax.Tree.node.inj htop).2] at haltered
  refine ⟨children, us, hroot, ?_, haltered, ?_⟩
  · rw [hedited, ← hus]
    exact Syntax.replaceAt_eq_rebuilt hlinked habove _
  · rcases Syntax.leaves_around hlinked habove with ⟨front, back, _, hold, haround⟩
    have hbefore := congrArg List.length hold
    have hbehind := congrArg List.length (haround (objects.tree :: p.separator ++ [p.declaration]))
    have hgrown := hinner.length_leaves
    rw [htop] at hbefore
    rw [hus, hobject] at hbehind
    simp only [Tree.leaves, Tree.leavesOf, Tree.leavesOf_append, List.cons_append, Node.tree,
      List.length_append, ← hdeclaration, List.append_nil] at hbefore hbehind ⊢
    omega

end Nominal
