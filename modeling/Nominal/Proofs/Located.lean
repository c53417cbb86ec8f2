import Nominal.Extraction.Scope

/-!
# Nodes in Their Places

A location names a node together with the nodes above it, and nothing in its type says
that these belong together. `Linked` does: each node is that child of the next one which
its index tells, and starts where the children before it end. Every location of a tree is
linked, and so is every location above one.

What can be said of a replaced node is said along these links. `rebuilt` goes from the
node up to the top and puts each parent together anew; replacing at a path gives the same
tree, so a fact about an edited tree is an induction over the nodes above the place.

## Main definitions

* `Linked`: A node is where its index and its start say, below the nodes above it.
* `subtreeAt?`: The tree at a path.
* `rebuilt`: The tree around a place, with other trees in it.

## Theorems

* `linked_of_mem_locations`: Every location of a tree is linked.
* `topOf_of_mem_locations`: At its top stands the tree.
* `holds_of_mem_locationsAt`: What passes on from a node to its children holds of every node.
* `replaceAt_eq_rebuilt`: Replacing at a path puts each parent together anew.
* `outermost?_eq_some`: The outermost node of a kind is one of the nodes above, with no other
  such node above it.
-/

namespace Nominal

namespace Syntax

open Text (Span)

/-- A node is that child of the nearest node above it which its index tells, and starts
    where the children before it end; and so on up to the top, which starts the text. -/
def Linked : Node → List Node → Prop
  | n, [] => n.start = 0
  | n, parent :: above =>
    parent.children[n.index]? = some n.tree ∧
      n.start = parent.start + Tree.widthOf (parent.children.take n.index) ∧ Linked parent above

theorem Linked.above {n parent : Node} {above : List Node} (h : Linked n (parent :: above)) :
    Linked parent above :=
  h.2.2

theorem Linked.child {n parent : Node} {above : List Node} (h : Linked n (parent :: above)) :
    parent.children[n.index]? = some n.tree :=
  h.1

/-- A node that stands behind some other children is linked if its parent is. -/
theorem linked_child {kind : Kind} {before behind children : List Tree} {parent : Node}
    {above : List Node} (h : Linked parent above)
    (hchildren : parent.children = before ++ .node kind children :: behind) :
    Linked ⟨kind, children, parent.start + Tree.widthOf before, before.length⟩
      (parent :: above) := by
  refine ⟨?_, ?_, h⟩
  · rw [hchildren, List.getElem?_append_right (Nat.le_refl _), Nat.sub_self]
    rfl
  · rw [hchildren, List.take_left']
    rfl

mutual

theorem linked_of_mem_locationsAt {t : Tree} {above : List Node} {start index : Nat}
    (h : ∀ kind children, t = .node kind children →
      Linked ⟨kind, children, start, index⟩ above) :
    ∀ l ∈ Tree.locationsAt above start index t, Linked l.node l.above := by
  cases t with
  | token lexeme => exact nofun
  | node kind children =>
      intro l hl
      rw [Tree.locationsAt, List.mem_cons] at hl
      rcases hl with rfl | hl
      · exact h kind children rfl
      · refine linked_of_mem_locationsOf [] (h kind children rfl) rfl ?_ ?_ l hl
        · exact (Nat.add_zero _).symm
        · rfl

theorem linked_of_mem_locationsOf (before : List Tree) {ts : List Tree} {parent : Node}
    {above : List Node} {start index : Nat} (h : Linked parent above)
    (hchildren : parent.children = before ++ ts)
    (hstart : start = parent.start + Tree.widthOf before) (hindex : index = before.length) :
    ∀ l ∈ Tree.locationsOf (parent :: above) start index ts, Linked l.node l.above := by
  cases ts with
  | nil => exact nofun
  | cons t ts =>
      intro l hl
      rw [Tree.locationsOf, List.mem_append] at hl
      rcases hl with hl | hl
      · refine linked_of_mem_locationsAt (fun kind children ht => ?_) l hl
        rw [ht] at hchildren
        rw [hstart, hindex]
        exact linked_child h hchildren
      · refine linked_of_mem_locationsOf (before ++ [t]) h ?_ ?_ ?_ l hl
        · rw [hchildren, List.append_assoc, List.singleton_append]
        · simp only [hstart, Tree.widthOf_append, Tree.widthOf, Nat.add_assoc, Nat.add_zero]
        · rw [hindex, List.length_append, List.length_singleton]

end

/-- Every location of a tree is linked. -/
theorem linked_of_mem_locations {t : Tree} {l : Location} (h : l ∈ t.locations) :
    Linked l.node l.above := by
  have hroot : ∀ kind children, t = .node kind children → Linked ⟨kind, children, 0, 0⟩ [] :=
    fun _ _ _ => rfl
  exact linked_of_mem_locationsAt hroot l h

mutual

/-- Above every node of a tree stands the top of that tree, below what was said to stand
    above the tree. -/
theorem lineage_of_mem_locationsAt {t : Tree} {above : List Node} {start index : Nat}
    {l : Location} (h : l ∈ Tree.locationsAt above start index t) :
    ∃ inner n, l.lineage = inner ++ n :: above ∧ n.tree = t ∧ n.start = start := by
  cases t with
  | token lexeme => cases h
  | node kind children =>
      rw [Tree.locationsAt, List.mem_cons] at h
      rcases h with rfl | h
      · exact ⟨[], _, rfl, rfl, rfl⟩
      · rcases lineage_of_mem_locationsOf h with ⟨inner, hinner⟩
        exact ⟨inner, _, hinner, rfl, rfl⟩

theorem lineage_of_mem_locationsOf {ts : List Tree} {above : List Node} {start index : Nat}
    {l : Location} (h : l ∈ Tree.locationsOf above start index ts) :
    ∃ inner, l.lineage = inner ++ above := by
  cases ts with
  | nil => cases h
  | cons t ts =>
      rw [Tree.locationsOf, List.mem_append] at h
      rcases h with h | h
      · rcases lineage_of_mem_locationsAt h with ⟨inner, n, hlineage, _⟩
        exact ⟨inner ++ [n], by rw [hlineage, List.append_assoc, List.singleton_append]⟩
      · exact lineage_of_mem_locationsOf h

end

end Syntax

open Syntax

/-- At the top of every location of a tree stands the tree. -/
theorem topOf_of_mem_locations {t : Tree} {l : Location} (h : l ∈ t.locations) :
    (topOf l).node.tree = t := by
  rcases lineage_of_mem_locationsAt h with ⟨inner, n, hlineage, htree, _⟩
  have hlast : (topOf l).node = n := by
    simp only [topOf, hlineage, List.getLast_append_of_ne_nil, ne_eq, List.cons_ne_self,
      not_false_eq_true, List.getLast_singleton]
  rw [hlast, htree]

namespace Syntax

mutual

/-- What holds of a tree, and of a node only if it holds of all its children, holds of every node. -/
theorem holds_of_mem_locationsAt {P : Tree → Prop}
    (hbelow : ∀ kind children, P (.node kind children) → ∀ t ∈ children, P t) {t : Tree} (ht : P t)
    {above : List Node} {start index : Nat} {l : Location}
    (hl : l ∈ Tree.locationsAt above start index t) : P l.node.tree := by
  cases t with
  | token lexeme => cases hl
  | node kind children =>
      rw [Tree.locationsAt, List.mem_cons] at hl
      rcases hl with rfl | hl
      · exact ht
      · exact holds_of_mem_locationsOf hbelow (hbelow kind children ht) hl

theorem holds_of_mem_locationsOf {P : Tree → Prop}
    (hbelow : ∀ kind children, P (.node kind children) → ∀ t ∈ children, P t) {ts : List Tree}
    (hts : ∀ t ∈ ts, P t) {above : List Node} {start index : Nat} {l : Location}
    (hl : l ∈ Tree.locationsOf above start index ts) : P l.node.tree := by
  cases ts with
  | nil => cases hl
  | cons t ts =>
      rw [List.forall_mem_cons] at hts
      rw [Tree.locationsOf, List.mem_append] at hl
      rcases hl with hl | hl
      · exact holds_of_mem_locationsAt hbelow hts.1 hl
      · exact holds_of_mem_locationsOf hbelow hts.2 hl

end

theorem Location.lineage_eq (l : Location) : l.lineage = l.node :: l.above := rfl

/-- What is above a linked node is linked. -/
theorem Linked.of_suffix {c l : Location} (h : Linked l.node l.above)
    (hsuffix : c.lineage <:+ l.lineage) : Linked c.node c.above := by
  rcases l with ⟨n, above⟩
  induction above generalizing n with
  | nil =>
      rw [Location.lineage_eq, Location.lineage_eq, List.suffix_cons_iff] at hsuffix
      rcases hsuffix with heq | hnil
      · rw [List.cons.injEq] at heq
        rw [heq.1, heq.2]
        exact h
      · exact absurd (List.suffix_nil.mp hnil) (List.cons_ne_nil _ _)
  | cons parent above ih =>
      rw [Location.lineage_eq, Location.lineage_eq, List.suffix_cons_iff] at hsuffix
      rcases hsuffix with heq | habove
      · rw [List.cons.injEq] at heq
        rw [heq.1, heq.2]
        exact h
      · exact ih parent h.above habove

theorem outermost?_go {kind : Kind} {found : Option Location} {n : Node} {above : List Node}
    {c : Location} (h : Location.outermost?.go kind found n above = some c) :
    found = some c ∨ (c.lineage <:+ n :: above ∧ c.node.kind = kind) := by
  induction above generalizing found n with
  | nil =>
      rw [Location.outermost?.go] at h
      split at h
      · next hkind =>
          cases h
          exact .inr ⟨List.suffix_refl _, eq_of_beq hkind⟩
      · exact .inl h
  | cons next above ih =>
      rw [Location.outermost?.go] at h
      rcases ih h with hfound | ⟨hsuffix, hkind⟩
      · split at hfound
        · next hkind =>
            cases hfound
            exact .inr ⟨List.suffix_refl _, eq_of_beq hkind⟩
        · exact .inl hfound
      · exact .inr ⟨hsuffix.trans (List.suffix_cons n _), hkind⟩

/-- The outermost node of a kind is the node itself or one above it. -/
theorem outermost?_eq_some {kind : Kind} {l c : Location} (h : l.outermost? kind = some c) :
    c.lineage <:+ l.lineage ∧ c.node.kind = kind := by
  rcases outermost?_go h with hnone | hsome
  · cases hnone
  · exact hsome

/-! ### Replacing -/

/-- A node with other trees in the place of one of its children. -/
def Node.spliced (n : Node) (i : Nat) (new : List Tree) : Tree :=
  .node n.kind (n.children.take i ++ new ++ n.children.drop (i + 1))

/-- The tree around a place, with other trees in it. Around the top there is nothing. -/
def rebuilt (new : List Tree) (n : Node) : List Node → Tree
  | [] => n.tree
  | [parent] => parent.spliced n.index new
  | parent :: next :: above => rebuilt [parent.spliced n.index new] parent (next :: above)

/-- The tree at a path. -/
def subtreeAt? : List Nat → Tree → Option Tree
  | [], t => some t
  | _ :: _, .token _ => none
  | i :: path, .node _ children => children[i]?.bind (subtreeAt? path)

theorem subtreeAt?_append (path path' : List Nat) (t : Tree) :
    subtreeAt? (path ++ path') t = (subtreeAt? path t).bind (subtreeAt? path') := by
  induction path generalizing t with
  | nil => rfl
  | cons i path ih =>
      cases t with
      | token lexeme => rfl
      | node kind children =>
          simp only [List.cons_append, subtreeAt?]
          cases children[i]? with
          | none => rfl
          | some c => exact ih c

theorem path_cons (n parent : Node) (above : List Node) :
    Location.path ⟨n, parent :: above⟩ = Location.path ⟨parent, above⟩ ++ [n.index] := by
  simp only [Location.path, Location.lineage, List.map_cons, List.reverse_cons]
  rw [List.drop_append_of_le_length]
  simp only [List.length_append, List.length_reverse, List.length_singleton]
  omega

theorem topOf_cons (n parent : Node) (above : List Node) :
    topOf ⟨n, parent :: above⟩ = topOf ⟨parent, above⟩ := by
  simp only [topOf, Location.lineage, List.getLast_cons_cons]

/-- The path of a linked node leads to it. -/
theorem subtreeAt?_path {n : Node} {above : List Node} (h : Linked n above) :
    subtreeAt? (Location.path ⟨n, above⟩) (topOf ⟨n, above⟩).node.tree = some n.tree := by
  induction above generalizing n with
  | nil => rfl
  | cons parent above ih =>
      rw [path_cons, topOf_cons, subtreeAt?_append, ih h.above, Option.bind_some, Node.tree,
        subtreeAt?, h.child]
      rfl

theorem modify_eq {cs : List Tree} {i : Nat} {c : Tree} (h : cs[i]? = some c) (f : Tree → Tree) :
    cs.modify i f = cs.take i ++ [f c] ++ cs.drop (i + 1) := by
  rw [List.getElem?_eq_some_iff] at h
  rcases h with ⟨hlt, rfl⟩
  rw [List.modify_eq_take_cons_drop hlt, List.append_assoc, List.singleton_append]

/-- Replacing a child of a node is replacing the node by itself with the child replaced. -/
theorem replaceAt_concat {n : Node} {path : List Nat} {t : Tree} (i : Nat) (new : List Tree)
    (hpath : path ≠ []) (h : subtreeAt? path t = some n.tree) :
    t.replaceAt new (path ++ [i]) = t.replaceAt [n.spliced i new] path := by
  induction path generalizing t with
  | nil => exact absurd rfl hpath
  | cons j path ih =>
      cases t with
      | token lexeme => cases h
      | node kind children =>
          rw [subtreeAt?, Option.bind_eq_some_iff] at h
          rcases h with ⟨c, hc, h⟩
          cases path with
          | nil =>
              cases h
              simp only [List.cons_append, List.nil_append, Tree.replaceAt, modify_eq hc, Node.tree,
                Node.spliced]
          | cons j' path =>
              have hne : j' :: path ≠ [] := List.cons_ne_nil j' path
              simp only [List.cons_append] at ih
              simp only [List.cons_append, Tree.replaceAt, modify_eq hc, ih hne h]

/-- Replacing at a path puts each parent together anew. -/
theorem replaceAt_eq_rebuilt {n : Node} {above : List Node} (h : Linked n above)
    (habove : above ≠ []) (new : List Tree) :
    (topOf ⟨n, above⟩).node.tree.replaceAt new (Location.path ⟨n, above⟩)
      = rebuilt new n above := by
  induction above generalizing n new with
  | nil => exact absurd rfl habove
  | cons parent above ih =>
      cases above with
      | nil => rfl
      | cons next above =>
          have hne : next :: above ≠ [] := List.cons_ne_nil next above
          have hpath : Location.path ⟨parent, next :: above⟩ ≠ [] := by
            rw [path_cons]
            exact List.append_ne_nil_of_right_ne_nil _ (List.cons_ne_nil _ _)
          rw [path_cons, topOf_cons, replaceAt_concat n.index new hpath (subtreeAt?_path h.above),
            ih h.above hne]
          rfl

end Syntax

end Nominal
