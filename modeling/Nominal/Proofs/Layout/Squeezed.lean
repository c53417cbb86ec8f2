import Nominal.Proofs.Bare
import Nominal.Proofs.Layout.Anchored
import Nominal.Proofs.Layout.Typing

/-!
# Where Nodes Stand Without Trivia

Dropping the trivia of a tree moves its nodes to the left. An offset is moved to the width of
the tokens before it, and so a span between tokens is squeezed to the tokens in it.

Squeezing brings spans together that differ in trivia only. In an anchored tree this does no
harm: two expressions of one kind have different tokens, so they still have different spans.
What is no span of a node is of no interest, and is moved out of the way.

## Main definitions

* `Lexeme.squeeze`: A span without the trivia before it and in it.
* `Tree.squeeze`: Where the nodes of a tree stand without trivia.

## Theorems

* `split_of_mem_locationsAt`: The leaves of a node stand between those before and behind it.
* `bareWidth_lt`: A part of an expression has fewer tokens than the whole.
* `eq_of_squeeze_eq`: Two nodes of one kind with tokens of their own are the same one if they
  are squeezed to the same span.
* `isFaithful_squeeze`: No two expressions of a kind are moved to the same place.
-/

namespace Nominal

namespace Syntax

open Text (Span)

namespace Lexeme

/-- The width of the tokens among some lexemes. -/
def bareWidth (ls : List Lexeme) : Nat := widthOf (bare ls)

/-- The width of the tokens that stand before an offset. -/
def bareOffset : List Lexeme → Nat → Nat
  | [], _ => 0
  | l :: ls, offset =>
    if l.width ≤ offset then bareWidth [l] + bareOffset ls (offset - l.width) else 0

/-- A span without the trivia before it and in it. -/
def squeeze (ls : List Lexeme) (span : Span) : Span :=
  ⟨bareOffset ls span.start, bareOffset ls span.stop⟩

@[simp]
theorem bareWidth_append (xs ys : List Lexeme) :
    bareWidth (xs ++ ys) = bareWidth xs + bareWidth ys := by
  rw [bareWidth, bare_append, widthOf_append, bareWidth, bareWidth]

theorem bareWidth_token {l : Lexeme} (hl : l.isTrivia = false) : bareWidth [l] = l.width := by
  rw [bareWidth, bare_cons_token hl, bare_nil]
  rfl

theorem bareWidth_trivia {l : Lexeme} (hl : l.isTrivia = true) : bareWidth [l] = 0 := by
  rw [bareWidth, bare_cons_trivia hl, bare_nil]
  rfl

theorem bareWidth_le (l : Lexeme) : bareWidth [l] ≤ l.width := by
  cases hl : l.isTrivia with
  | true => rw [bareWidth_trivia hl]; exact Nat.zero_le _
  | false => exact Nat.le_of_eq (bareWidth_token hl)

/-- Nothing stands before the start. -/
theorem bareOffset_zero (ls : List Lexeme) : bareOffset ls 0 = 0 := by
  induction ls with
  | nil => rfl
  | cons l ls ih =>
      rw [bareOffset]
      split
      · next h =>
          have hl := bareWidth_le l
          rw [Nat.zero_sub, ih]
          omega
      · rfl

/-- What stands before an offset between lexemes. -/
theorem bareOffset_append (xs ys : List Lexeme) :
    bareOffset (xs ++ ys) (widthOf xs) = bareWidth xs := by
  induction xs with
  | nil => exact bareOffset_zero ys
  | cons l xs ih =>
      rw [List.cons_append, bareOffset, widthOf, if_pos (Nat.le_add_right _ _),
        Nat.add_sub_cancel_left, ih, ← bareWidth_append, List.singleton_append]

theorem bareOffset_le (ls : List Lexeme) (offset : Nat) : bareOffset ls offset ≤ widthOf ls := by
  induction ls generalizing offset with
  | nil => exact Nat.zero_le _
  | cons l ls ih =>
      rw [bareOffset]
      split
      · exact Nat.add_le_add (bareWidth_le l) (ih _)
      · exact Nat.zero_le _

/-- What stands between others is squeezed to its tokens, behind the tokens before it. -/
theorem squeeze_between (xs ys zs : List Lexeme) :
    squeeze (xs ++ ys ++ zs) (Span.ofWidth (widthOf xs) (widthOf ys))
      = Span.ofWidth (bareWidth xs) (bareWidth ys) := by
  have hstart := bareOffset_append xs (ys ++ zs)
  have hstop := bareOffset_append (xs ++ ys) zs
  rw [← List.append_assoc] at hstart
  rw [widthOf_append, bareWidth_append] at hstop
  rw [squeeze, Span.ofWidth, hstart, hstop, Span.ofWidth]

end Lexeme

namespace Tree

/-- Some trees without trivia are as wide as their tokens. -/
theorem widthOf_bareOf (ts : List Tree) :
    widthOf (bareOf ts) = Lexeme.bareWidth (leavesOf ts) := by
  match ts with
  | [] =>
      rw [bareOf_nil]
      rfl
  | token l :: ts =>
      rw [leavesOf, leaves, Lexeme.bareWidth_append, ← widthOf_bareOf ts]
      cases hl : l.isTrivia with
      | true =>
          rw [bareOf_trivia hl, Lexeme.bareWidth_trivia hl, Nat.zero_add]
      | false =>
          rw [bareOf_token hl, Lexeme.bareWidth_token hl]
          rfl
  | node kind children :: ts =>
      rw [leavesOf, leaves, Lexeme.bareWidth_append, ← widthOf_bareOf children,
        ← widthOf_bareOf ts, bareOf_node]
      rfl

mutual

/-- The leaves of a node stand between the leaves before and those behind it. -/
theorem split_of_mem_locationsAt {t : Tree} {above : List Node} {start index : Nat} {l : Location}
    (hl : l ∈ locationsAt above start index t) :
    ∃ before behind, t.leaves = before ++ leavesOf l.node.children ++ behind
      ∧ l.node.start = start + Lexeme.widthOf before := by
  cases t with
  | token lexeme => cases hl
  | node kind children =>
      rw [locationsAt, List.mem_cons] at hl
      rcases hl with rfl | hl
      · exact ⟨[], [], by rw [leaves, List.nil_append, List.append_nil], rfl⟩
      · exact split_of_mem_locationsOf hl

theorem split_of_mem_locationsOf {ts : List Tree} {above : List Node} {start index : Nat}
    {l : Location} (hl : l ∈ locationsOf above start index ts) :
    ∃ before behind, leavesOf ts = before ++ leavesOf l.node.children ++ behind
      ∧ l.node.start = start + Lexeme.widthOf before := by
  cases ts with
  | nil => cases hl
  | cons t ts =>
      rw [locationsOf, List.mem_append] at hl
      rcases hl with hl | hl
      · rcases split_of_mem_locationsAt hl with ⟨before, behind, hleaves, hstart⟩
        refine ⟨before, behind ++ leavesOf ts, ?_, hstart⟩
        rw [leavesOf, hleaves, List.append_assoc]
      · rcases split_of_mem_locationsOf hl with ⟨before, behind, hleaves, hstart⟩
        refine ⟨t.leaves ++ before, behind, ?_, ?_⟩
        · rw [leavesOf, hleaves, List.append_assoc, List.append_assoc, List.append_assoc]
        · rw [hstart, Lexeme.widthOf_append, ← width_eq, Nat.add_assoc]

end

/-! ### Parts of an expression -/

mutual

theorem bareWidth_pos {t : Tree} (ht : t.holds = true) (hpos : ∀ x ∈ t.leaves, 0 < x.width) :
    0 < Lexeme.bareWidth t.leaves := by
  cases t with
  | token lexeme =>
      rw [holds, Bool.not_eq_true'] at ht
      rw [leaves, Lexeme.bareWidth_token ht]
      exact hpos lexeme List.mem_cons_self
  | node kind children =>
      rw [holds, Bool.and_eq_true] at ht
      exact bareWidthOf_pos ht.2 hpos

/-- What has a token of its own is not empty without trivia. -/
theorem bareWidthOf_pos {ts : List Tree} (hts : holdsAny ts = true)
    (hpos : ∀ x ∈ leavesOf ts, 0 < x.width) : 0 < Lexeme.bareWidth (leavesOf ts) := by
  cases ts with
  | nil => cases hts
  | cons t ts =>
      rw [leavesOf, List.forall_mem_append] at hpos
      rw [holdsAny, Bool.or_eq_true] at hts
      rw [leavesOf, Lexeme.bareWidth_append]
      rcases hts with ht | hts
      · exact Nat.add_pos_left (bareWidth_pos ht hpos.1) _
      · exact Nat.add_pos_right _ (bareWidthOf_pos hts hpos.2)

end

/-- A part of some trees has no more tokens than they have. -/
theorem bareWidth_le_of_mem {ts : List Tree} {above : List Node} {start index : Nat} {l : Location}
    (hl : l ∈ locationsOf above start index ts) :
    Lexeme.bareWidth (leavesOf l.node.children) ≤ Lexeme.bareWidth (leavesOf ts) := by
  rcases split_of_mem_locationsOf hl with ⟨before, behind, hleaves, -⟩
  rw [hleaves, Lexeme.bareWidth_append, Lexeme.bareWidth_append]
  omega

mutual

theorem bareWidth_lt {t : Tree} {above : List Node} {start index : Nat} {l : Location}
    (ht : t.holds = true) (hpos : ∀ x ∈ t.leaves, 0 < x.width)
    (hl : l ∈ locationsAt above start index t) (hkind : l.node.kind ∉ Kind.carriers) :
    Lexeme.bareWidth (leavesOf l.node.children) < Lexeme.bareWidth t.leaves := by
  cases t with
  | token lexeme => cases hl
  | node kind children =>
      rw [holds, Bool.and_eq_true] at ht
      rw [locationsAt, List.mem_cons] at hl
      rcases hl with rfl | hl
      · exact absurd (List.contains_iff_mem.mp ht.1) hkind
      · exact bareWidthOf_lt ht.2 hpos hl hkind

/-- A part of some trees with a token of their own has fewer tokens than they have, unless it
    is a list whose tokens are theirs. -/
theorem bareWidthOf_lt {ts : List Tree} {above : List Node} {start index : Nat} {l : Location}
    (hts : holdsAny ts = true) (hpos : ∀ x ∈ leavesOf ts, 0 < x.width)
    (hl : l ∈ locationsOf above start index ts) (hkind : l.node.kind ∉ Kind.carriers) :
    Lexeme.bareWidth (leavesOf l.node.children) < Lexeme.bareWidth (leavesOf ts) := by
  cases ts with
  | nil => cases hl
  | cons t ts =>
      rw [leavesOf, List.forall_mem_append] at hpos
      rw [holdsAny, Bool.or_eq_true] at hts
      rw [locationsOf, List.mem_append] at hl
      rw [leavesOf, Lexeme.bareWidth_append]
      rcases hl with hl | hl
      · rcases hts with ht | hts
        · have hlt := bareWidth_lt ht hpos.1 hl hkind
          omega
        · have hfirst : l ∈ locationsOf above start index [t] := by
            rw [locationsOf, locationsOf, List.append_nil]
            exact hl
          have hle := bareWidth_le_of_mem hfirst
          have hrest := bareWidthOf_pos hts hpos.2
          rw [leavesOf, leavesOf, List.append_nil] at hle
          omega
      · rcases hts with ht | hts
        · have hle := bareWidth_le_of_mem hl
          have hfirst := bareWidth_pos ht hpos.1
          omega
        · have hlt := bareWidthOf_lt hts hpos.2 hl hkind
          omega

end

/-! ### Where nodes are moved -/

/-- Where a node of some trees is moved, if other lexemes stand before and behind them. -/
theorem squeeze_of_mem_locationsOf {ts : List Tree} {above : List Node} {index : Nat} {l : Location}
    {xs : List Lexeme} (zs : List Lexeme) (hl : l ∈ locationsOf above (Lexeme.widthOf xs) index ts) :
    ∃ before behind, leavesOf ts = before ++ leavesOf l.node.children ++ behind
      ∧ Lexeme.squeeze (xs ++ leavesOf ts ++ zs) l.span
        = Span.ofWidth (Lexeme.bareWidth xs + Lexeme.bareWidth before)
          (Lexeme.bareWidth (leavesOf l.node.children)) := by
  rcases split_of_mem_locationsOf hl with ⟨before, behind, hleaves, hstart⟩
  refine ⟨before, behind, hleaves, ?_⟩
  have hsqueeze := Lexeme.squeeze_between (xs ++ before) (leavesOf l.node.children) (behind ++ zs)
  rw [Lexeme.widthOf_append, Lexeme.bareWidth_append, ← hstart, ← widthOf_eq] at hsqueeze
  rw [hleaves, ← hsqueeze]
  simp only [List.append_assoc]
  rfl

theorem squeeze_of_mem_locationsAt {t : Tree} {above : List Node} {index : Nat} {l : Location}
    {xs : List Lexeme} (zs : List Lexeme) (hl : l ∈ locationsAt above (Lexeme.widthOf xs) index t) :
    ∃ before behind, t.leaves = before ++ leavesOf l.node.children ++ behind
      ∧ Lexeme.squeeze (xs ++ t.leaves ++ zs) l.span
        = Span.ofWidth (Lexeme.bareWidth xs + Lexeme.bareWidth before)
          (Lexeme.bareWidth (leavesOf l.node.children)) := by
  have hmem : l ∈ locationsOf above (Lexeme.widthOf xs) index [t] := by
    rw [locationsOf, locationsOf, List.append_nil]
    exact hl
  have hleaves : leavesOf [t] = t.leaves := by rw [leavesOf, leavesOf, List.append_nil]
  rw [← hleaves]
  exact squeeze_of_mem_locationsOf zs hmem

/-- What spans that are the same tell of the tokens in them. -/
theorem width_of_ofWidth_eq {start start' width width' : Nat}
    (h : Span.ofWidth start width = Span.ofWidth start' width') :
    start = start' ∧ width = width' := by
  rw [Span.ofWidth, Span.ofWidth, Span.mk.injEq] at h
  omega

/-- What stands in a tree is not squeezed to the same span as what stands behind that tree. -/
theorem squeeze_ne_of_behind {t : Tree} {ts : List Tree} {above : List Node} {index index' : Nat}
    {l l' : Location} {xs : List Lexeme} (zs : List Lexeme)
    (hpos : ∀ x ∈ leavesOf l.node.children, 0 < x.width)
    (hl : l ∈ locationsAt above (Lexeme.widthOf xs) index t)
    (hl' : l' ∈ locationsOf above (Lexeme.widthOf (xs ++ t.leaves)) index' ts)
    (hown : holdsAny l.node.children = true) :
    Lexeme.squeeze (xs ++ t.leaves ++ leavesOf ts ++ zs) l.span
      ≠ Lexeme.squeeze (xs ++ t.leaves ++ leavesOf ts ++ zs) l'.span := by
  intro h
  rcases squeeze_of_mem_locationsAt (leavesOf ts ++ zs) hl with ⟨before, behind, hleaves, hfirst⟩
  rcases squeeze_of_mem_locationsOf zs hl' with ⟨before', _, -, hrest⟩
  rw [← List.append_assoc] at hfirst
  rw [hfirst, hrest] at h
  have hstart := (width_of_ofWidth_eq h).1
  have hsome := bareWidthOf_pos hown hpos
  rw [Lexeme.bareWidth_append, hleaves, Lexeme.bareWidth_append, Lexeme.bareWidth_append] at hstart
  omega

/-- The leaves of a node are leaves of the tree. -/
theorem leaves_of_mem_locationsAt {t : Tree} {above : List Node} {start index : Nat} {l : Location}
    (hl : l ∈ locationsAt above start index t) : ∀ x ∈ leavesOf l.node.children, x ∈ t.leaves := by
  rcases split_of_mem_locationsAt hl with ⟨before, behind, hleaves, -⟩
  intro x hx
  rw [hleaves]
  exact List.mem_append_left _ (List.mem_append_right _ hx)

mutual

theorem eq_of_squeeze_eqAt {t : Tree} {above : List Node} {index : Nat} {l l' : Location}
    {xs : List Lexeme} (zs : List Lexeme) (hpos : ∀ x ∈ t.leaves, 0 < x.width)
    (hl : l ∈ locationsAt above (Lexeme.widthOf xs) index t)
    (hl' : l' ∈ locationsAt above (Lexeme.widthOf xs) index t)
    (hown : holdsAny l.node.children = true) (hown' : holdsAny l'.node.children = true)
    (hcarrier : l.node.kind ∉ Kind.carriers) (hkind : l.node.kind = l'.node.kind)
    (h : Lexeme.squeeze (xs ++ t.leaves ++ zs) l.span
      = Lexeme.squeeze (xs ++ t.leaves ++ zs) l'.span) : l = l' := by
  have hwidth : Lexeme.bareWidth (leavesOf l.node.children)
      = Lexeme.bareWidth (leavesOf l'.node.children) := by
    rcases squeeze_of_mem_locationsAt zs hl with ⟨_, _, -, hsqueeze⟩
    rcases squeeze_of_mem_locationsAt zs hl' with ⟨_, _, -, hsqueeze'⟩
    rw [hsqueeze, hsqueeze'] at h
    exact (width_of_ofWidth_eq h).2
  cases t with
  | token lexeme => cases hl
  | node kind children =>
      rw [locationsAt, List.mem_cons] at hl hl'
      rcases hl with rfl | hl
      · rcases hl' with rfl | hl'
        · rfl
        · have hlt := bareWidthOf_lt hown hpos hl' (hkind ▸ hcarrier)
          exact absurd hwidth (Nat.ne_of_gt hlt)
      · rcases hl' with rfl | hl'
        · have hlt := bareWidthOf_lt hown' hpos hl hcarrier
          exact absurd hwidth (Nat.ne_of_lt hlt)
        · exact eq_of_squeeze_eqOf zs hpos hl hl' hown hown' hcarrier hkind h

/-- Two nodes of one kind with tokens of their own are the same one if they are squeezed to the
    same span. -/
theorem eq_of_squeeze_eqOf {ts : List Tree} {above : List Node} {index : Nat} {l l' : Location}
    {xs : List Lexeme} (zs : List Lexeme) (hpos : ∀ x ∈ leavesOf ts, 0 < x.width)
    (hl : l ∈ locationsOf above (Lexeme.widthOf xs) index ts)
    (hl' : l' ∈ locationsOf above (Lexeme.widthOf xs) index ts)
    (hown : holdsAny l.node.children = true) (hown' : holdsAny l'.node.children = true)
    (hcarrier : l.node.kind ∉ Kind.carriers) (hkind : l.node.kind = l'.node.kind)
    (h : Lexeme.squeeze (xs ++ leavesOf ts ++ zs) l.span
      = Lexeme.squeeze (xs ++ leavesOf ts ++ zs) l'.span) : l = l' := by
  cases ts with
  | nil => cases hl
  | cons t ts =>
      have hbehind : Lexeme.widthOf xs + t.width = Lexeme.widthOf (xs ++ t.leaves) := by
        rw [Lexeme.widthOf_append, width_eq]
      rw [leavesOf, List.forall_mem_append] at hpos
      rw [locationsOf, List.mem_append, hbehind] at hl hl'
      rw [leavesOf, ← List.append_assoc] at h
      rcases hl with hl | hl
      · have hposl := fun x hx => hpos.1 x (leaves_of_mem_locationsAt hl x hx)
        rcases hl' with hl' | hl'
        · rw [List.append_assoc] at h
          exact eq_of_squeeze_eqAt _ hpos.1 hl hl' hown hown' hcarrier hkind h
        · exact absurd h (squeeze_ne_of_behind zs hposl hl hl' hown)
      · rcases hl' with hl' | hl'
        · have hposl := fun x hx => hpos.1 x (leaves_of_mem_locationsAt hl' x hx)
          exact absurd h.symm (squeeze_ne_of_behind zs hposl hl' hl hown')
        · exact eq_of_squeeze_eqOf zs hpos.2 hl hl' hown hown' hcarrier hkind h

end

/-- Where the nodes of a tree stand without trivia. A span that no node of a kind has is moved
    behind all that have one. -/
def squeeze (t : Tree) : Move := fun kind span =>
  if t.locations.any fun l => l.node.kind == kind && l.span == span then
    Lexeme.squeeze t.leaves span
  else ⟨span.start + Lexeme.widthOf t.leaves + 1, span.stop⟩

variable {t : Tree}

theorem squeeze_of_mem {l : Location} (hl : l ∈ t.locations) :
    t.squeeze l.node.kind l.span = Lexeme.squeeze t.leaves l.span := by
  refine if_pos (List.any_eq_true.mpr ⟨l, hl, ?_⟩)
  rw [beq_self_eq_true, beq_self_eq_true, Bool.and_self]

/-- A span is squeezed, or no node of the kind has it. -/
theorem squeeze_cases (t : Tree) (kind : Kind) (span : Span) :
    (∃ l ∈ t.locations, l.node.kind = kind ∧ l.span = span)
      ∨ t.squeeze kind span = ⟨span.start + Lexeme.widthOf t.leaves + 1, span.stop⟩ := by
  by_cases h : t.locations.any fun l => l.node.kind == kind && l.span == span
  · rcases List.any_eq_true.mp h with ⟨l, hl, hkey⟩
    rw [Bool.and_eq_true, beq_iff_eq, beq_iff_eq] at hkey
    exact .inl ⟨l, hl, hkey⟩
  · exact .inr (if_neg h)

/-- The span of a node is only brought together with spans of other nodes. -/
theorem mem_of_squeeze_eq {l : Location} (hl : l ∈ t.locations) {span : Span}
    (h : t.squeeze l.node.kind span = t.squeeze l.node.kind l.span) :
    ∃ l' ∈ t.locations, l'.node.kind = l.node.kind ∧ l'.span = span := by
  rcases squeeze_cases t l.node.kind span with hmem | hmoved
  · exact hmem
  · rw [squeeze_of_mem hl, hmoved, Lexeme.squeeze, Span.mk.injEq] at h
    have hle := Lexeme.bareOffset_le t.leaves l.span.start
    omega

/-- A node with a token of its own keeps a span of its own, if the other nodes of its kind have
    such a token or nothing at all. -/
theorem span_eq_of_squeeze_eq {l l' : Location} (hpos : ∀ x ∈ t.leaves, 0 < x.width)
    (hl : l ∈ t.locations) (hl' : l' ∈ t.locations) (hown : holdsAny l.node.children = true)
    (hown' : l'.node.children = [] ∨ holdsAny l'.node.children = true)
    (hcarrier : l.node.kind ∉ Kind.carriers) (hkind : l.node.kind = l'.node.kind)
    (h : t.squeeze l.node.kind l.span = t.squeeze l'.node.kind l'.span) : l.span = l'.span := by
  rw [squeeze_of_mem hl, squeeze_of_mem hl'] at h
  -- Nothing stands before or behind the whole tree.
  have hwhole : t.leaves = [] ++ t.leaves ++ [] := by rw [List.nil_append, List.append_nil]
  have hroot : ∀ l ∈ t.locations, l ∈ locationsAt [] (Lexeme.widthOf []) 0 t := fun _ hl => hl
  rw [hwhole] at h
  rcases hown' with hempty | hown'
  · rcases squeeze_of_mem_locationsAt [] (hroot l hl) with ⟨_, _, -, hsqueeze⟩
    rcases squeeze_of_mem_locationsAt [] (hroot l' hl') with ⟨_, _, -, hsqueeze'⟩
    rw [hsqueeze, hsqueeze', hempty] at h
    have hwidth := (width_of_ofWidth_eq h).2
    have hsome := bareWidthOf_pos hown fun x hx => hpos x (leaves_of_mem_locationsAt hl x hx)
    exact absurd hwidth (Nat.ne_of_gt hsome)
  · exact congrArg Location.span (eq_of_squeeze_eqAt [] hpos (hroot l hl) (hroot l' hl') hown hown'
      hcarrier hkind h)

mutual

theorem Anchored.of_mem_locationsAt {t : Tree} {above : List Node} {start index : Nat}
    {l : Location} (ht : t.Anchored) (hl : l ∈ locationsAt above start index t) :
    l.node.tree.Anchored := by
  cases t with
  | token lexeme => cases hl
  | node kind children =>
      rw [locationsAt, List.mem_cons] at hl
      rcases hl with rfl | hl
      · exact ht
      · cases ht with
        | node _ _ _ hbelow => exact Anchored.of_mem_locationsOf hbelow hl

/-- Every node of an anchored tree is anchored. -/
theorem Anchored.of_mem_locationsOf {ts : List Tree} {above : List Node} {start index : Nat}
    {l : Location} (hts : ∀ t ∈ ts, t.Anchored) (hl : l ∈ locationsOf above start index ts) :
    l.node.tree.Anchored := by
  cases ts with
  | nil => cases hl
  | cons t ts =>
      rw [List.forall_mem_cons] at hts
      rw [locationsOf, List.mem_append] at hl
      rcases hl with hl | hl
      · exact Anchored.of_mem_locationsAt hts.1 hl
      · exact Anchored.of_mem_locationsOf hts.2 hl

end

theorem not_carrier_of_expression {kind : Kind} (h : kind ∈ Kind.expressions) :
    kind ∉ Kind.carriers := by
  revert kind
  decide

/-- No two expressions of a kind are moved to the same place. -/
theorem isFaithful_squeeze (ht : t.Anchored) (hpos : ∀ x ∈ t.leaves, 0 < x.width) :
    t.squeeze.IsFaithful := by
  intro kind hkind span span' h
  have howned : ∀ l ∈ t.locations, l.node.kind = kind → holdsAny l.node.children = true := by
    rintro l hl rfl
    cases ht.of_mem_locationsAt hl with
    | node hown _ _ _ => exact hown hkind
  have hsame : ∀ l ∈ t.locations, l.node.kind = kind → ∀ span,
      t.squeeze kind span = t.squeeze kind l.span → span = l.span := by
    rintro l hl rfl span h
    rcases mem_of_squeeze_eq hl h with ⟨l', hl', hkind', rfl⟩
    refine span_eq_of_squeeze_eq hpos hl' hl (howned l' hl' hkind') (.inr (howned l hl rfl)) ?_
      hkind' (hkind'.symm ▸ h)
    exact hkind'.symm ▸ not_carrier_of_expression hkind
  rcases squeeze_cases t kind span with ⟨l, hl, hkey, rfl⟩ | hmoved
  · exact (hsame l hl hkey span' h.symm).symm
  · rcases squeeze_cases t kind span' with ⟨l, hl, hkey, rfl⟩ | hmoved'
    · exact hsame l hl hkey span h
    · rw [hmoved, hmoved', Span.mk.injEq] at h
      cases span
      cases span'
      rw [Span.mk.injEq]
      dsimp only at h
      omega

/-- Of a variable of which there is anything, no other one is moved to the same place. -/
theorem squeeze_varDeclarator (ht : t.Anchored) (hpos : ∀ x ∈ t.leaves, 0 < x.width)
    {l : Location} (hl : l ∈ t.locations) (hkind : l.node.kind = .varDeclarator)
    (hsome : l.node.children ≠ []) {span : Span}
    (h : t.squeeze .varDeclarator span = t.squeeze .varDeclarator l.span) : span = l.span := by
  have howned : ∀ l ∈ t.locations, l.node.kind = .varDeclarator →
      l.node.children = [] ∨ holdsAny l.node.children = true := by
    intro l hl hkind
    cases ht.of_mem_locationsAt hl with
    | node _ _ hown _ => exact hown hkind
  rw [← hkind] at h
  rcases mem_of_squeeze_eq hl h with ⟨l', hl', hkind', rfl⟩
  have hown := (howned l hl hkind).resolve_left hsome
  refine (span_eq_of_squeeze_eq hpos hl hl' hown (howned l' hl' (hkind'.trans hkind)) ?_
    hkind'.symm (hkind'.symm ▸ h.symm)).symm
  rw [hkind]
  decide

end Tree

end Syntax

end Nominal
