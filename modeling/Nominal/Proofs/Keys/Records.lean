import Nominal.Proofs.Keys.Productions
import Nominal.Proofs.Layout.Sites
import Nominal.Proofs.Tallied

/-!
# Keys Belong to Nodes

The type of a node is filed under its kind and span, and looked up there. No other node that has a
type has the same ones: an expression has a token that no expression of its kind inside it has, a
variable has such a token or is empty and behind another token than the next empty one, and a
parameter of a lambda is a token.

Nothing is filed under any other key, since the spans in a program are those of the nodes that it
was built of. To see this, all other spans are moved out of the way. That changes nothing in the
program, so it changes nothing in what is filed.

## Main definitions

* `Kind.typed`: The nodes that types are filed for.
* `Tree.scatter`: Spans of no node are moved behind all those of nodes.

## Theorems

* `eq_of_typed_key_eq`: Two nodes that types are filed for have different keys.
* `exists_of_mem_records`: What is filed is filed for a node.
* `keys_identify`: So it is filed for one node, and read back for this one only.
-/

namespace Nominal

open Syntax (Tree Kind Lexeme Location Node)
open Text (Span)
open Typing (NodeKey)
open Program (Part SourceFile Expr)

namespace Syntax

/-- The nodes that types are filed for. -/
def Kind.typed : List Kind := .varDeclarator :: .lambdaParam :: Kind.expressions

namespace Tree

/-! ### Keys of nodes -/

/-- What has a token of its own has some extent. -/
theorem widthOf_pos_of_holdsAny {ts : List Tree} (hts : holdsAny ts = true)
    (hpos : ∀ x ∈ leavesOf ts, 0 < x.width) : 0 < widthOf ts := by
  have hbare := bareWidthOf_pos hts hpos
  have hle := Lexeme.bareOffset_le (leavesOf ts ++ []) (Lexeme.widthOf (leavesOf ts))
  rw [Lexeme.bareOffset_append, List.append_nil, ← widthOf_eq] at hle
  exact Nat.lt_of_lt_of_le hbare hle

/-- Two variables of which nothing is there or which have a token of their own. -/
theorem eq_of_variable_span_eq {children : List Tree} {final : Bool}
    (hspaced : Spaced false children final) (ht : (node .root children).Anchored)
    (hpos : ∀ x ∈ leavesOf children, 0 < x.width) {l l' : Location}
    (hl : l ∈ (node .root children).locations) (hl' : l' ∈ (node .root children).locations)
    (hkind : l.node.kind = .varDeclarator) (hkind' : l'.node.kind = .varDeclarator)
    (hspan : l.span = l'.span) : l = l' := by
  have hcases : ∀ l ∈ (node .root children).locations, l.node.kind = .varDeclarator →
      l ∈ locationsOf [⟨.root, children, 0, 0⟩] 0 0 children
      ∧ (l.node.children = []
        ∨ holdsAny l.node.children = true ∧ 0 < widthOf l.node.children) := by
    intro l hl hkind
    refine ⟨mem_below_root hl (by rw [hkind]; decide), ?_⟩
    cases ht.of_mem_locationsAt hl with
    | node _ _ hvariable _ =>
        refine (hvariable hkind).imp_right fun hown => ⟨hown, ?_⟩
        exact widthOf_pos_of_holdsAny hown fun x hx => hpos x (leaves_of_mem_locationsAt hl x hx)
  rcases hcases l hl hkind with ⟨hmem, hempty⟩
  rcases hcases l' hl' hkind' with ⟨hmem', hempty'⟩
  have hsame : l.node.start = l'.node.start
      ∧ widthOf l.node.children = widthOf l'.node.children := width_of_ofWidth_eq hspan
  rcases hempty with hempty | ⟨hown, hwidth⟩
  · rcases hempty' with hempty' | ⟨_, hwidth'⟩
    · exact hspaced.eq_of_start_eq hpos hmem hmem' ⟨hkind, hempty⟩ ⟨hkind', hempty'⟩ hsame.1
    · rw [hempty] at hsame
      exact absurd hsame.2 (Nat.ne_of_lt hwidth')
  · rcases hempty' with hempty' | ⟨hown', _⟩
    · rw [hempty'] at hsame
      exact absurd hsame.2 (Nat.ne_of_gt hwidth)
    · have hroot : ∀ l ∈ (node .root children).locations,
          l ∈ locationsAt [] (Lexeme.widthOf []) 0 (node .root children) := fun _ h => h
      have hcarrier : l.node.kind ∉ Kind.carriers := by
        rw [hkind]
        decide
      exact eq_of_squeeze_eqAt (t := node .root children) [] hpos (hroot l hl) (hroot l' hl') hown
        hown' hcarrier (hkind.trans hkind'.symm) (congrArg _ hspan)

/-- Two nodes that types are filed for are the same one if they have the same key. -/
theorem eq_of_typed_key_eq {children : List Tree} {final : Bool}
    (hspaced : Spaced false children final) (ht : (node .root children).Anchored)
    (hpos : ∀ x ∈ leavesOf children, 0 < x.width) {l l' : Location}
    (hl : l ∈ (node .root children).locations) (hl' : l' ∈ (node .root children).locations)
    (hkind : l.node.kind ∈ Kind.typed) (hkey : l.key = l'.key) : l = l' := by
  have hsame : l.node.kind = l'.node.kind ∧ l.span = l'.span := by
    rw [Location.key, Location.key, NodeKey.mk.injEq] at hkey
    exact hkey
  rw [Kind.typed, List.mem_cons, List.mem_cons] at hkind
  rcases hkind with hkind | hkind | hkind
  · exact eq_of_variable_span_eq hspaced ht hpos hl hl' hkind (hsame.1 ▸ hkind) hsame.2
  · have hkind' : l'.node.kind = .lambdaParam := hsame.1 ▸ hkind
    have hmem := mem_below_root hl (by rw [hkind]; decide)
    have hmem' := mem_below_root hl' (by rw [hkind']; decide)
    exact hspaced.eq_of_param_start_eq hpos hmem hmem' hkind hkind'
      (width_of_ofWidth_eq hsame.2).1
  · exact eq_of_key_eq ht hpos hl hl' hkind hkey

/-! ### Spans of no node -/

/-- A span that no node of a kind has is moved behind all that have one. -/
def scatter (t : Tree) : Move := fun kind span =>
  if t.locations.any fun l => l.key == ⟨kind, span⟩ then span
  else ⟨span.start + t.width + 1, span.stop + t.width + 1⟩

variable {t : Tree}

/-- The nodes of the tree stay where they are. -/
theorem scatter_of_mem {l : Location} (hl : l ∈ t.locations) :
    t.scatter l.node.kind l.span = l.span :=
  if_pos (List.any_eq_true.mpr ⟨l, hl, beq_self_eq_true l.key⟩)

/-- A span stays where it is, or no node of the kind has it. -/
theorem scatter_cases (t : Tree) (kind : Kind) (span : Span) :
    (∃ l ∈ t.locations, l.key = ⟨kind, span⟩)
      ∨ t.scatter kind span = ⟨span.start + t.width + 1, span.stop + t.width + 1⟩ := by
  by_cases h : t.locations.any fun l => l.key == ⟨kind, span⟩
  · rcases List.any_eq_true.mp h with ⟨l, hl, hkey⟩
    exact .inl ⟨l, hl, eq_of_beq hkey⟩
  · exact .inr (if_neg h)

/-- What stays where it is is the span of a node. -/
theorem mem_of_scatter_eq {kind : Kind} {span : Span} (h : t.scatter kind span = span) :
    ∃ l ∈ t.locations, l.key = ⟨kind, span⟩ := by
  refine (scatter_cases t kind span).resolve_right fun hmoved => ?_
  have hstart := congrArg Span.start (hmoved.symm.trans h)
  simp only at hstart
  omega

theorem isFaithful_scatter (t : Tree) : t.scatter.IsFaithful := by
  -- A node starts before the end of the tree, and what has been moved starts behind it.
  have hinside : ∀ {kind : Kind} {span : Span}, (∃ l ∈ t.locations, l.key = ⟨kind, span⟩) →
      t.scatter kind span = span ∧ span.start ≤ t.width := by
    rintro kind span ⟨l, hl, hkey⟩
    rw [Location.key, NodeKey.mk.injEq] at hkey
    rcases hkey with ⟨rfl, rfl⟩
    refine ⟨scatter_of_mem hl, ?_⟩
    rcases split_of_mem_locationsAt hl with ⟨before, behind, hleaves, hstart⟩
    have hwidth := congrArg Lexeme.widthOf hleaves
    rw [← width_eq, Lexeme.widthOf_append, Lexeme.widthOf_append] at hwidth
    have hspan : l.span.start = l.node.start := rfl
    omega
  intro kind _ span span' h
  rcases scatter_cases t kind span with hmem | hmoved
  · rcases scatter_cases t kind span' with hmem' | hmoved'
    · rwa [(hinside hmem).1, (hinside hmem').1] at h
    · rw [(hinside hmem).1, hmoved'] at h
      have hstart := (hinside hmem).2
      rw [h] at hstart
      simp only at hstart
      omega
  · rcases scatter_cases t kind span' with hmem' | hmoved'
    · rw [(hinside hmem').1, hmoved] at h
      have hstart := (hinside hmem').2
      rw [← h] at hstart
      simp only at hstart
      omega
    · rw [hmoved, hmoved', Span.mk.injEq] at h
      rcases span with ⟨start, stop⟩
      rcases span' with ⟨start', stop'⟩
      rw [Span.mk.injEq]
      simp only at h
      omega

end Tree

end Syntax

/-! ### What is filed -/

namespace Program

variable {m : Move}

mutual

/-- A part stays the same if the nodes that it was built of stay where they are. -/
theorem Part.move_ofTree {t : Tree} {above : List Node} {start index : Nat}
    (h : ∀ l ∈ Tree.locationsAt above start index t, m l.node.kind l.span = l.span) :
    (Part.ofTree start t).move m = Part.ofTree start t := by
  cases t with
  | token l => rfl
  | node kind children =>
      rw [Tree.locationsAt, List.forall_mem_cons] at h
      have hspan : m kind (Span.ofWidth start (Tree.widthOf children))
          = Span.ofWidth start (Tree.widthOf children) := h.1
      rw [Part.ofTree, ← Part.assemble_move, hspan, Part.map_move_ofTrees h.2]

theorem Part.map_move_ofTrees {ts : List Tree} {above : List Node} {start index : Nat}
    (h : ∀ l ∈ Tree.locationsOf above start index ts, m l.node.kind l.span = l.span) :
    (Part.ofTrees start ts).map (Part.move m) = Part.ofTrees start ts := by
  cases ts with
  | nil => rfl
  | cons t ts =>
      rw [Tree.locationsOf, List.forall_mem_append] at h
      rw [Part.ofTrees, List.map_cons, Part.move_ofTree h.1, Part.map_move_ofTrees h.2]

end

/-- The program of a tree has no spans but those of nodes. -/
theorem SourceFile.move_scatter (t : Tree) :
    (SourceFile.ofTree t).move t.scatter = SourceFile.ofTree t := by
  have hpart : (Part.ofTree 0 t).move t.scatter = Part.ofTree 0 t :=
    Part.move_ofTree fun _ hl => Tree.scatter_of_mem hl
  rw [SourceFile.ofTree]
  cases hof : Part.ofTree 0 t with
  | file file =>
      rw [hof] at hpart
      exact Part.file.inj hpart
  | _ => rfl

end Program

namespace Typing

variable {declared : Types.DeclaredTypes}

/-- Types are filed for expressions, variables and parameters of lambdas only. -/
theorem kind_of_mem_records {file : SourceFile} {r : Types.Registry} {key : NodeKey}
    {type : Types.TypeId} (h : (key, type) ∈ (typeFile declared file r).records) :
    key.kind ∈ Kind.typed := by
  rw [Kind.typed, List.mem_cons, List.mem_cons]
  by_cases hvariable : key.kind = .varDeclarator
  · exact .inl hvariable
  · by_cases hparam : key.kind = .lambdaParam
    · exact .inr (.inl hparam)
    · -- What is filed under another kind is filed for an expression that is visited.
      have hfiled : 0 < timesFiled key (typeFile declared file r).records :=
        List.countP_pos_iff.mpr ⟨(key, type), h, beq_self_eq_true key⟩
      have hvisited := Nat.lt_of_lt_of_le hfiled (timesFiled_typeFile file r hparam hvariable)
      rcases List.countP_pos_iff.mp hvisited with ⟨e, _, hkey⟩
      rw [beq_iff_eq, Expr.key?, Option.map_eq_some_iff] at hkey
      rcases hkey with ⟨span, hspan, rfl⟩
      exact .inr (.inr (kind_of_span? hspan))

end Typing

namespace Model

/-- What is filed is filed for a node of the tree. -/
theorem exists_of_mem_records {t : Tree} {key : NodeKey} {type : Types.TypeId}
    (h : (key, type) ∈ (ofTree t).1.records) : ∃ l ∈ t.locations, l.key = key := by
  have hmoved : (ofTree t).1.Moved t.scatter (ofTree t).1 :=
    (moved_ofTree (Tree.isFaithful_scatter t) (SourceFile.move_scatter t).symm).1
  have hfixed : ∀ r ∈ (ofTree t).1.records, (r.1.move t.scatter, r.2) = r := by
    have hmap : (ofTree t).1.records.map (fun r => (r.1.move t.scatter, r.2))
        = (ofTree t).1.records.map id := by
      rw [List.map_id]
      exact hmoved.records.symm
    exact List.map_inj_left.mp hmap
  have hkey := congrArg Prod.fst (hfixed _ h)
  rcases key with ⟨kind, span⟩
  rw [NodeKey.move, NodeKey.mk.injEq] at hkey
  exact Tree.mem_of_scatter_eq hkey.2

/-- What is read back for a node has been filed under its key. -/
theorem mem_records_of_typeOf? {m : Model} {l : Location} {type : Types.TypeId}
    (h : m.typeOf? l = some type) : (l.key, type) ∈ m.records := by
  rw [typeOf?, typeAt?, Option.map_eq_some_iff] at h
  rcases h with ⟨⟨key, _⟩, hfind, rfl⟩
  have hkey : (key == l.key) = true :=
    List.find?_some (p := fun r : NodeKey × Types.TypeId => r.1 == l.key) hfind
  rw [← eq_of_beq hkey]
  exact List.mem_of_find?_eq_some hfind

end Model

namespace Grammar

/-- The kind and the span of a variable, of a parameter of a lambda or of an expression belong to
    this node only, whether or not the source has mistakes. Types are filed under such keys, and so
    a type that is read back for a node was filed for this node. -/
theorem keys_identify {limits : Limits} {source : String} {parsed : Parsed}
    (h : parseWith limits source = .ok parsed) :
    ((parsed.tree.locations.filter fun l => Kind.typed.contains l.node.kind).map
      Location.key).Nodup
    ∧ (∀ r ∈ (Model.ofTree parsed.tree).1.records, r.1.kind ∈ Kind.typed
      ∧ ∃! l, l ∈ parsed.tree.locations ∧ l.key = r.1)
    ∧ ∀ l ∈ parsed.tree.locations, ∀ type, (Model.ofTree parsed.tree).1.typeOf? l = some type →
      ∃ r ∈ (Model.ofTree parsed.tree).1.records, r.2 = type
        ∧ ∀ l' ∈ parsed.tree.locations, l'.key = r.1 ↔ l' = l := by
  rcases spaced_parseLexemes h with ⟨children, final, htree, hspaced⟩
  have hanchored := anchored_parseLexemes h
  have hpos : ∀ x ∈ parsed.tree.leaves, 0 < x.width := by
    rw [leaves_parseLexemes h]
    exact Syntax.pos_of_mem_lex source
  have hkeys : ∀ l ∈ parsed.tree.locations, ∀ l' ∈ parsed.tree.locations,
      l.node.kind ∈ Kind.typed → l'.key = l.key → l' = l := by
    rw [htree] at hanchored hpos ⊢
    intro l hl l' hl' hkind hkey
    exact (Tree.eq_of_typed_key_eq hspaced hanchored hpos hl hl' hkind hkey.symm).symm
  have hrecords : ∀ r ∈ (Model.ofTree parsed.tree).1.records, r.1.kind ∈ Kind.typed
      ∧ ∃ l ∈ parsed.tree.locations, l.key = r.1 :=
    fun r hr => ⟨Typing.kind_of_mem_records hr, Model.exists_of_mem_records hr⟩
  refine ⟨List.pairwise_map.mpr ?_, fun r hr => ?_, fun l hl type htype => ?_⟩
  · refine ((Syntax.pairwise_locations _).filter _).imp_of_mem fun {l l'} hl hl' hless hkey => ?_
    rw [List.mem_filter, List.contains_iff_mem] at hl hl'
    rw [hkeys l hl.1 l' hl'.1 hl.2 hkey.symm] at hless
    exact List.lt_irrefl _ hless
  · rcases hrecords r hr with ⟨hkind, l, hl, hkey⟩
    refine ⟨hkind, l, ⟨hl, hkey⟩, fun l' hl' => ?_⟩
    exact hkeys l hl l' hl'.1 (by rw [← hkey] at hkind; exact hkind) (hl'.2.trans hkey.symm)
  · have hr := Model.mem_records_of_typeOf? htype
    refine ⟨(l.key, type), hr, rfl, fun l' hl' => ⟨fun hkey => ?_, fun hsame => by rw [hsame]⟩⟩
    exact hkeys l hl l' hl' (hrecords _ hr).1 hkey

/-- A class with a field and a local of which there are only commas, and with parameters of lambdas
    that have the same name. -/
theorem keys_identify_commas :
    ∃ parsed, parseWith defaultLimits
        "class C { int f, , ; void M() { var a, , = g(x => (x, x) => new { }, ), ; } }" = .ok parsed
      ∧ parsed.diagnostics ≠ []
      ∧ (parsed.tree.locations.filter fun l =>
        l.node.kind == .varDeclarator && l.node.children.isEmpty).length = 4
      ∧ ((parsed.tree.locations.filter fun l => Kind.typed.contains l.node.kind).map
        Location.key).Nodup
      ∧ (∀ r ∈ (Model.ofTree parsed.tree).1.records, r.1.kind ∈ Kind.typed
        ∧ ∃! l, l ∈ parsed.tree.locations ∧ l.key = r.1)
      ∧ ∀ l ∈ parsed.tree.locations, ∀ type, (Model.ofTree parsed.tree).1.typeOf? l = some type →
        ∃ r ∈ (Model.ofTree parsed.tree).1.records, r.2 = type
          ∧ ∀ l' ∈ parsed.tree.locations, l'.key = r.1 ↔ l' = l := by
  have hcheck : ((parseWith defaultLimits
      "class C { int f, , ; void M() { var a, , = g(x => (x, x) => new { }, ), ; } }").toOption.any
        fun parsed => !parsed.diagnostics.isEmpty && (parsed.tree.locations.filter fun l =>
          l.node.kind == .varDeclarator && l.node.children.isEmpty).length == 4) = true := by
    decide +kernel
  cases hparse : parseWith defaultLimits
      "class C { int f, , ; void M() { var a, , = g(x => (x, x) => new { }, ), ; } }" with
  | error failure =>
      rw [hparse] at hcheck
      cases hcheck
  | ok parsed =>
      rw [hparse] at hcheck
      simp only [Except.toOption, Option.any_some, Bool.and_eq_true, Bool.not_eq_true',
        List.isEmpty_eq_false_iff, beq_iff_eq] at hcheck
      exact ⟨parsed, rfl, hcheck.1, hcheck.2, keys_identify hparse⟩

end Grammar

end Nominal
