import Nominal.Proofs.Layout.Squeezed
import Nominal.Proofs.Preview
import Nominal.Proofs.Typed.Filed
import Nominal.Proofs.Visited

/-!
# Expressions Are Visited Once

A program is made of the nodes of a tree, and typing goes through the program. So it may only
come across an expression as often as there is a node for it in the tree. That is not a matter of
course, since a node picks its parts by their sort, and a part that is picked twice would be visited
twice. But it is picked as an expression, say, or as a block, and what is picked first is not
picked second.

How often something is visited is counted. Every way to pick parts takes its share of what is
visited in all parts, and shares of different sorts add up to no more than the whole. Whether
there is room for all parts does not matter here: what is overlooked is not visited at all.

## Main definitions

* `Part.share`: How often an expression is visited in the parts of some sorts.
* `Location.key`: What the type of a node is filed under.

## Theorems

* `Part.times_assemble_le`: A node adds at most itself to what is visited in its parts.
* `timesVisited_ofTree_le`: No expression is visited more often than there are nodes for it.
* `eq_of_key_eq`: Two expressions of a kind at the same span are the same one.
* `timesVisited_items_le_one`: No expression of a file is visited twice.
-/

namespace Nominal

open Syntax (Tree Kind Location Node)
open Text (Span)
open Typing (NodeKey timesVisited timesVisited_append)

/-- What the type of a node is filed under. -/
def Syntax.Location.key (l : Location) : NodeKey := ⟨l.node.kind, l.span⟩

namespace Program

namespace Part

/-- How often an expression is visited in some parts. -/
def total (key : NodeKey) : List Part → Nat
  | [] => 0
  | p :: ps => timesVisited key p.visited + total key ps

/-- How often it is visited in those parts that are of some sorts. -/
def share (key : NodeKey) (ss : List PartSort) : List Part → Nat
  | [] => 0
  | p :: ps => (if ss.contains p.sort then timesVisited key p.visited else 0) + share key ss ps

section Share

variable {key : NodeKey} {ss ss' : List PartSort} {ps : List Part}

/-- Shares of different sorts add up to no more than the whole. -/
theorem share_add_le (h : ∀ s ∈ ss, s ∉ ss') :
    share key ss ps + share key ss' ps ≤ total key ps := by
  induction ps with
  | nil => exact Nat.le_refl 0
  | cons p ps ih =>
      rw [share, share, total]
      -- The first part is of one sort only, so it counts on one side at most.
      by_cases hp : ss.contains p.sort
      · have hp' : ¬ ss'.contains p.sort = true := by
          rw [List.contains_iff_mem]
          exact h p.sort (List.contains_iff_mem.mp hp)
        rw [if_pos hp, if_neg hp']
        omega
      · rw [if_neg hp]
        split
        · omega
        · omega

theorem share_le : share key ss ps ≤ total key ps := by
  have hnone : ∀ s ∈ ss, s ∉ ([] : List PartSort) := fun _ _ => List.not_mem_nil
  exact Nat.le_trans (Nat.le_add_right _ _) (share_add_le hnone)

namespace Picks

variable {α : Type} {pick : Part → Option α} {seen : α → List Expr} {found : α → List Creation}

/-- What is picked takes no more than its share. -/
theorem all_le (h : Picks pick seen found ss) {all : List α → List Expr} (hnil : all [] = [])
    (hcons : ∀ a as, all (a :: as) = seen a ++ all as) :
    timesVisited key (all (ps.filterMap pick)) ≤ share key ss ps := by
  induction ps with
  | nil =>
      rw [List.filterMap_nil, hnil]
      exact Nat.le_refl 0
  | cons p ps ih =>
      rw [share]
      cases hpick : pick p with
      | none =>
          rw [List.filterMap_cons_none hpick]
          omega
      | some a =>
          have hsort : ss.contains p.sort = true := by
            rw [← h.isSome, hpick, Option.isSome_some]
          rw [List.filterMap_cons_some hpick, hcons, timesVisited_append, if_pos hsort,
            h.visited_eq p a hpick]
          omega

/-- The first part that is picked is one of them. -/
theorem first_le (h : Picks pick seen found ss) {a : α} (ha : ps.findSome? pick = some a) :
    timesVisited key (seen a) ≤ share key ss ps := by
  have hall : timesVisited key ((ps.filterMap pick).flatMap seen) ≤ share key ss ps :=
    h.all_le rfl fun _ _ => List.flatMap_cons
  rw [← List.head?_filterMap, List.head?_eq_some_iff] at ha
  rcases ha with ⟨as, has⟩
  rw [has, List.flatMap_cons, timesVisited_append] at hall
  exact Nat.le_of_add_right_le hall

end Picks

/-! ### Several parts of a sort -/

theorem times_exprs_le : timesVisited key (visitedOf (exprs ps)) ≤ share key [.expr] ps :=
  picks_exprs.all_le rfl fun _ _ => rfl

theorem times_stmts_le :
    timesVisited key (visitedOfStmts (stmts ps)) ≤ share key [.block, .stmt] ps :=
  picks_stmts.all_le rfl fun _ _ => rfl

theorem times_items_le : timesVisited key (visitedOfItems (items ps)) ≤ total key ps :=
  Nat.le_trans (picks_items.all_le rfl fun _ _ => rfl) share_le

theorem times_members_le : timesVisited key (visitedOfTypeMembers (members ps)) ≤ total key ps :=
  Nat.le_trans (picks_members.all_le rfl fun _ _ => rfl) share_le

theorem times_declarators_le :
    timesVisited key (visitedOfDeclarators (declarators ps)) ≤ total key ps := by
  refine Nat.le_trans (picks_declarators.all_le rfl fun d ds => ?_) share_le
  cases d
  simp only [visitedOfDeclarators, List.append_nil]

theorem times_anonMembers_le :
    timesVisited key (visitedOfMembers (anonMembers ps)) ≤ total key ps := by
  refine Nat.le_trans (picks_anonMembers.all_le rfl fun m ms => ?_) share_le
  cases m
  simp only [visitedOfMembers, List.append_nil]

theorem times_memberInits_le : timesVisited key (visitedOfInits (ps.filterMap fun
    | .memberInit m => some m
    | _ => Option.none)) ≤ share key [.memberInit] ps := by
  refine picks_memberInits.all_le rfl fun m ms => ?_
  cases m
  simp only [visitedOfInits, List.append_nil]

theorem times_accessorParts_le : timesVisited key (visitedOfAccessors (ps.filterMap fun
    | .accessor a => some a
    | _ => Option.none)) ≤ total key ps :=
  Nat.le_trans (picks_accessor.all_le rfl fun _ _ => rfl) share_le

/-! ### Single parts of a sort -/

theorem times_argsOf_le : timesVisited key (visitedOf (argsOf ps)) ≤ share key [.args] ps := by
  rw [argsOf]
  cases hargs : ps.findSome? _ with
  | none => exact Nat.zero_le _
  | some es => exact picks_args.first_le hargs

theorem times_accessorsOf_le : timesVisited key (visitedOfAccessors ((ps.findSome? fun
    | .accessors list => some list
    | _ => Option.none).getD [])) ≤ share key [.accessors] ps := by
  cases has : ps.findSome? _ with
  | none => exact Nat.zero_le _
  | some as => exact picks_accessors.first_le has

theorem times_initializerOf_le : timesVisited key (visitedOfInitializer (ps.findSome? fun
    | .objectInit init => some init
    | _ => Option.none)) ≤ share key [.objectInit] ps := by
  cases hinit : ps.findSome? _ with
  | none => exact Nat.zero_le _
  | some init => exact picks_objectInit.first_le hinit

theorem times_elementsOf_le : timesVisited key (visitedOfElements (ps.findSome? fun
    | .arrayInit elements => some elements
    | _ => Option.none)) ≤ share key [.arrayInit] ps := by
  cases helements : ps.findSome? _ with
  | none => exact Nat.zero_le _
  | some elements => exact picks_arrayInit.first_le helements

theorem times_firstStmt_le :
    timesVisited key ((stmts ps).head?.getD .missing).visited ≤ share key [.block, .stmt] ps := by
  rw [stmts, List.head?_filterMap]
  cases hstmt : ps.findSome? _ with
  | none => exact Nat.zero_le _
  | some s => exact picks_stmts.first_le hstmt

/-- The first three expressions are different ones. -/
theorem times_threeExprs_le : timesVisited key (exprAt 0 ps).visited
    + (timesVisited key (exprAt 1 ps).visited + timesVisited key (exprAt 2 ps).visited)
      ≤ share key [.expr] ps := by
  have hexprs : timesVisited key (visitedOf (exprs ps)) ≤ share key [.expr] ps := times_exprs_le
  have hcons : ∀ e es, timesVisited key (visitedOf (e :: es))
      = timesVisited key e.visited + timesVisited key (visitedOf es) := fun e es =>
    timesVisited_append key e.visited (visitedOf es)
  rw [exprAt, exprAt, exprAt]
  -- An expression that is not there is not visited either.
  generalize exprs ps = es at hexprs
  rcases es with _ | ⟨a, _ | ⟨b, _ | ⟨c, es⟩⟩⟩
  · exact Nat.zero_le _
  · rw [hcons] at hexprs
    exact hexprs
  · rw [hcons, hcons] at hexprs
    exact hexprs
  · rw [hcons, hcons, hcons] at hexprs
    refine Nat.le_trans ?_ hexprs
    exact Nat.add_le_add_left (Nat.add_le_add_left (Nat.le_add_right _ _) _) _

theorem times_oneExpr_le : timesVisited key (exprAt 0 ps).visited ≤ share key [.expr] ps :=
  Nat.le_trans (Nat.le_add_right _ _) times_threeExprs_le

/-- A body is a block or an expression. -/
theorem times_body_le : timesVisited key (body ps).visited
    ≤ share key [.block] ps + share key [.expr] ps := by
  rw [body, exprs, List.head?_filterMap]
  cases hblock : ps.findSome? _ with
  | some ss => exact Nat.le_add_right_of_le (picks_block.first_le hblock)
  | none =>
      cases hexpr : ps.findSome? _ with
      | some e => exact Nat.le_add_left_of_le (picks_exprs.first_le hexpr)
      | none => exact Nat.zero_le _

/-- Of a body that is an expression nothing is visited as a block. -/
theorem times_blockBody_le : timesVisited key (body ps).blockVisited ≤ total key ps := by
  rw [body]
  cases hblock : ps.findSome? _ with
  | some ss => exact Nat.le_trans (picks_block.first_le hblock) share_le
  | none =>
      cases (exprs ps).head? with
      | some e => exact Nat.zero_le _
      | none => exact Nat.zero_le _

/-! ### What a node makes of its parts -/

/-- A single expression and parts of other sorts are no more than the whole. -/
theorem times_oneExpr_add_le {n : Nat} (hn : n ≤ share key ss ps) (hss : .expr ∉ ss) :
    timesVisited key (exprAt 0 ps).visited + n ≤ total key ps := by
  have hshares : share key [.expr] ps + share key ss ps ≤ total key ps :=
    share_add_le (List.forall_mem_singleton.mpr hss)
  have hexpr : timesVisited key (exprAt 0 ps).visited ≤ share key [.expr] ps := times_oneExpr_le
  omega

/-- What is visited inside an expression is visited in the parts of its node. -/
theorem times_within_le (kind : Kind) (span : Span) :
    timesVisited key (expression kind span ps).within ≤ total key ps := by
  have hnone : timesVisited key [] ≤ total key ps := Nat.zero_le _
  have hone : timesVisited key (exprAt 0 ps).visited ≤ total key ps :=
    Nat.le_trans times_oneExpr_le share_le
  have hthree : timesVisited key (exprAt 0 ps).visited
      + (timesVisited key (exprAt 1 ps).visited + timesVisited key (exprAt 2 ps).visited)
        ≤ total key ps :=
    Nat.le_trans times_threeExprs_le share_le
  cases kind with
  | parenExpr | prefixExpr | postfixExpr | castExpr => exact hone
  | memberAccess =>
      rw [expression]
      cases name? ps with
      | none => exact hnone
      | some name => exact hone
  | call =>
      rw [expression, Expr.within, timesVisited_append]
      exact times_oneExpr_add_le times_argsOf_le (by decide)
  | indexExpr | binaryExpr | assignExpr =>
      rw [expression, Expr.within, timesVisited_append]
      exact Nat.le_trans (Nat.add_le_add_left (Nat.le_add_right _ _) _) hthree
  | conditionalExpr =>
      rw [← timesVisited_append, ← timesVisited_append] at hthree
      exact hthree
  | lambda => exact Nat.le_trans times_body_le (share_add_le (by decide))
  | anonObjectCreation => exact times_anonMembers_le
  | objectCreation =>
      rw [expression, Expr.within, timesVisited_append]
      exact Nat.le_trans (Nat.add_le_add times_argsOf_le times_initializerOf_le)
        (share_add_le (by decide))
  | arrayCreation =>
      rw [expression, Expr.within, timesVisited_append]
      exact Nat.le_trans (Nat.add_le_add times_exprs_le times_elementsOf_le)
        (share_add_le (by decide))
  | _ => exact hnone

/-- An expression adds itself to what is visited inside it. -/
theorem times_expr_le {e : Expr} {own : NodeKey} {n : Nat} (h : e.key? = some own)
    (hn : timesVisited key e.within ≤ n) :
    timesVisited key e.visited ≤ (if own == key then 1 else 0) + n := by
  have hself : timesVisited key [e] = if own == key then 1 else 0 := by
    rw [timesVisited, List.countP_singleton, h, Option.some_beq_some]
  rw [Expr.visited, timesVisited_append, hself]
  omega

/-- A node adds at most itself to what is visited in its parts. -/
theorem times_assemble_le (kind : Kind) (span : Span) : timesVisited key (assemble kind span ps).visited
    ≤ (if (⟨kind, span⟩ : NodeKey) == key then 1 else 0) + total key ps := by
  have hwhole : ∀ {n : Nat}, n ≤ total key ps →
      n ≤ (if (⟨kind, span⟩ : NodeKey) == key then 1 else 0) + total key ps :=
    Nat.le_add_left_of_le
  have hnone := hwhole (Nat.zero_le _)
  have hone := hwhole (Nat.le_trans times_oneExpr_le share_le)
  -- Only expressions are visited themselves; other nodes just hand on what is in their parts.
  cases kind with
  | literal | nameRef | thisExpr | parenExpr | memberAccess | call | indexExpr | prefixExpr
  | postfixExpr | binaryExpr | assignExpr | conditionalExpr | castExpr | lambda
  | anonObjectCreation | objectCreation | arrayCreation =>
      exact times_expr_le rfl (times_within_le _ span)
  | root | namespaceDecl => exact hwhole times_items_le
  | typeDecl => exact hwhole times_members_le
  | fieldDecl | localDecl => exact hwhole times_declarators_le
  | propertyDecl =>
      rw [assemble, visited, Member.visited, timesVisited_append]
      exact hwhole (times_oneExpr_add_le times_accessorsOf_le (by decide))
  | accessorList => exact hwhole times_accessorParts_le
  | accessor | constructorDecl => exact hwhole times_blockBody_le
  | methodDecl => exact hwhole (Nat.le_trans times_body_le (share_add_le (by decide)))
  | block => exact hwhole (Nat.le_trans times_stmts_le share_le)
  | exprStmt | returnStmt => exact hone
  | varDeclarator =>
      rw [assemble, visited, visitedOfDeclarators, visitedOfDeclarators, List.append_nil]
      exact hone
  | anonMember =>
      rw [assemble, visited, visitedOfMembers, visitedOfMembers, List.append_nil]
      exact hone
  | memberInit =>
      rw [assemble, visited, visitedOfInits, visitedOfInits, List.append_nil]
      exact hone
  | ifStmt =>
      rw [assemble, visited, Stmt.visited, timesVisited_append]
      exact hwhole (times_oneExpr_add_le times_stmts_le (by decide))
  | foreachStmt =>
      rw [assemble, visited, Stmt.visited, timesVisited_append]
      exact hwhole (times_oneExpr_add_le times_firstStmt_le (by decide))
  | argList | arrayInit => exact hwhole (Nat.le_trans times_exprs_le share_le)
  | objectInit =>
      rw [assemble, visited, visitedOfInitializer, timesVisited_append]
      exact hwhole (Nat.le_trans (Nat.add_le_add times_memberInits_le times_exprs_le)
        (share_add_le (by decide)))
  | _ => exact hnone

end Share

end Part

/-! ### From parts to nodes -/

mutual

/-- No expression in a tree is visited more often than there are nodes for it. -/
theorem timesVisited_ofTree_le (key : NodeKey) (above : List Node) (start index : Nat) (t : Tree) :
    timesVisited key (Part.ofTree start t).visited
      ≤ (Tree.locationsAt above start index t).countP fun l => l.key == key := by
  cases t with
  | token l => exact Nat.zero_le _
  | node kind children =>
      have hparts := total_ofTrees_le key (⟨kind, children, start, index⟩ :: above) start 0 children
      have hnode : timesVisited key (Part.ofTree start (.node kind children)).visited ≤ _ :=
        Part.times_assemble_le kind (Span.ofWidth start (Tree.widthOf children))
      rw [ Tree.locationsAt, List.countP_cons, Nat.add_comm]
      exact Nat.le_trans hnode (Nat.add_le_add_left hparts _)

theorem total_ofTrees_le (key : NodeKey) (above : List Node) (start index : Nat) (ts : List Tree) :
    Part.total key (Part.ofTrees start ts)
      ≤ (Tree.locationsOf above start index ts).countP fun l => l.key == key := by
  cases ts with
  | nil => exact Nat.zero_le _
  | cons t ts =>
      have hfirst := timesVisited_ofTree_le key above start index t
      have hrest := total_ofTrees_le key above (start + t.width) (index + 1) ts
      rw [Part.ofTrees, Part.total, Tree.locationsOf, List.countP_append]
      exact Nat.add_le_add hfirst hrest

end

end Program

namespace Syntax

/-- Two expressions of a kind at the same span are the same one, since each of them has a token
    that no expression of its kind inside it has. -/
theorem eq_of_key_eq {t : Tree} (ht : t.Anchored) (hpos : ∀ x ∈ t.leaves, 0 < x.width)
    {l l' : Location} (hl : l ∈ t.locations) (hl' : l' ∈ t.locations)
    (hkind : l.node.kind ∈ Kind.expressions) (hkey : l.key = l'.key) : l = l' := by
  rw [Location.key, Location.key, NodeKey.mk.injEq] at hkey
  rcases hkey with ⟨hsame, hspan⟩
  have howned : ∀ l ∈ t.locations, l.node.kind ∈ Kind.expressions →
      Tree.holdsAny l.node.children = true := by
    intro l hl hkind
    cases ht.of_mem_locationsAt hl with
    | node hown _ _ _ => exact hown hkind
  -- Nothing stands before or behind the whole tree.
  have hroot : ∀ l ∈ t.locations, l ∈ Tree.locationsAt [] (Lexeme.widthOf []) 0 t := fun _ h => h
  exact Tree.eq_of_squeeze_eqAt [] hpos (hroot l hl) (hroot l' hl') (howned l hl hkind)
    (howned l' hl' (hsame ▸ hkind)) (Tree.not_carrier_of_expression hkind) hsame
    (congrArg _ hspan)

/-- There is at most one node for an expression. -/
theorem countP_key_le_one {t : Tree} (ht : t.Anchored) (hpos : ∀ x ∈ t.leaves, 0 < x.width)
    {key : NodeKey} (hkind : key.kind ∈ Kind.expressions) :
    (t.locations.countP fun l => l.key == key) ≤ 1 := by
  rw [List.countP_eq_length_filter]
  have hpairs := (pairwise_locations t).filter fun l => l.key == key
  have hkeys : ∀ l ∈ t.locations.filter (fun l => l.key == key), l ∈ t.locations ∧ l.key = key := by
    intro l hl
    rw [List.mem_filter, beq_iff_eq] at hl
    exact hl
  generalize t.locations.filter (fun l => l.key == key) = found at hpairs hkeys
  rcases found with _ | ⟨l, _ | ⟨l', ls⟩⟩
  · exact Nat.zero_le 1
  · exact Nat.le_refl 1
  · -- Two different nodes would have different paths.
    rcases hkeys l (.head _) with ⟨hl, hkey⟩
    rcases hkeys l' (.tail _ (.head _)) with ⟨hl', hkey'⟩
    have hlkind : l.node.kind ∈ Kind.expressions := by
      rw [← hkey] at hkind
      exact hkind
    have hsame := eq_of_key_eq ht hpos hl hl' hlkind (hkey.trans hkey'.symm)
    have hless := List.rel_of_pairwise_cons hpairs (.head _)
    rw [hsame] at hless
    exact absurd hless (List.lt_irrefl _)

end Syntax

/-- No expression of a file is visited twice. -/
theorem timesVisited_items_le_one {t : Tree} (ht : t.Anchored) (hpos : ∀ x ∈ t.leaves, 0 < x.width)
    {children : List Tree} (hroot : t = .node .root children) {key : NodeKey}
    (hkind : key.kind ∈ Kind.expressions) :
    timesVisited key (Program.visitedOfItems (Program.SourceFile.ofTree t).items) ≤ 1 := by
  have hitems : Program.visitedOfItems (Program.SourceFile.ofTree t).items
      = (Program.Part.ofTree 0 t).visited := by
    rw [hroot]
    rfl
  rw [hitems]
  exact Nat.le_trans (Program.timesVisited_ofTree_le key [] 0 0 t)
    (Syntax.countP_key_le_one ht hpos hkind)

end Nominal
