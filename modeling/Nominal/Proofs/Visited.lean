import Nominal.Program.OfTree
import Nominal.Proofs.Located
import Nominal.Proofs.Shape
import Nominal.Proofs.Typed

/-!
# Where Typing Comes By

Which creations typing visits is known for a program. Here it becomes a statement about the
nodes of the tree that the program was built of: typing visits a creation unless it, or a
node that it stands in, is passed over by the node above.

A node picks its parts by their sort, the first expression, say, or all statements. It
overlooks none of them because its shape has no room for more. The sort of a part depends
only on the kind of its node, so how much room there is can be read off the shape.

## Main definitions

* `Node.isPassedOver`: Whether typing passes over a node because of the one above it.
* `isPassedOver`: Whether it passes over a node or over one above it.
* `PartSort`: The sorts of parts that may have creations in them.
* `Slot.room`: How many nodes go into slots.

## Theorems

* `Fits.countP_le`: No more nodes than there is room for.
* `mem_creations_assemble`: A node has the creations of its parts, except where it passes over
  them.
* `mem_creations_ofTree`: The creations of a program are those in its tree that are not
  passed over.
-/

namespace Nominal

open Syntax (Tree Kind Lexeme Location Node Slot Fits)
open Text (Span)

namespace Syntax

/-- Whether typing passes over a node because of the one above it: a default value, an
    expression that an accessor or a constructor consists of, or what a member is taken of
    if the member has no name. -/
def Node.isPassedOver (n parent : Node) : Bool :=
  match parent.kind with
  | .param => true
  | .accessor | .constructorDecl => Kind.expressions.contains n.kind
  | .memberAccess => (parent.token? .id).isNone
  | _ => false

/-- Whether typing passes over a node or over one above it, given them from the inside out. -/
def isPassedOver : List Node → Bool
  | n :: parent :: above => n.isPassedOver parent || isPassedOver (parent :: above)
  | _ => false

theorem isPassedOver_append (inner : List Node) {outer : List Node}
    (h : isPassedOver outer = true) : isPassedOver (inner ++ outer) = true := by
  induction inner with
  | nil => exact h
  | cons n inner ih =>
      cases hrest : inner ++ outer with
      | nil =>
          rw [List.append_eq_nil_iff] at hrest
          rw [hrest.2] at h
          cases h
      | cons parent above =>
          rw [List.cons_append, hrest, isPassedOver, ← hrest, ih, Bool.or_true]

/-! ### Room -/

/-- How many of `n` nodes with a property go into slots. -/
def Slot.room (P : Kind → Bool) (n : Nat) : List Slot → Nat
  | [] => 0
  | .one kinds :: ps => (if kinds.any P then 1 else 0) + room P n ps
  | .many kinds :: ps => (if kinds.any P then n else 0) + room P n ps

/-- No more nodes than there is room for. -/
theorem Fits.countP_le {ps : List Slot} {ks : List Kind} (P : Kind → Bool) {n : Nat}
    (hn : ks.length ≤ n) (h : Fits ps ks) : ks.countP P ≤ Slot.room P n ps := by
  have hany : ∀ {k : Kind} {kinds : List Kind}, k ∈ kinds → P k = true → kinds.any P = true :=
    fun hk hP => List.any_eq_true.mpr ⟨_, hk, hP⟩
  induction h with
  | nil => exact Nat.le_refl 0
  | @skip p ps ks h ih =>
      cases p with
      | one kinds => exact Nat.le_add_left_of_le (ih hn)
      | many kinds => exact Nat.le_add_left_of_le (ih hn)
  | @one kinds ps k ks hk h ih =>
      have hrest := ih (Nat.le_of_succ_le hn)
      rw [List.countP_cons, Slot.room]
      split
      · next hP =>
          rw [if_pos (hany hk hP)]
          omega
      · omega
  | @many kinds ps k ks hk h ih =>
      by_cases hP : P k = true
      · have hall : (k :: ks).countP P ≤ n := Nat.le_trans List.countP_le_length hn
        rw [Slot.room, if_pos (hany hk hP)]
        omega
      · rw [List.countP_cons_of_neg hP]
        exact ih (Nat.le_of_succ_le hn)

/-- Every node goes into a slot for its kind. -/
theorem Fits.mem {ps : List Slot} {ks : List Kind} (h : Fits ps ks) :
    ∀ k ∈ ks, k ∈ ps.flatMap Slot.kinds := by
  induction h with
  | nil => exact nofun
  | skip _ ih => exact fun k hk => List.mem_append_right _ (ih k hk)
  | one hk _ ih =>
      rw [List.forall_mem_cons]
      exact ⟨List.mem_append_left _ hk, fun k hk => List.mem_append_right _ (ih k hk)⟩
  | many hk _ ih =>
      rw [List.forall_mem_cons]
      exact ⟨List.mem_append_left _ hk, ih⟩

end Syntax

namespace Program

/-- The sorts of parts that may have creations in them; all others are mute. -/
inductive PartSort where
  | mute | expr | block | stmt | member | typeDecl | item | accessors | accessor | declarator
  | args | anonMember | memberInit | objectInit | arrayInit | file
deriving DecidableEq

/-- The sort of the part that a node of a kind is. -/
def sortOf : Kind → PartSort
  | .root => .file
  | .usingDirective | .namespaceDecl => .item
  | .typeDecl => .typeDecl
  | .fieldDecl | .propertyDecl | .methodDecl | .constructorDecl => .member
  | .accessorList => .accessors
  | .accessor => .accessor
  | .block => .block
  | .localDecl | .exprStmt | .returnStmt | .ifStmt | .foreachStmt => .stmt
  | .varDeclarator => .declarator
  | .argList => .args
  | .anonMember => .anonMember
  | .memberInit => .memberInit
  | .objectInit => .objectInit
  | .arrayInit => .arrayInit
  | .literal | .nameRef | .thisExpr | .parenExpr | .memberAccess | .call | .indexExpr
  | .prefixExpr | .postfixExpr | .binaryExpr | .assignExpr | .conditionalExpr | .castExpr
  | .lambda | .anonObjectCreation | .objectCreation | .arrayCreation => .expr
  | _ => .mute

/-- Blocks are a sort of their own among the statements. -/
def Stmt.sort : Stmt → PartSort
  | .block _ => .block
  | _ => .stmt

namespace Part

/-- The sort of a part. -/
def sort : Part → PartSort
  | .expr _ => .expr
  | .stmt s => s.sort
  | .member _ => .member
  | .typeDecl _ => .typeDecl
  | .item _ => .item
  | .accessors _ => .accessors
  | .accessor _ => .accessor
  | .declarator _ => .declarator
  | .args _ => .args
  | .anonMember _ => .anonMember
  | .memberInit _ => .memberInit
  | .objectInit _ => .objectInit
  | .arrayInit _ => .arrayInit
  | .file _ => .file
  | _ => .mute

/-- The expressions in a part that typing visits. -/
def visited : Part → List Expr
  | .expr e => e.visited
  | .stmt s => s.visited
  | .member m => m.visited
  | .typeDecl d => d.visited
  | .item i => i.visited
  | .accessors as => visitedOfAccessors as
  | .accessor a => a.body.blockVisited
  | .declarator d => visitedOfDeclarators [d]
  | .args es => visitedOf es
  | .anonMember m => visitedOfMembers [m]
  | .memberInit m => visitedOfInits [m]
  | .objectInit i => visitedOfInitializer (some i)
  | .arrayInit es => visitedOf es
  | .file f => visitedOfItems f.items
  | _ => []

/-- The creations in a part that typing visits. -/
def creations : Part → List Creation
  | .expr e => e.creations
  | .stmt s => s.creations
  | .member m => m.creations
  | .typeDecl d => d.creations
  | .item i => i.creations
  | .accessors as => creationsOfAccessors as
  | .accessor a => a.body.blockCreations
  | .declarator d => creationsOfDeclarators [d]
  | .args es => creationsOf es
  | .anonMember m => creationsOfMembers [m]
  | .memberInit m => creationsOfInits [m]
  | .objectInit i => creationsOfInitializer (some i)
  | .arrayInit es => creationsOf es
  | .file f => creationsOfItems f.items
  | _ => []

section

variable (e : Expr) (s : Stmt) (m : Member) (d : TypeDecl) (i : Item)

theorem creations_expr : (Part.expr e).creations = e.creations := rfl

theorem creations_stmt : (Part.stmt s).creations = s.creations := rfl

theorem creations_member : (Part.member m).creations = m.creations := rfl

theorem creations_typeDecl : (Part.typeDecl d).creations = d.creations := rfl

theorem creations_item : (Part.item i).creations = i.creations := rfl

theorem creations_declarator (d : Declarator) :
    (Part.declarator d).creations = creationsOfDeclarators [d] := rfl

theorem creations_anonMember (m : AnonMember) :
    (Part.anonMember m).creations = creationsOfMembers [m] := rfl

theorem creations_memberInit (m : MemberInit) :
    (Part.memberInit m).creations = creationsOfInits [m] := rfl

theorem creations_objectInit (i : Initializer) :
    (Part.objectInit i).creations = creationsOfInitializer (some i) := rfl

end

/-- The creations in a part are among what is visited in it. -/
theorem creationsAmong_visited (p : Part) : creationsAmong p.visited = p.creations := by
  cases p with
  | expr e => exact creationsAmong_expr e
  | stmt s => exact creationsAmong_stmt s
  | member m => exact creationsAmong_member m
  | typeDecl d => exact creationsAmong_typeDecl d
  | item i => exact creationsAmong_item i
  | accessors as => exact creationsAmong_accessors as
  | accessor a => exact creationsAmong_blockVisited a.body
  | declarator d => exact creationsAmong_declarators [d]
  | args es => exact creationsAmong_exprs es
  | anonMember m => exact creationsAmong_members [m]
  | memberInit m => exact creationsAmong_inits [m]
  | objectInit i => exact creationsAmong_initializer (some i)
  | arrayInit es => exact creationsAmong_exprs es
  | file f => exact creationsAmong_visitedOfItems f.items
  | _ => rfl

theorem sort_assemble (kind : Kind) (span : Span) (ps : List Part) :
    (assemble kind span ps).sort = sortOf kind := by
  cases kind <;> rfl

theorem creations_of_mute {p : Part} (h : p.sort = .mute) : p.creations = [] := by
  cases p with
  | stmt s => cases s <;> cases h
  | expr | member | typeDecl | item | accessors | accessor | declarator | args | anonMember
  | memberInit | objectInit | arrayInit | file => cases h
  | token | type | path | bases | typeArgs | params | param | lambdaParams | lambdaParam
  | none => rfl

/-! ### Picking parts -/

/-- A creation is in some part of one of these sorts. -/
def Within (ss : List PartSort) (ps : List Part) (x : Creation) : Prop :=
  ∃ p ∈ ps, p.sort ∈ ss ∧ x ∈ p.creations

/-- How many parts are of these sorts. -/
def count (ss : List PartSort) (ps : List Part) : Nat := ps.countP fun p => ss.contains p.sort

section Within

variable {ss : List PartSort} {ps : List Part} {x : Creation}

theorem within_cons {s : PartSort} : Within (s :: ss) ps x ↔ Within [s] ps x ∨ Within ss ps x := by
  simp only [Within, List.mem_cons, List.not_mem_nil, or_false, or_and_right, and_or_left,
    exists_or]

/-- No creation is overlooked if all other parts are mute. -/
theorem within_iff (h : ∀ p ∈ ps, p.sort = .mute ∨ p.sort ∈ ss) :
    Within ss ps x ↔ ∃ p ∈ ps, x ∈ p.creations := by
  constructor
  · rintro ⟨p, hp, _, hx⟩
    exact ⟨p, hp, hx⟩
  · rintro ⟨p, hp, hx⟩
    rcases h p hp with hmute | hsort
    · rw [creations_of_mute hmute] at hx
      cases hx
    · exact ⟨p, hp, hsort, hx⟩

/-- A way to pick parts picks all those of some sorts, each with what is visited in it and with
    the creations among that. -/
structure Picks {α : Type} (pick : Part → Option α) (seen : α → List Expr)
    (found : α → List Creation) (ss : List PartSort) : Prop where
  isSome : ∀ p, (pick p).isSome = ss.contains p.sort
  visited_eq : ∀ p a, pick p = some a → p.visited = seen a
  found_eq : ∀ a, creationsAmong (seen a) = found a

namespace Picks

variable {α : Type} {pick : Part → Option α} {seen : α → List Expr} {found : α → List Creation}

theorem creations_eq (h : Picks pick seen found ss) (p : Part) (a : α) (hpick : pick p = some a) :
    p.creations = found a := by
  rw [← creationsAmong_visited, h.visited_eq p a hpick, h.found_eq]

/-- What is picked has the creations of the parts of these sorts. -/
theorem mem_filterMap (h : Picks pick seen found ss) :
    (∃ a ∈ ps.filterMap pick, x ∈ found a) ↔ Within ss ps x := by
  constructor
  · rintro ⟨a, ha, hx⟩
    rcases List.mem_filterMap.mp ha with ⟨p, hp, hpick⟩
    refine ⟨p, hp, ?_, h.creations_eq p a hpick ▸ hx⟩
    rw [← List.contains_iff_mem, ← h.isSome, hpick, Option.isSome_some]
  · rintro ⟨p, hp, hsort, hx⟩
    rw [← List.contains_iff_mem, ← h.isSome, Option.isSome_iff_exists] at hsort
    rcases hsort with ⟨a, ha⟩
    rw [h.creations_eq p a ha] at hx
    exact ⟨a, List.mem_filterMap.mpr ⟨p, hp, ha⟩, hx⟩

theorem length_filterMap (h : Picks pick seen found ss) : (ps.filterMap pick).length = count ss ps := by
  rw [List.length_filterMap_eq_countP, count]
  exact congrArg (ps.countP ·) (funext h.isSome)

/-- The first part picked is the only one if there is no room for another. -/
theorem mem_findSome? (h : Picks pick seen found ss) (hcount : count ss ps ≤ 1) :
    (∃ a, ps.findSome? pick = some a ∧ x ∈ found a) ↔ Within ss ps x := by
  rw [← h.length_filterMap] at hcount
  rw [← h.mem_filterMap, ← List.head?_filterMap]
  cases hlist : ps.filterMap pick with
  | nil => simp
  | cons a as =>
      rw [hlist, List.length_cons] at hcount
      have hnil : as = [] := List.length_eq_zero_iff.mp (by omega)
      rw [hnil]
      simp

theorem count_pos (h : Picks pick seen found ss) {a : α} (ha : ps.findSome? pick = some a) :
    0 < count ss ps := by
  rw [← h.length_filterMap]
  refine List.length_pos_iff.mpr fun hnil => ?_
  rw [← List.head?_filterMap, hnil] at ha
  cases ha

end Picks

end Within

/-! ### Ways to pick -/

theorem picks_exprs : Picks (fun
    | .expr e => some e
    | _ => Option.none) Expr.visited Expr.creations [.expr] where
  isSome p := by
    cases p with
    | stmt s => cases s <;> rfl
    | _ => rfl
  visited_eq p a h := by cases p <;> cases h; rfl
  found_eq := creationsAmong_expr

theorem picks_stmts : Picks (fun
    | .stmt s => some s
    | _ => Option.none) Stmt.visited Stmt.creations [.block, .stmt] where
  isSome p := by
    cases p with
    | stmt s => cases s <;> rfl
    | _ => rfl
  visited_eq p a h := by cases p <;> cases h; rfl
  found_eq := creationsAmong_stmt

theorem picks_block : Picks (fun
    | .stmt (.block ss) => some ss
    | _ => Option.none) visitedOfStmts creationsOfStmts [.block] where
  isSome p := by
    cases p with
    | stmt s => cases s <;> rfl
    | _ => rfl
  visited_eq p a h := by
    cases p with
    | stmt s => cases s <;> cases h; rfl
    | _ => cases h
  found_eq := creationsAmong_stmts

theorem picks_declarators : Picks (fun
    | .declarator d => some d
    | _ => Option.none) (fun d => visitedOfDeclarators [d]) (fun d => creationsOfDeclarators [d])
    [.declarator] where
  isSome p := by
    cases p with
    | stmt s => cases s <;> rfl
    | _ => rfl
  visited_eq p a h := by cases p <;> cases h; rfl
  found_eq d := creationsAmong_declarators [d]

theorem picks_items : Picks (fun
    | .item i => some i
    | .typeDecl d => some (.type d)
    | .stmt s => some (.stmt s)
    | _ => Option.none) Item.visited Item.creations [.item, .typeDecl, .block, .stmt] where
  isSome p := by
    cases p with
    | stmt s => cases s <;> rfl
    | _ => rfl
  visited_eq p a h := by cases p <;> cases h <;> simp only [visited, Item.visited]
  found_eq := creationsAmong_item

theorem picks_members : Picks (fun
    | .member m => some m
    | .typeDecl d => some (.type d)
    | _ => Option.none) Member.visited Member.creations [.member, .typeDecl] where
  isSome p := by
    cases p with
    | stmt s => cases s <;> rfl
    | _ => rfl
  visited_eq p a h := by cases p <;> cases h <;> simp only [visited, Member.visited]
  found_eq := creationsAmong_member

theorem picks_accessors : Picks (fun
    | .accessors list => some list
    | _ => Option.none) visitedOfAccessors creationsOfAccessors [.accessors] where
  isSome p := by
    cases p with
    | stmt s => cases s <;> rfl
    | _ => rfl
  visited_eq p a h := by cases p <;> cases h; rfl
  found_eq := creationsAmong_accessors

theorem picks_accessor : Picks (fun
    | .accessor a => some a
    | _ => Option.none) (fun a => a.body.blockVisited) (fun a => a.body.blockCreations)
    [.accessor] where
  isSome p := by
    cases p with
    | stmt s => cases s <;> rfl
    | _ => rfl
  visited_eq p a h := by cases p <;> cases h; rfl
  found_eq a := creationsAmong_blockVisited a.body

theorem picks_args : Picks (fun
    | .args list => some list
    | _ => Option.none) visitedOf creationsOf [.args] where
  isSome p := by
    cases p with
    | stmt s => cases s <;> rfl
    | _ => rfl
  visited_eq p a h := by cases p <;> cases h; rfl
  found_eq := creationsAmong_exprs

theorem picks_anonMembers : Picks (fun
    | .anonMember m => some m
    | _ => Option.none) (fun m => visitedOfMembers [m]) (fun m => creationsOfMembers [m])
    [.anonMember] where
  isSome p := by
    cases p with
    | stmt s => cases s <;> rfl
    | _ => rfl
  visited_eq p a h := by cases p <;> cases h; rfl
  found_eq m := creationsAmong_members [m]

theorem picks_memberInits : Picks (fun
    | .memberInit m => some m
    | _ => Option.none) (fun m => visitedOfInits [m]) (fun m => creationsOfInits [m])
    [.memberInit] where
  isSome p := by
    cases p with
    | stmt s => cases s <;> rfl
    | _ => rfl
  visited_eq p a h := by cases p <;> cases h; rfl
  found_eq m := creationsAmong_inits [m]

theorem picks_objectInit : Picks (fun
    | .objectInit init => some init
    | _ => Option.none) (fun i => visitedOfInitializer (some i))
    (fun i => creationsOfInitializer (some i)) [.objectInit] where
  isSome p := by
    cases p with
    | stmt s => cases s <;> rfl
    | _ => rfl
  visited_eq p a h := by cases p <;> cases h; rfl
  found_eq i := creationsAmong_initializer (some i)

theorem picks_arrayInit : Picks (fun
    | .arrayInit elements => some elements
    | _ => Option.none) visitedOf creationsOf [.arrayInit] where
  isSome p := by
    cases p with
    | stmt s => cases s <;> rfl
    | _ => rfl
  visited_eq p a h := by cases p <;> cases h; rfl
  found_eq := creationsAmong_exprs

/-! ### Several parts of a sort -/

section Several

variable {ps : List Part} {x : Creation}

/-- The creations in several things are those in each of them. -/
theorem mem_of_cons {α : Type} {all : List α → List Creation} {each : α → List Creation}
    (hnil : all [] = []) (hcons : ∀ a as, all (a :: as) = each a ++ all as) {as : List α} :
    x ∈ all as ↔ ∃ a ∈ as, x ∈ each a := by
  induction as with
  | nil => simp [hnil]
  | cons a as ih => simp only [hcons, List.mem_append, ih, List.mem_cons, exists_eq_or_imp]

theorem mem_exprs : x ∈ creationsOf (exprs ps) ↔ Within [.expr] ps x :=
  (mem_of_cons rfl fun _ _ => rfl).trans picks_exprs.mem_filterMap

theorem mem_stmts : x ∈ creationsOfStmts (stmts ps) ↔ Within [.block, .stmt] ps x :=
  (mem_of_cons rfl fun _ _ => rfl).trans picks_stmts.mem_filterMap

theorem mem_items : x ∈ creationsOfItems (items ps) ↔
    Within [.item, .typeDecl, .block, .stmt] ps x :=
  (mem_of_cons rfl fun _ _ => rfl).trans picks_items.mem_filterMap

theorem mem_members : x ∈ creationsOfTypeMembers (members ps) ↔
    Within [.member, .typeDecl] ps x :=
  (mem_of_cons rfl fun _ _ => rfl).trans picks_members.mem_filterMap

theorem mem_declarators : x ∈ creationsOfDeclarators (declarators ps) ↔
    Within [.declarator] ps x := by
  refine (mem_of_cons rfl fun d ds => ?_).trans picks_declarators.mem_filterMap
  cases d
  simp only [creationsOfDeclarators, List.append_nil]

/-- The members of a creation among its parts. -/
def anonMembers (ps : List Part) : List AnonMember :=
  ps.filterMap fun
    | .anonMember m => some m
    | _ => Option.none

theorem mem_anonMembers : x ∈ creationsOfMembers (anonMembers ps) ↔ Within [.anonMember] ps x := by
  refine (mem_of_cons rfl fun m ms => ?_).trans picks_anonMembers.mem_filterMap
  cases m
  simp only [creationsOfMembers, List.append_nil]

theorem mem_memberInits : x ∈ creationsOfInits (ps.filterMap fun
    | .memberInit m => some m
    | _ => Option.none) ↔ Within [.memberInit] ps x := by
  refine (mem_of_cons rfl fun m ms => ?_).trans picks_memberInits.mem_filterMap
  cases m
  simp only [creationsOfInits, List.append_nil]

theorem mem_accessorParts : x ∈ creationsOfAccessors (ps.filterMap fun
    | .accessor a => some a
    | _ => Option.none) ↔ Within [.accessor] ps x :=
  (mem_of_cons rfl fun _ _ => rfl).trans picks_accessor.mem_filterMap

/-! ### The only part of a sort -/

theorem mem_getD {α : Type} {found : α → List Creation} {o : Option α} {a : α}
    (h : found a = []) : x ∈ found (o.getD a) ↔ ∃ b, o = some b ∧ x ∈ found b := by
  cases o with
  | none => simp [h]
  | some b => simp

theorem mem_argsOf (h : count [.args] ps ≤ 1) :
    x ∈ creationsOf (argsOf ps) ↔ Within [.args] ps x :=
  (mem_getD rfl).trans (picks_args.mem_findSome? h)

theorem mem_accessorsOf (h : count [.accessors] ps ≤ 1) :
    x ∈ creationsOfAccessors ((ps.findSome? fun
      | .accessors list => some list
      | _ => Option.none).getD []) ↔ Within [.accessors] ps x :=
  (mem_getD rfl).trans (picks_accessors.mem_findSome? h)

theorem mem_initializerOf (h : count [.objectInit] ps ≤ 1) :
    x ∈ creationsOfInitializer (ps.findSome? fun
      | .objectInit init => some init
      | _ => Option.none) ↔ Within [.objectInit] ps x := by
  rw [← picks_objectInit.mem_findSome? h]
  cases ps.findSome? _ with
  | none =>
      refine ⟨fun hx => absurd hx List.not_mem_nil, ?_⟩
      rintro ⟨_, heq, _⟩
      cases heq
  | some init =>
      refine ⟨fun hx => ⟨init, rfl, hx⟩, ?_⟩
      rintro ⟨_, heq, hx⟩
      cases heq
      exact hx

theorem mem_elementsOf (h : count [.arrayInit] ps ≤ 1) :
    x ∈ creationsOfElements (ps.findSome? fun
      | .arrayInit elements => some elements
      | _ => Option.none) ↔ Within [.arrayInit] ps x := by
  rw [← picks_arrayInit.mem_findSome? h]
  cases ps.findSome? _ with
  | none =>
      refine ⟨fun hx => absurd hx List.not_mem_nil, ?_⟩
      rintro ⟨_, heq, _⟩
      cases heq
  | some elements =>
      refine ⟨fun hx => ⟨elements, rfl, hx⟩, ?_⟩
      rintro ⟨_, heq, hx⟩
      cases heq
      exact hx

theorem mem_firstStmt (h : count [.block, .stmt] ps ≤ 1) :
    x ∈ ((stmts ps).head?.getD .missing).creations ↔ Within [.block, .stmt] ps x := by
  rw [mem_getD (by rfl), stmts, List.head?_filterMap]
  exact picks_stmts.mem_findSome? h

theorem mem_exprAt (n : Nat) : x ∈ (exprAt n ps).creations ↔
    ∃ e, (exprs ps)[n]? = some e ∧ x ∈ e.creations :=
  mem_getD rfl

/-- The expressions up to a number of them are all if there is no room for more. -/
theorem mem_exprsUpTo {n : Nat} (h : count [.expr] ps ≤ n) :
    (∃ i < n, x ∈ (exprAt i ps).creations) ↔ Within [.expr] ps x := by
  rw [← picks_exprs.length_filterMap] at h
  refine Iff.trans ?_ picks_exprs.mem_filterMap
  constructor
  · rintro ⟨i, _, hx⟩
    rw [mem_exprAt] at hx
    rcases hx with ⟨e, he, hx⟩
    exact ⟨e, List.mem_of_getElem? he, hx⟩
  · rintro ⟨e, he, hx⟩
    rcases List.mem_iff_getElem?.mp he with ⟨i, hi⟩
    exact ⟨i, Nat.lt_of_lt_of_le (List.getElem?_eq_some_iff.mp hi).1 h,
      (mem_exprAt i).mpr ⟨e, hi, hx⟩⟩

theorem mem_oneExpr (h : count [.expr] ps ≤ 1) :
    x ∈ (exprAt 0 ps).creations ↔ Within [.expr] ps x := by
  rw [← mem_exprsUpTo h]
  simp

theorem mem_twoExprs (h : count [.expr] ps ≤ 2) :
    (x ∈ (exprAt 0 ps).creations ∨ x ∈ (exprAt 1 ps).creations) ↔ Within [.expr] ps x := by
  rw [← mem_exprsUpTo h]
  simp only [Nat.exists_lt_succ_right, Nat.not_lt_zero, false_and, exists_false, false_or]

theorem mem_threeExprs (h : count [.expr] ps ≤ 3) :
    (x ∈ (exprAt 0 ps).creations ∨ x ∈ (exprAt 1 ps).creations ∨ x ∈ (exprAt 2 ps).creations) ↔
      Within [.expr] ps x := by
  rw [← mem_exprsUpTo h]
  simp only [Nat.exists_lt_succ_right, Nat.not_lt_zero, false_and, exists_false, false_or,
    or_assoc]

theorem not_within {ss : List PartSort} (h : count ss ps = 0) : ¬ Within ss ps x := by
  rintro ⟨p, hp, hsort, _⟩
  exact List.countP_eq_zero.mp h p hp (List.contains_iff_mem.mpr hsort)

theorem count_body : count [.expr, .block] ps = count [.expr] ps + count [.block] ps := by
  simp only [count]
  induction ps with
  | nil => rfl
  | cons p ps ih =>
      rw [List.countP_cons, List.countP_cons, List.countP_cons, ih]
      have heach : (if [PartSort.expr, .block].contains p.sort then 1 else 0)
          = (if [PartSort.expr].contains p.sort then 1 else 0)
            + (if [PartSort.block].contains p.sort then 1 else 0) := by
        cases p.sort <;> rfl
      omega

theorem exists_some_iff {α : Type} {o : Option α} {a : α} {P : α → Prop} (h : o = some a) :
    (∃ b, o = some b ∧ P b) ↔ P a := by
  simp [h]

theorem not_exists_some {α : Type} {o : Option α} {P : α → Prop} (h : o = Option.none) :
    ¬ ∃ b, o = some b ∧ P b := by
  simp [h]

/-- A body is a block or an expression, not both. -/
theorem body_eq (h : count [.expr, .block] ps ≤ 1) :
    (body ps = .missing ∧ ¬ Within [.expr] ps x ∧ ¬ Within [.block] ps x)
      ∨ (∃ e, body ps = .expr e ∧ (x ∈ e.creations ↔ Within [.expr] ps x)
        ∧ ¬ Within [.block] ps x)
      ∨ ∃ ss, body ps = .block ss ∧ ¬ Within [.expr] ps x
        ∧ (x ∈ creationsOfStmts ss ↔ Within [.block] ps x) := by
  rw [count_body] at h
  have hexpr := picks_exprs.mem_findSome? (x := x) (Nat.le_trans (Nat.le_add_right _ _) h)
  have hblock := picks_block.mem_findSome? (x := x) (Nat.le_trans (Nat.le_add_left _ _) h)
  rw [body, exprs, List.head?_filterMap]
  cases hb : ps.findSome? _ with
  | some ss =>
      have hpos := picks_block.count_pos hb
      have hnone : count [.expr] ps = 0 := by omega
      exact .inr (.inr ⟨ss, rfl, not_within hnone, (exists_some_iff hb).symm.trans hblock⟩)
  | none =>
      cases he : ps.findSome? _ with
      | some e =>
          exact .inr (.inl ⟨e, rfl, (exists_some_iff he).symm.trans hexpr,
            fun hx => not_exists_some hb (hblock.mpr hx)⟩)
      | none =>
          exact .inl ⟨rfl, fun hx => not_exists_some he (hexpr.mpr hx),
            fun hx => not_exists_some hb (hblock.mpr hx)⟩

/-- What a body does is found in its block, or else in its expression. -/
theorem mem_body (h : count [.expr, .block] ps ≤ 1) :
    x ∈ (body ps).creations ↔ Within [.expr, .block] ps x := by
  rw [within_cons]
  rcases body_eq (x := x) h with
    ⟨hbody, hexpr, hblock⟩ | ⟨e, hbody, hexpr, hblock⟩ | ⟨ss, hbody, hexpr, hblock⟩
  · rw [hbody, Body.creations]
    simp [hexpr, hblock]
  · rw [hbody, Body.creations, hexpr]
    simp [hblock]
  · rw [hbody, Body.creations, hblock]
    simp [hexpr]

/-- In a body that is an expression, nothing is found. -/
theorem mem_blockBody (h : count [.expr, .block] ps ≤ 1) :
    x ∈ (body ps).blockCreations ↔ Within [.block] ps x := by
  rcases body_eq (x := x) h with
    ⟨hbody, hexpr, hblock⟩ | ⟨e, hbody, hexpr, hblock⟩ | ⟨ss, hbody, hexpr, hblock⟩
  · rw [hbody, Body.blockCreations]
    simp [hblock]
  · rw [hbody, Body.blockCreations]
    simp [hblock]
  · rw [hbody, Body.blockCreations, hblock]

end Several

/-! ### What a node makes of its parts -/

/-- The parts of a node of a kind are of the sorts that its shape has room for. -/
structure HasShape (kind : Kind) (ps : List Part) : Prop where
  sorts : ∀ p ∈ ps, p.sort = .mute ∨ p.sort ∈ (kind.slots.flatMap Slot.kinds).map sortOf
  room : ∀ ss : List PartSort, .mute ∉ ss →
    ∃ n, count ss ps ≤ Slot.room (fun k => ss.contains (sortOf k)) n kind.slots

/-- Whether a node of a kind visits a part of a sort. -/
def visits (kind : Kind) (ps : List Part) (s : PartSort) : Prop :=
  match kind with
  | .param => False
  | .accessor | .constructorDecl => s ≠ .expr
  | .memberAccess => (name? ps).isSome
  | _ => True

section Assemble

variable {kind : Kind} {ps : List Part} {x : Creation}

theorem HasShape.only {ss : List PartSort} (h : HasShape kind ps)
    (hss : ∀ s ∈ (kind.slots.flatMap Slot.kinds).map sortOf, s = .mute ∨ s ∈ ss) :
    Within ss ps x ↔ ∃ p ∈ ps, x ∈ p.creations :=
  within_iff fun p hp => (h.sorts p hp).elim .inl (hss p.sort)

theorem HasShape.atMost {ss : List PartSort} {m : Nat} (h : HasShape kind ps)
    (hss : .mute ∉ ss) (hroom : ∀ n, Slot.room (fun k => ss.contains (sortOf k)) n kind.slots = m) :
    count ss ps ≤ m := by
  rcases h.room ss hss with ⟨n, hn⟩
  rwa [hroom] at hn

/-- Where the only use of the parts is that of a first expression. -/
theorem mem_oneExpr_of_shape (h : HasShape kind ps)
    (hss : ∀ s ∈ (kind.slots.flatMap Slot.kinds).map sortOf, s = .mute ∨ s ∈ [PartSort.expr])
    (hroom : ∀ n, Slot.room (fun k => [PartSort.expr].contains (sortOf k)) n kind.slots = 1) :
    x ∈ (exprAt 0 ps).creations ↔ ∃ p ∈ ps, x ∈ p.creations :=
  (mem_oneExpr (h.atMost (by decide) hroom)).trans (h.only hss)

/-- Where the uses of the parts are those of two sorts. -/
theorem HasShape.mem_or {s : PartSort} {ss : List PartSort} {A B : Prop} (h : HasShape kind ps)
    (hA : A ↔ Within [s] ps x) (hB : B ↔ Within ss ps x)
    (hss : ∀ s' ∈ (kind.slots.flatMap Slot.kinds).map sortOf, s' = .mute ∨ s' ∈ s :: ss) :
    A ∨ B ↔ ∃ p ∈ ps, x ∈ p.creations :=
  ((or_congr hA hB).trans within_cons.symm).trans (h.only hss)

/-- Where they are those of a first expression and of parts of other sorts. -/
theorem mem_oneExpr_or_of_shape {ss : List PartSort} {B : Prop} (h : HasShape kind ps)
    (hB : B ↔ Within ss ps x)
    (hss : ∀ s ∈ (kind.slots.flatMap Slot.kinds).map sortOf, s = .mute ∨ s ∈ PartSort.expr :: ss)
    (hroom : ∀ n, Slot.room (fun k => [PartSort.expr].contains (sortOf k)) n kind.slots = 1) :
    x ∈ (exprAt 0 ps).creations ∨ B ↔ ∃ p ∈ ps, x ∈ p.creations :=
  h.mem_or (mem_oneExpr (h.atMost (by decide) hroom)) hB hss

theorem mem_nil_of_shape (h : HasShape kind ps)
    (hss : ∀ s ∈ (kind.slots.flatMap Slot.kinds).map sortOf, s = .mute ∨ s ∈ []) :
    x ∈ [] ↔ ∃ p ∈ ps, x ∈ p.creations := by
  rw [← h.only hss]
  exact ⟨nofun, fun ⟨p, _, hsort, _⟩ => absurd hsort List.not_mem_nil⟩

/-- A node that is visited as a whole has the creations of its parts, and one of its own if
    it is one. -/
theorem mem_creations_whole (span : Span) (h : HasShape kind ps)
    (hkind : kind ≠ .param ∧ kind ≠ .accessor ∧ kind ≠ .constructorDecl ∧ kind ≠ .memberAccess
      ∧ kind ≠ .anonObjectCreation) :
    x ∈ (assemble kind span ps).creations ↔ ∃ p ∈ ps, x ∈ p.creations := by
  cases kind with
  | param => exact absurd rfl hkind.1
  | accessor => exact absurd rfl hkind.2.1
  | constructorDecl => exact absurd rfl hkind.2.2.1
  | memberAccess => exact absurd rfl hkind.2.2.2.1
  | anonObjectCreation => exact absurd rfl hkind.2.2.2.2
  | root => exact mem_items.trans (h.only (by decide))
  | namespaceDecl =>
      simp only [assemble, creations_item, Item.creations]
      exact mem_items.trans (h.only (by decide))
  | typeDecl =>
      simp only [assemble, creations_typeDecl, declaration, TypeDecl.creations]
      exact mem_members.trans (h.only (by decide))
  | fieldDecl =>
      simp only [assemble, creations_member, Member.creations]
      exact mem_declarators.trans (h.only (by decide))
  | propertyDecl =>
      simp only [assemble, creations_member, Member.creations, List.mem_append]
      exact mem_oneExpr_or_of_shape h (mem_accessorsOf (h.atMost (by decide) fun n => rfl))
        (by decide) fun n => rfl
  | accessorList => exact mem_accessorParts.trans (h.only (by decide))
  | methodDecl =>
      simp only [assemble, creations_member, Member.creations]
      exact (mem_body (h.atMost (by decide) fun n => rfl)).trans (h.only (by decide))
  | block =>
      simp only [assemble, creations_stmt, Stmt.creations]
      exact mem_stmts.trans (h.only (by decide))
  | localDecl =>
      simp only [assemble, creations_stmt, Stmt.creations]
      exact mem_declarators.trans (h.only (by decide))
  | varDeclarator =>
      simp only [assemble, creations_declarator, creationsOfDeclarators, List.append_nil]
      exact mem_oneExpr_of_shape h (by decide) fun n => rfl
  | exprStmt =>
      simp only [assemble, creations_stmt, Stmt.creations]
      exact mem_oneExpr_of_shape h (by decide) fun n => rfl
  | returnStmt =>
      simp only [assemble, creations_stmt, Stmt.creations]
      exact mem_oneExpr_of_shape h (by decide) fun n => rfl
  | ifStmt =>
      simp only [assemble, creations_stmt, Stmt.creations, List.mem_append]
      exact mem_oneExpr_or_of_shape h mem_stmts (by decide) fun n => rfl
  | foreachStmt =>
      simp only [assemble, creations_stmt, Stmt.creations, List.mem_append]
      exact mem_oneExpr_or_of_shape h (mem_firstStmt (h.atMost (by decide) fun n => rfl))
        (by decide) fun n => rfl
  | parenExpr | castExpr | prefixExpr | postfixExpr =>
      simp only [assemble, creations_expr, expression, Expr.creations]
      exact mem_oneExpr_of_shape h (by decide) fun n => rfl
  | call =>
      simp only [assemble, creations_expr, expression, Expr.creations, List.mem_append]
      exact mem_oneExpr_or_of_shape h (mem_argsOf (h.atMost (by decide) fun n => rfl))
        (by decide) fun n => rfl
  | argList => exact mem_exprs.trans (h.only (by decide))
  | arrayInit => exact mem_exprs.trans (h.only (by decide))
  | indexExpr | binaryExpr | assignExpr =>
      simp only [assemble, creations_expr, expression, Expr.creations, List.mem_append]
      exact (mem_twoExprs (h.atMost (by decide) fun n => rfl)).trans (h.only (by decide))
  | conditionalExpr =>
      simp only [assemble, creations_expr, expression, Expr.creations, List.mem_append]
      exact (mem_threeExprs (h.atMost (by decide) fun n => rfl)).trans (h.only (by decide))
  | lambda =>
      simp only [assemble, creations_expr, expression, Expr.creations]
      exact (mem_body (h.atMost (by decide) fun n => rfl)).trans (h.only (by decide))
  | anonMember =>
      simp only [assemble, creations_anonMember, creationsOfMembers, List.append_nil]
      exact mem_oneExpr_of_shape h (by decide) fun n => rfl
  | memberInit =>
      simp only [assemble, creations_memberInit, creationsOfInits, List.append_nil]
      exact mem_oneExpr_of_shape h (by decide) fun n => rfl
  | objectCreation =>
      simp only [assemble, creations_expr, expression, Expr.creations, List.mem_append]
      exact h.mem_or (mem_argsOf (h.atMost (by decide) fun n => rfl))
        (mem_initializerOf (h.atMost (by decide) fun n => rfl)) (by decide)
  | objectInit =>
      simp only [assemble, creations_objectInit, creationsOfInitializer, List.mem_append]
      exact h.mem_or mem_memberInits mem_exprs (by decide)
  | arrayCreation =>
      simp only [assemble, creations_expr, expression, Expr.creations, List.mem_append]
      exact h.mem_or mem_exprs (mem_elementsOf (h.atMost (by decide) fun n => rfl)) (by decide)
  | usingDirective => exact mem_nil_of_shape h (by decide)
  | _ => exact mem_nil_of_shape h (by decide)

theorem within_block_iff (h : ∀ p ∈ ps, p.sort = .mute ∨ p.sort ∈ [PartSort.expr, .block]) :
    Within [.block] ps x ↔ ∃ p ∈ ps, p.sort ≠ .expr ∧ x ∈ p.creations := by
  constructor
  · rintro ⟨p, hp, hsort, hx⟩
    rw [List.mem_singleton] at hsort
    exact ⟨p, hp, by rw [hsort]; decide, hx⟩
  · rintro ⟨p, hp, hsort, hx⟩
    rcases h p hp with hmute | hmem
    · rw [creations_of_mute hmute] at hx
      cases hx
    · exact ⟨p, hp, (List.mem_cons.mp hmem).resolve_left hsort, hx⟩

/-- A node has the creations of the parts that it visits, and one of its own if it is one. -/
theorem mem_creations_assemble (span : Span) (h : HasShape kind ps) :
    x ∈ (assemble kind span ps).creations ↔
      (kind = .anonObjectCreation
        ∧ x = ⟨span, anonMembers ps⟩)
      ∨ ∃ p ∈ ps, visits kind ps p.sort ∧ x ∈ p.creations := by
  by_cases hanon : kind = .anonObjectCreation
  · subst hanon
    simp only [assemble, creations_expr, expression, Expr.creations, List.mem_append,
      List.mem_singleton, visits, true_and]
    rw [or_comm]
    exact or_congr Iff.rfl (mem_anonMembers.trans (h.only (by decide)))
  · simp only [hanon, false_and, false_or]
    cases kind with
    | param =>
        simp only [visits, false_and, and_false, exists_false, iff_false]
        exact List.not_mem_nil
    | accessor =>
        exact (mem_blockBody (h.atMost (by decide) fun n => rfl)).trans (within_block_iff fun p hp =>
          (h.sorts p hp).elim .inl fun hsort =>
            (by decide : ∀ s ∈ (Kind.slots .accessor |>.flatMap Slot.kinds).map sortOf,
              s = .mute ∨ s ∈ [PartSort.expr, .block]) p.sort hsort)
    | constructorDecl =>
        simp only [assemble, creations_member, Member.creations]
        exact (mem_blockBody (h.atMost (by decide) fun n => rfl)).trans (within_block_iff fun p hp =>
          (h.sorts p hp).elim .inl fun hsort =>
            (by decide : ∀ s ∈ (Kind.slots .constructorDecl |>.flatMap Slot.kinds).map sortOf,
              s = .mute ∨ s ∈ [PartSort.expr, .block]) p.sort hsort)
    | memberAccess =>
        simp only [assemble, creations_expr, expression, visits]
        cases hname : name? ps with
        | none => simp [Expr.creations]
        | some name =>
            rw [Expr.creations]
            simp only [Option.isSome_some, true_and]
            exact mem_oneExpr_of_shape h (by decide) fun n => rfl
    | anonObjectCreation => exact absurd rfl hanon
    | _ =>
        rw [mem_creations_whole span h (by decide)]
        simp only [visits, true_and]

end Assemble

/-! ### From parts to nodes -/

theorem sort_ofTree_node (start : Nat) (kind : Kind) (children : List Tree) :
    (ofTree start (.node kind children)).sort = sortOf kind :=
  sort_assemble kind _ _

/-- Parts that are not mute come from nodes of their sort. -/
theorem count_ofTrees {ss : List PartSort} (h : .mute ∉ ss) (start : Nat) (ts : List Tree) :
    count ss (ofTrees start ts)
      = (Tree.nodeKinds ts).countP fun k => ss.contains (sortOf k) := by
  have hmute : ¬ ss.contains .mute = true := by
    rwa [List.contains_iff_mem]
  simp only [count, Tree.nodeKinds]
  induction ts generalizing start with
  | nil => rfl
  | cons t ts ih =>
      rw [ofTrees, List.countP_cons, ih]
      cases t with
      | token l =>
          rw [List.filterMap_cons_none (by rfl)]
          exact congrArg _ (if_neg hmute)
      | node kind children =>
          rw [sort_ofTree_node]
          by_cases herror : kind = .error
          · rw [List.filterMap_cons_none (by rw [Tree.nodeKind?, if_pos herror]), herror]
            exact congrArg _ (if_neg hmute)
          · rw [List.filterMap_cons_some (by rw [Tree.nodeKind?, if_neg herror]), List.countP_cons]

theorem sort_of_mem_ofTrees {start : Nat} {ts : List Tree} :
    ∀ p ∈ ofTrees start ts, p.sort = .mute ∨ ∃ k ∈ Tree.nodeKinds ts, p.sort = sortOf k := by
  induction ts generalizing start with
  | nil => exact List.forall_mem_nil _
  | cons t ts ih =>
      intro p hp
      rw [ofTrees, List.mem_cons] at hp
      rcases hp with rfl | hp
      · cases t with
        | token l => exact .inl rfl
        | node kind children =>
            rw [sort_ofTree_node]
            by_cases herror : kind = .error
            · exact .inl (by rw [herror]; rfl)
            · refine .inr ⟨kind, ?_, rfl⟩
              rw [Tree.nodeKinds, List.filterMap_cons_some (by rw [Tree.nodeKind?, if_neg herror])]
              exact List.mem_cons_self
      · rcases ih p hp with hmute | ⟨k, hk, hsort⟩
        · exact .inl hmute
        refine .inr ⟨k, ?_, hsort⟩
        rw [Tree.nodeKinds, List.mem_filterMap] at hk ⊢
        rcases hk with ⟨t', ht', hk⟩
        exact ⟨t', List.mem_cons_of_mem t ht', hk⟩

/-- The parts of a node that has its shape. -/
theorem hasShape_ofTrees {kind : Kind} {children : List Tree} (start : Nat)
    (h : Fits kind.slots (Tree.nodeKinds children)) : HasShape kind (ofTrees start children) := by
  refine ⟨fun p hp => ?_, fun ss hss => ?_⟩
  · refine (sort_of_mem_ofTrees p hp).imp_right fun ⟨k, hk, hsort⟩ => ?_
    exact List.mem_map.mpr ⟨k, h.mem k hk, hsort.symm⟩
  · refine ⟨(Tree.nodeKinds children).length, ?_⟩
    rw [count_ofTrees hss]
    exact h.countP_le _ (Nat.le_refl _)

theorem name?_ofTrees (start : Nat) (ts : List Tree) :
    (name? (ofTrees start ts)).isSome
      = ((Tree.tokensAt start ts).find? fun t => t.1.kind == .id).isSome := by
  rw [name?, Option.isSome_map, token?]
  induction ts generalizing start with
  | nil => rfl
  | cons t ts ih =>
      cases t with
      | token l =>
          have hcons : tokens (ofTrees start (.token l :: ts))
              = l :: tokens (ofTrees (start + l.width) ts) := rfl
          rw [hcons, Tree.tokensAt, List.find?_cons, List.find?_cons]
          cases l.kind == .id with
          | true => rfl
          | false => exact ih (start + l.width)
      | node kind children =>
          have hcons : tokens (ofTrees start (.node kind children :: ts))
              = tokens (ofTrees (start + Tree.widthOf children) ts) := by
            rw [tokens, ofTrees, ofTree, List.filterMap_cons_none]
            · rfl
            · cases kind <;> rfl
          rw [hcons, Tree.tokensAt]
          exact ih _

/-- A node is visited unless it is passed over. -/
theorem visits_iff (n parent : Node) :
    visits parent.kind (ofTrees parent.start parent.children) (sortOf n.kind) ↔
      n.isPassedOver parent = false := by
  have hexpr : sortOf n.kind ≠ .expr ↔ Kind.expressions.contains n.kind = false := by
    cases n.kind <;> decide
  unfold visits Node.isPassedOver
  split
  · simp
  · exact hexpr
  · exact hexpr
  · simp only [name?_ofTrees, Node.token?, Option.isNone_eq_false_iff]
  · simp

end Part

end Program

/-- The members of a creation. -/
def Syntax.Node.anonMembers (n : Node) : List Program.AnonMember :=
  Program.Part.anonMembers (Program.Part.ofTrees n.start n.children)

/-- The creation that a location is, if it is one. -/
def Syntax.Location.creation (l : Location) : Program.Creation :=
  ⟨l.span, l.node.anonMembers⟩

open Syntax (isPassedOver)
open Program (Creation Part)

mutual

/-- The creations that typing visits in a tree are those that are not passed over. -/
theorem mem_creations_ofTree {t : Tree} {above : List Node} {start index : Nat} {x : Creation}
    (ht : t.Conforms) (hread : ∀ kind children, t = .node kind children →
      isPassedOver (⟨kind, children, start, index⟩ :: above) = false) :
    x ∈ (Part.ofTree start t).creations ↔
      ∃ l ∈ Tree.locationsAt above start index t, l.node.kind = .anonObjectCreation
        ∧ isPassedOver l.lineage = false ∧ x = l.creation := by
  cases t with
  | token l => exact ⟨nofun, fun ⟨_, hl, _⟩ => absurd hl List.not_mem_nil⟩
  | node kind children =>
      cases ht with
      | @node _ _ hfits hopens hchildren =>
          have hhere := hread kind children rfl
          rw [Part.ofTree, Part.mem_creations_assemble _ (Part.hasShape_ofTrees start hfits),
            Tree.locationsAt]
          simp only [List.mem_cons, exists_eq_or_imp]
          refine or_congr ?_ (mem_creations_ofTrees hchildren hhere)
          refine and_congr_right fun _ => ⟨fun hx => ⟨hhere, hx⟩, fun hx => hx.2⟩

theorem mem_creations_ofTrees {ts : List Tree} {parent : Node} {above : List Node}
    {start index : Nat} {x : Creation} (hts : ∀ t ∈ ts, t.Conforms)
    (hparent : isPassedOver (parent :: above) = false) :
    (∃ p ∈ Part.ofTrees start ts,
        Part.visits parent.kind (Part.ofTrees parent.start parent.children) p.sort
          ∧ x ∈ p.creations) ↔
      ∃ l ∈ Tree.locationsOf (parent :: above) start index ts,
        l.node.kind = .anonObjectCreation ∧ isPassedOver l.lineage = false ∧ x = l.creation := by
  cases ts with
  | nil => simp [Part.ofTrees, Tree.locationsOf]
  | cons t ts =>
      rw [List.forall_mem_cons] at hts
      simp only [Part.ofTrees, List.mem_cons, exists_eq_left, Tree.locationsOf, List.mem_append,
        or_and_right, exists_or]
      refine or_congr ?_ (mem_creations_ofTrees hts.2 hparent)
      cases t with
      | token l => simp [Part.ofTree, Part.creations, Tree.locationsAt]
      | node kind children =>
          have hvisits := Part.visits_iff ⟨kind, children, start, index⟩ parent
          rw [Part.sort_ofTree_node, hvisits]
          cases hover : Node.isPassedOver ⟨kind, children, start, index⟩ parent with
          | false =>
              simp only [true_and]
              refine mem_creations_ofTree hts.1 fun kind' children' heq => ?_
              cases heq
              rw [isPassedOver, hover, hparent]
              rfl
          | true =>
              simp only [Bool.true_eq_false, false_and, false_iff]
              rintro ⟨l, hl, _, hread, _⟩
              rcases Syntax.lineage_of_mem_locationsAt hl with ⟨inner, n, hlineage, htree, _⟩
              have hkind : n.kind = kind := congrArg Tree.kind htree
              rw [hlineage, Syntax.isPassedOver_append inner] at hread
              · cases hread
              · rw [isPassedOver, Node.isPassedOver, hkind]
                rw [Node.isPassedOver] at hover
                rw [hover, Bool.true_or]

end

end Nominal
