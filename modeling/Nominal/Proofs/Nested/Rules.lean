import Nominal.Proofs.Runs

/-!
# Following the Nesting of Trees

How deep nodes of certain kinds stand below each other. The level of a run goes up where an
expression, a statement or the operand of a prefix operator starts, and nowhere else. So
there is a bound on the kinds of nodes that cannot be nested without one of these in
between. Types, namespaces, type arguments and casts are not among them: their productions
come back to themselves at the same level.

What a script adds to the trees of its group is bounded by the levels that are left. `Stays`
says so up to a constant: a script that stays within `k` leaves alone every bound that is
`k` or more above the levels left. Going down one level gains one, and a node of a counted
kind costs one. A run that is lost puts an empty node where it does not go further down, so
all of this holds of lost runs as well.

The creation of an anonymous object is enclosed after the fact, when the frame around it has
already collected the keyword. There the bound changes on the way, which is what the two
numbers of `Reaches` are for.

## Main definitions

* `Kind.isNested`: The kinds of nodes that are counted.
* `Tree.nesting`: How many of them stand below each other.
* `Reaches`: A bound on the nesting behind a script, given one before it.
* `Stays`: A script that leaves every large bound alone.

## Theorems

* `Tree.countNested_le_nesting`: The nesting of a tree bounds every lineage in it.
* `Stays.node`, `Stays.enclose`: A node of a counted kind costs one.
* `Stays.deeper`: Going down one level gains one.
-/

namespace Nominal

namespace Syntax

/-- Nodes that cannot stand below each other unless an expression, a statement or the operand
    of a prefix operator starts in between. -/
def Kind.isNested : Kind → Bool
  | .block | .localDecl | .exprStmt | .returnStmt | .ifStmt | .foreachStmt
  | .prefixExpr | .parenExpr | .argList | .anonObjectCreation | .objectInit | .arrayInit => true
  | _ => false

namespace Tree

mutual

/-- The largest number of counted nodes on a way down from the top of a tree. -/
def nesting : Tree → Nat
  | token _ => 0
  | node kind children => nestingOf children + kind.isNested.toNat

/-- The largest number of counted nodes on a way down from the top of one of several trees. -/
def nestingOf : List Tree → Nat
  | [] => 0
  | t :: ts => max t.nesting (nestingOf ts)

end

@[simp]
theorem nestingOf_append (ts us : List Tree) :
    nestingOf (ts ++ us) = max (nestingOf ts) (nestingOf us) := by
  induction ts with
  | nil => exact (Nat.zero_max _).symm
  | cons t ts ih => simp only [List.cons_append, nestingOf, ih, Nat.max_assoc]

@[simp]
theorem nestingOf_map_token (ls : List Lexeme) : nestingOf (ls.map token) = 0 := by
  induction ls with
  | nil => rfl
  | cons l ls ih => simp only [List.map_cons, nestingOf, nesting, ih, Nat.max_self]

@[simp]
theorem nestingOf_singleton (t : Tree) : nestingOf [t] = t.nesting := Nat.max_zero _

/-- How many counted nodes there are among some nodes. -/
def countNested (ns : List Node) : Nat := ns.countP fun n => n.kind.isNested

mutual

/-- A lineage has the counted nodes above a tree, and at most as many more as the tree is
    nested. -/
theorem countNested_le_of_mem_locationsAt {t : Tree} {above : List Node} {start index : Nat}
    {l : Location} (h : l ∈ locationsAt above start index t) :
    countNested l.lineage ≤ t.nesting + countNested above := by
  cases t with
  | token lexeme => cases h
  | node kind children =>
      have hhere : countNested (⟨kind, children, start, index⟩ :: above)
          = countNested above + kind.isNested.toNat := by
        rw [countNested, List.countP_cons, countNested]
        cases kind.isNested <;> rfl
      rw [locationsAt, List.mem_cons] at h
      rw [nesting]
      rcases h with rfl | h
      · rw [Location.lineage, hhere]
        omega
      · have hbelow := countNested_le_of_mem_locationsOf h
        omega

theorem countNested_le_of_mem_locationsOf {ts : List Tree} {above : List Node}
    {start index : Nat} {l : Location} (h : l ∈ locationsOf above start index ts) :
    countNested l.lineage ≤ nestingOf ts + countNested above := by
  cases ts with
  | nil => cases h
  | cons t ts =>
      rw [locationsOf, List.mem_append] at h
      rw [nestingOf]
      rcases h with h | h
      · have hfirst := countNested_le_of_mem_locationsAt h
        omega
      · have hrest := countNested_le_of_mem_locationsOf h
        omega

end

/-- The nesting of a tree bounds every lineage in it. -/
theorem countNested_le_nesting {t : Tree} {l : Location} (h : l ∈ t.locations) :
    countNested l.lineage ≤ t.nesting :=
  countNested_le_of_mem_locationsAt h

end Tree

end Syntax

namespace Grammar

open Syntax (Kind Lexeme Tree)

/-- Whether an operation leaves the level of nesting alone. -/
def Op.keepsLevel : Op → Bool
  | .enter | .leave => false
  | _ => true

theorem depth_spend (s : State) : s.spend.depth = s.depth := by
  unfold State.spend
  split <;> rfl

theorem depth_reportAt (s : State) (offset : Nat) (d : Diagnostic) :
    (s.reportAt offset d).depth = s.depth := by
  unfold State.reportAt
  split <;> rfl

theorem depth_run {setting : Setting} {op : Op} (hop : op.keepsLevel = true) {s t : State}
    {a : op.Answer} (h : op.run setting s = .ok a t) : t.depth = s.depth := by
  cases acts_run h with
  | take => exact depth_spend s
  | report | semicolonBehind | semicolonAhead | unclosed => exact depth_reportAt _ _ _
  | tooDeep | deeper | back => cases hop
  | _ => rfl

/-- A bound on the nesting of the trees of the group behind a script, given one before it. Both
    are counted from the levels that are left of `limit`, and the script ends at the level that
    it started at. -/
def Reaches (setting : Setting) (productions : Productions) (limit p : Nat) {α : Type}
    (x : Script α) (q : Nat) : Prop :=
  ∀ (s t : State) (a : α), x.exec setting productions s = .ok a t → t.depth = s.depth ∧
    (Tree.nestingOf s.output ≤ limit - s.depth + p →
      Tree.nestingOf t.output ≤ limit - s.depth + q)

/-- A script that leaves every bound alone that is at least `k` above the levels left. -/
def Stays (setting : Setting) (productions : Productions) (limit k : Nat) {α : Type}
    (x : Script α) : Prop :=
  ∀ p ≥ k, Reaches setting productions limit p x p

variable {setting : Setting} {productions : Productions} {limit : Nat} {α β : Type}

namespace Reaches

variable {p q r : Nat}

theorem bind {x : Script β} {f : β → Script α} (hx : Reaches setting productions limit p x q)
    (hf : ∀ b, Reaches setting productions limit q (f b) r) :
    Reaches setting productions limit p (x >>= f) r := by
  intro s t a h
  rw [exec_bind] at h
  rcases Outcome.andThen_eq_ok h with ⟨b, u, hfirst, hnext⟩
  rcases hx s u b hfirst with ⟨hdepth, hu⟩
  rcases hf b u t a hnext with ⟨hdepth', ht⟩
  rw [hdepth] at hdepth' ht
  exact ⟨hdepth', fun hs => ht (hu hs)⟩

theorem weaken {x : Script α} (h : Reaches setting productions limit p x q) (hq : q ≤ r) :
    Reaches setting productions limit p x r := by
  intro s t a hx
  rcases h s t a hx with ⟨hdepth, ht⟩
  exact ⟨hdepth, fun hs => Nat.le_trans (ht hs) (Nat.add_le_add_left hq _)⟩

/-- A group that wraps what was collected before it. -/
theorem enclose {x : Script α} {kind : Kind} (hx : Reaches setting productions limit p x q)
    (hq : q + kind.isNested.toNat ≤ r) :
    Reaches setting productions limit p (Script.enclose kind x) r := by
  intro s t a h
  rcases Outcome.andThen_eq_ok h with ⟨b, u, hbody, hdone⟩
  cases hdone
  rcases hx s u a hbody with ⟨hdepth, hu⟩
  refine ⟨hdepth, fun hs => ?_⟩
  have hinner := hu hs
  change Tree.nestingOf [.node kind u.output] ≤ _
  rw [Tree.nestingOf_singleton, Tree.nesting]
  omega

end Reaches

namespace Stays

variable {j k : Nat}

theorem reaches {p q : Nat} {x : Script α} (h : Stays setting productions limit k x)
    (hk : k ≤ p) (hq : p ≤ q) : Reaches setting productions limit p x q :=
  (h p hk).weaken hq

theorem mono {x : Script α} (h : Stays setting productions limit j x) (hjk : j ≤ k) :
    Stays setting productions limit k x :=
  fun p hp => h p (Nat.le_trans hjk hp)

theorem pure (a : α) : Stays setting productions limit k (Pure.pure a) := by
  intro p _ s t b h
  cases h
  exact ⟨rfl, id⟩

/-- One script after another. -/
theorem bind {x : Script β} {f : β → Script α} (hx : Stays setting productions limit k x)
    (hf : ∀ b, Stays setting productions limit k (f b)) :
    Stays setting productions limit k (x >>= f) :=
  fun p hp => (hx p hp).bind fun b => hf b p hp

theorem ite {c : Prop} [Decidable c] {x y : Script α} (hx : Stays setting productions limit k x)
    (hy : Stays setting productions limit k y) :
    Stays setting productions limit k (if c then x else y) := by
  split
  · exact hx
  · exact hy

/-- An operation that leaves the level alone collects nothing but tokens. -/
theorem perform {op : Op} (hop : op.keepsLevel = true) :
    Stays setting productions limit k (Script.perform op) := by
  intro p _ s t a h
  rw [exec_perform] at h
  rcases output_run h with ⟨ls, ho⟩
  refine ⟨depth_run hop h, fun hs => ?_⟩
  rwa [ho, Tree.nestingOf_append, Tree.nestingOf_map_token, Nat.max_zero]

/-- A group that makes a node of its own. -/
theorem node {x : Script α} {kind : Kind} (hx : Stays setting productions limit j x)
    (hk : j + kind.isNested.toNat ≤ k) :
    Stays setting productions limit k (Script.node kind x) := by
  intro p hp s t a h
  rcases Outcome.andThen_eq_ok h with ⟨b, u, hbody, hdone⟩
  cases hdone
  rcases hx j (Nat.le_refl j) _ u a hbody with ⟨hdepth, hu⟩
  refine ⟨hdepth, fun hs => ?_⟩
  have hinner := hu (Nat.zero_le _)
  change Tree.nestingOf (s.output ++ s.pending.map .token ++ [.node kind u.output]) ≤ _
  rw [Tree.nestingOf_append, Tree.nestingOf_append, Tree.nestingOf_map_token,
    Tree.nestingOf_singleton, Tree.nesting]
  -- The body starts at the level of the group, so the levels left are the same.
  change Tree.nestingOf u.output ≤ limit - s.depth + j at hinner
  omega

/-- A group that is only a place to return to. Its body starts with nothing collected. -/
theorem frame {x : Script α} (hx : Reaches setting productions limit 0 x k) :
    Stays setting productions limit k (Script.frame x) := by
  intro p hp s t a h
  rcases Outcome.andThen_eq_ok h with ⟨b, u, hbody, hdone⟩
  cases hdone
  rcases hx _ u a hbody with ⟨hdepth, hu⟩
  refine ⟨hdepth, fun hs => ?_⟩
  have hinner := hu (Nat.zero_le _)
  change Tree.nestingOf (s.output ++ s.pending.map .token ++ u.output) ≤ _
  rw [Tree.nestingOf_append, Tree.nestingOf_append, Tree.nestingOf_map_token]
  change Tree.nestingOf u.output ≤ limit - s.depth + k at hinner
  omega

/-- Such a place in a script that stays within the same bound throughout. -/
theorem frameStaying {x : Script α} (hx : Stays setting productions limit k x) :
    Stays setting productions limit k (Script.frame x) := by
  refine frame fun s t a h => ?_
  rcases hx k (Nat.le_refl k) s t a h with ⟨hdepth, ht⟩
  exact ⟨hdepth, fun hs => ht (Nat.le_trans hs (Nat.add_le_add_left (Nat.zero_le k) _))⟩

/-- A node of a kind that is not counted may wrap what was collected before it. -/
theorem enclose {x : Script α} {kind : Kind} (hx : Stays setting productions limit k x)
    (hkind : kind.isNested = false) :
    Stays setting productions limit k (Script.enclose kind x) :=
  fun p hp => (hx p hp).enclose (by rw [hkind]; exact Nat.le_refl p)

theorem iterate {σ : Type} {p : Nat} {step : σ → State → Outcome (Bool × σ)}
    (hstep : ∀ {x s r t}, step x s = .ok r t → t.depth = s.depth ∧
      (Tree.nestingOf s.output ≤ limit - s.depth + p →
        Tree.nestingOf t.output ≤ limit - s.depth + p))
    {n : Nat} {x y : σ} {s t : State} (h : Grammar.iterate step n x s = .ok y t) :
    t.depth = s.depth ∧ (Tree.nestingOf s.output ≤ limit - s.depth + p →
      Tree.nestingOf t.output ≤ limit - s.depth + p) := by
  refine iterate_chain (R := fun s t => t.depth = s.depth ∧
    (Tree.nestingOf s.output ≤ limit - s.depth + p →
      Tree.nestingOf t.output ≤ limit - s.depth + p)) ?_ hstep h
  rintro s t u ⟨hst, ht⟩ ⟨htu, hu⟩
  rw [hst] at htu hu
  exact ⟨htu, fun hs => hu (ht hs)⟩

/-- A loop leaves alone what each round leaves alone. -/
theorem loop {σ : Type} {body : σ → Script (Bool × σ)} {start : σ} {next : σ → Script α}
    (hbody : ∀ x, Stays setting productions limit k (body x))
    (hnext : ∀ x, Stays setting productions limit k (next x)) :
    Stays setting productions limit k (.loop body start next) := by
  intro p hp s t a h
  rcases Outcome.andThen_eq_ok h with ⟨y, u, hloop, hrest⟩
  rcases iterate (fun {x s r t} hround => hbody x p hp s t r hround) hloop with ⟨hdepth, hu⟩
  rcases hnext y p hp u t a hrest with ⟨hdepth', ht⟩
  rw [hdepth] at hdepth' ht
  exact ⟨hdepth', fun hs => ht (hu hs)⟩

theorem repeatWhile {body : Script Bool} (hbody : Stays setting productions limit k body) :
    Stays setting productions limit k (Script.repeatWhile body) :=
  loop (fun _ => bind hbody fun _ => pure _) fun _ => pure _

theorem whileTrue {condition : Script Bool} {body : Script Unit}
    (hcondition : Stays setting productions limit k condition)
    (hbody : Stays setting productions limit k body) :
    Stays setting productions limit k (Script.whileTrue condition body) :=
  repeatWhile (bind hcondition fun _ => ite (bind hbody fun _ => pure _) (pure _))

/-! ### Scripts that collect tokens only -/

section Tokens

theorem isAt (kind : Kind) : Stays setting productions limit k (Script.isAt kind) :=
  bind (perform rfl) fun _ => pure _

theorem isAtOneOf (kinds : Syntax.KindSet) :
    Stays setting productions limit k (Script.isAtOneOf kinds) :=
  bind (perform rfl) fun _ => pure _

theorem nextIs (kind : Kind) : Stays setting productions limit k (Script.nextIs kind) :=
  bind (perform rfl) fun _ => pure _

theorem isAtPair (first second : Kind) :
    Stays setting productions limit k (Script.isAtPair first second) :=
  bind (isAt first) fun _ => ite (nextIs second) (pure _)

theorem take : Stays setting productions limit k Script.take := perform rfl

theorem eat (kind : Kind) : Stays setting productions limit k (Script.eat kind) :=
  bind (isAt kind) fun _ => ite (bind take fun _ => pure _) (pure _)

theorem report (kind : Diagnostic.Kind) (detail : Option String) :
    Stays setting productions limit k (Script.report kind detail) :=
  perform rfl

theorem expect (kind : Kind) (what : String) :
    Stays setting productions limit k (Script.expect kind what) :=
  bind (eat kind) fun _ => ite (pure _) (report _ _)

theorem expectName (what : String) :
    Stays setting productions limit k (Script.expectName what) :=
  bind (eat .id) fun _ => ite (pure _) (bind (report _ _) fun _ => pure _)

theorem expectSemicolon : Stays setting productions limit k Script.expectSemicolon :=
  bind (eat .semicolon) fun _ => ite (pure _) (bind (perform rfl) fun _ => pure _)

theorem isBefore (kind : Kind) : Stays setting productions limit k (Script.isBefore kind) :=
  bind (perform rfl) fun _ => ite (pure _) (bind (isAt kind) fun _ => pure _)

theorem takeOpening : Stays setting productions limit k Script.takeOpening :=
  bind (perform rfl) fun _ => take

theorem expectClosing (kind : Kind) (unclosed : Diagnostic.Kind) :
    Stays setting productions limit k (Script.expectClosing kind unclosed) :=
  bind (eat kind) fun _ => ite (perform rfl) (perform rfl)

theorem reportAndTake (kind : Diagnostic.Kind) :
    Stays setting productions limit k (Script.reportAndTake kind) :=
  bind (report _ _) fun _ => bind (perform rfl) fun _ => ite (pure _) (node take (Nat.le_refl k))

theorem recover (kind : Diagnostic.Kind) (recovery : Syntax.KindSet) :
    Stays setting productions limit k (Script.recover kind recovery) := by
  have hstops : Stays setting productions limit k
      (do if ← Script.isAtOneOf recovery then return true else Script.atEnd : Script Bool) :=
    bind (isAtOneOf recovery) fun _ => ite (pure _) (perform rfl)
  refine bind hstops fun _ => ite (report _ _) (node ?_ (Nat.le_refl k))
  exact bind (report _ _) fun _ => whileTrue (bind hstops fun _ => pure _) take

end Tokens

/-- Going down one level gains one: the body may use up one more, counted from the levels that
    are left for it. Where that is too deep, nothing is read. -/
theorem deeper (hlimit : setting.depthLimit = some limit) {x : Script Unit}
    (hx : Stays setting productions limit (k + 1) x) :
    Stays setting productions limit k (Script.deeper x) := by
  intro p hp s t u h
  rw [Script.deeper, exec_bind, Script.enter, exec_perform] at h
  rcases Outcome.andThen_eq_ok h with ⟨entered, r, henter, hrest⟩
  simp only [Op.run, hlimit, Option.any_some, decide_eq_true_eq] at henter
  split at henter
  · cases henter
    -- The run is lost, and an empty node is all that is collected.
    have hempty : Stays setting productions limit k (Script.node .error (Pure.pure ())) :=
      node (pure ()) (Nat.le_refl k)
    rw [if_neg Bool.false_ne_true] at hrest
    have hdone := hempty p hp _ t u hrest
    exact hdone
  · next hleft =>
      cases henter
      rw [if_pos rfl, exec_bind] at hrest
      rcases Outcome.andThen_eq_ok hrest with ⟨_, v, hbody, hleave⟩
      rw [exec_perform] at hleave
      cases hleave
      rcases hx (p + 1) (Nat.succ_le_succ hp) _ v _ hbody with ⟨hdepth, hv⟩
      change v.depth = s.depth + 1 at hdepth
      change Tree.nestingOf s.output ≤ limit - (s.depth + 1) + (p + 1) →
        Tree.nestingOf v.output ≤ limit - (s.depth + 1) + (p + 1) at hv
      -- There is one level less below, and the bound is one more above it.
      have hlevels : limit - (s.depth + 1) + (p + 1) = limit - s.depth + p := by omega
      rw [hlevels] at hv
      exact ⟨by simp only [hdepth, Nat.add_sub_cancel], hv⟩

end Stays

end Grammar

end Nominal
