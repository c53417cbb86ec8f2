import Nominal.Proofs.Carried.Lookahead

/-!
# Readings of Operands

Where an operand is read, what was collected before it does not matter, and a single node is
added to it. Both facts hold of one reading by itself. They are needed where two readings
part, because one of them puts behind a name what the other one puts alone.

## Main definitions

* `IsFramed`: A reading that only adds to what was collected before.
* `MakesNode`: A reading that collects a single node.

## Theorems

* `framed_readProduction`: An expression is read in the same way behind whatever stands
  before it.
* `makeNodes_readProduction`: The productions of operands collect a single node.
-/

namespace Nominal

open Syntax (Kind KindSet Lexeme Tree)

namespace Grammar

open Script

/-! ### Readings that only add to what was collected before -/

namespace Place

/-- The place with nothing collected and nothing set aside. -/
def fresh (p : Place) : Place := { p.flush with output := [] }

/-- The place behind some trees. -/
def behind (p : Place) (ts : List Tree) : Place := { p with output := ts ++ p.output }

theorem fresh_skip_fresh (p : Place) : p.fresh.skip.fresh = p.skip.fresh := rfl

theorem upcoming_fresh (p : Place) : p.fresh.upcoming = p.upcoming := rfl

theorem behind_behind (p : Place) (ts us : List Tree) :
    (p.behind us).behind ts = p.behind (ts ++ us) := by
  simp only [behind, List.append_assoc]

end Place

/-- A reading that only adds to what was collected before. -/
def IsFramed {α : Type} (x : Reader α) : Prop :=
  ∀ p, x p = (x p.fresh).map fun r => (r.1, r.2.behind p.flush.output)

section Framed

variable {limit : Option Nat} {readers : Readers} {α β : Type}

theorem framed_none {x : Reader α} (h : ∀ p, x p = none) : IsFramed x :=
  fun p => by rw [h, h, Option.map_none]

theorem framed_group {g : Grouping} (hg : ∀ kind, g ≠ .enclose kind) (x : Script α) :
    IsFramed ((Script.group g x .done).read limit readers) := by
  intro p
  have henter : g.enter p.fresh = g.enter p := by
    cases g with
    | enclose kind => exact absurd rfl (hg kind)
    | node kind => rfl
    | frame => rfl
  simp only [Script.read, henter, Option.map_bind]
  congr 1
  funext r
  cases g with
  | enclose kind => exact absurd rfl (hg kind)
  | node kind => simp [Grouping.leave, Place.behind, Place.flush, Place.fresh]
  | frame => simp [Grouping.leave, Place.behind, Place.flush, Place.fresh]

theorem framed_node (kind : Kind) (x : Script α) : IsFramed ((node kind x).read limit readers) :=
  framed_group (g := .node kind) (fun _ => nofun) x

theorem framed_frame (x : Script α) : IsFramed ((frame x).read limit readers) :=
  framed_group (g := .frame) (fun _ => nofun) x

/-- A question before it does no harm. -/
theorem framed_asking {x : Script β} {f : β → Script α} (answer : List Kind → β)
    (hx : ∀ p, x.read limit readers p = some (answer p.upcoming, p.skip))
    (hf : ∀ b, IsFramed ((f b).read limit readers)) :
    IsFramed ((x >>= f).read limit readers) := by
  intro p
  rw [read_bind, read_bind, hx, hx, Option.bind_some, Option.bind_some, Place.upcoming_fresh,
    hf _ p.skip, hf _ p.fresh.skip, Place.fresh_skip_fresh, Option.map_map]
  congr 1
  funext r
  simp only [Function.comp, Place.behind_behind, Prod.mk.injEq, true_and]
  simp [Place.flush, Place.skip, Place.fresh]

theorem deeper_read (x : Script Unit) (p : Place) :
    (deeper x).read limit readers p =
      if limit.any (· ≤ p.depth) then none
      else (x.read limit readers { p with depth := p.depth + 1 }).map fun r =>
        ((), { r.2 with depth := r.2.depth - 1 }) := by
  have henter : Script.enter.read limit readers p
      = if limit.any (· ≤ p.depth) then none else some (true, { p with depth := p.depth + 1 }) := by
    rw [Script.enter, read_perform]
    rfl
  rw [deeper, read_bind, henter]
  split
  · rfl
  · rw [Option.bind_some, if_pos rfl, read_bind]
    cases x.read limit readers { p with depth := p.depth + 1 } <;> rfl

theorem framed_deeper {x : Script Unit} (hx : IsFramed (x.read limit readers)) :
    IsFramed ((deeper x).read limit readers) := by
  intro p
  have hsame : ∀ p : Place, (x.read limit readers { p with depth := p.depth + 1 })
      = (x.read limit readers { p.fresh with depth := p.depth + 1 }).map fun r =>
        (r.1, r.2.behind p.flush.output) := fun p => hx { p with depth := p.depth + 1 }
  rw [deeper_read, deeper_read, hsame]
  have hdepth : p.fresh.depth = p.depth := rfl
  rw [hdepth]
  split
  · rfl
  · rw [Option.map_map, Option.map_map]
    rfl

/-- An expression is read in the same way behind whatever stands before it. -/
theorem framed_exprScript : IsFramed (exprScript.read limit readers) := by
  refine framed_deeper (framed_asking isLambda isAtLambda_read fun b => ?_)
  split
  · exact framed_node _ _
  · exact framed_frame _

/-- A reading that leaves what was collected before as it is and adds to it. -/
def Collects {α : Type} (x : Reader α) : Prop :=
  ∀ p ts, x (p.behind ts) = (x p).map fun r => (r.1, r.2.behind ts)

theorem IsFramed.collects {x : Reader α} (h : IsFramed x) : Collects x := by
  intro p ts
  have hflush : (p.behind ts).flush.output = ts ++ p.flush.output := List.append_assoc _ _ _
  rw [h (p.behind ts), h p, Option.map_map, hflush, show (p.behind ts).fresh = p.fresh from rfl]
  congr 1
  funext r
  rw [Function.comp, Place.behind_behind]

theorem collects_op (op : Op) : Collects (op.read limit) := by
  intro p ts
  cases op with
  | take =>
      simp only [Op.read, Place.behind]
      cases p.rest with
      | nil => rfl
      | cons l ls =>
          cases p.fuel with
          | zero => rfl
          | succ n => simp only [Option.map_some, Place.flush, List.append_assoc]
  | keepTrivia =>
      simp only [Op.read, Place.skip, Place.behind, Place.flush, Option.map_some, List.append_assoc]
  | require kind =>
      simp only [Op.read]
      rw [show (p.behind ts).skip = p.skip.behind ts from rfl]
      split
      · next h => rw [if_pos (show p.skip.next? = some kind from h)]; rfl
      · next h => rw [if_neg (show ¬p.skip.next? = some kind from h)]; rfl
  | reportUnclosed kind =>
      simp only [Op.read]
      rw [show (p.behind ts).opened = p.opened from rfl]
      split <;> rfl
  | enter =>
      simp only [Op.read]
      rw [show (p.behind ts).depth = p.depth from rfl]
      split <;> rfl
  | _ => rfl

theorem collects_perform (op : Op) : Collects ((perform op).read limit readers) := by
  intro p ts
  rw [read_perform, read_perform, collects_op op]

theorem collects_pure (a : α) : Collects ((pure a : Script α).read limit readers) := fun _ _ => rfl

theorem collects_bind {x : Script β} {f : β → Script α} (hx : Collects (x.read limit readers))
    (hf : ∀ b, Collects ((f b).read limit readers)) : Collects ((x >>= f).read limit readers) := by
  intro p ts
  rw [read_bind, read_bind, hx p ts, Option.bind_map, Option.map_bind]
  congr 1
  funext r
  exact hf r.1 r.2 ts

theorem collects_ite {b : Prop} [Decidable b] {x y : Script α} (hx : Collects (x.read limit readers))
    (hy : Collects (y.read limit readers)) : Collects ((if b then x else y).read limit readers) := by
  split
  · exact hx
  · exact hy

theorem collects_repeatWhile {body : Script Bool} (h : Collects (body.read limit readers)) :
    Collects ((repeatWhile body).read limit readers) := by
  have hrounds : ∀ n, Collects
      (rounds (fun (_ : Unit) => (body >>= fun again => pure (again, ())).read limit readers) n
        ()) := by
    intro n
    induction n with
    | zero => exact fun _ _ => rfl
    | succ n ih =>
        intro p ts
        rw [rounds, rounds, collects_bind h (fun _ => collects_pure _) p ts, Option.bind_map,
          Option.map_bind]
        congr 1
        funext r
        rw [Function.comp, Function.comp]
        split
        · exact ih r.2 ts
        · rfl
  intro p ts
  have hloop : ∀ p, (repeatWhile body).read limit readers p =
      (rounds (fun (_ : Unit) => (body >>= fun again => pure (again, ())).read limit readers)
        (p.rest.length + 2) () p).bind fun r => some ((), r.2) := fun _ => rfl
  rw [hloop, hloop, show (p.behind ts).rest = p.rest from rfl, hrounds _ p ts, Option.bind_map,
    Option.map_bind]
  rfl

theorem collects_isAt (k : Kind) : Collects ((isAt k).read limit readers) :=
  collects_bind (collects_perform .look) fun _ => collects_pure _

theorem collects_isAtOneOf (ks : KindSet) : Collects ((isAtOneOf ks).read limit readers) :=
  collects_bind (collects_perform .look) fun _ => collects_pure _

theorem collects_eat (k : Kind) : Collects ((eat k).read limit readers) :=
  collects_bind (collects_isAt k) fun _ =>
    collects_ite (collects_bind (collects_perform .take) fun _ => collects_pure _) (collects_pure _)

theorem collects_isBefore (k : Kind) : Collects ((isBefore k).read limit readers) :=
  collects_bind (collects_perform .atEnd) fun _ => collects_ite (collects_pure _)
    (collects_bind (collects_isAt k) fun _ => collects_pure _)

theorem collects_commaItem (close : Kind) {item : Script Unit}
    (hitem : Collects (item.read limit readers)) :
    Collects ((commaItem close item).read limit readers) :=
  collects_bind (collects_isBefore close) fun _ => collects_ite
    (collects_bind (collects_isAtOneOf _) fun _ => collects_ite
      (collects_bind hitem fun _ => collects_eat _)
      (collects_bind (collects_isAtOneOf _) fun _ => collects_ite (collects_pure _)
        fun _ _ => rfl))
    (collects_pure _)

theorem collects_expectClosing (close : Kind) (unclosed : Diagnostic.Kind) :
    Collects ((expectClosing close unclosed).read limit readers) :=
  collects_bind (collects_eat close) fun _ =>
    collects_ite (collects_perform _) (collects_perform _)

end Framed

/-! ### Readings that collect a single node -/

/-- A single node has been collected. -/
def Place.HasNode (p : Place) : Prop := ∃ kind cs, p.output = [.node kind cs]

/-- A reading that collects a single node, where nothing was set aside. -/
def MakesNode {α : Type} (x : Reader α) : Prop :=
  ∀ (p q : Place) (a : α), p.IsSettled → p.pending = [] → x p = some (a, q) →
    ∃ kind cs, q.output = p.output ++ [.node kind cs]

/-- A reading that leaves a single node as it is or puts another one around it. -/
def KeepsNode {α : Type} (x : Reader α) : Prop :=
  ∀ (p q : Place) (a : α), p.HasNode → x p = some (a, q) → q.HasNode

section Nodes

variable {limit : Option Nat} {readers : Readers} {α β : Type}

theorem makesNode_node (kind : Kind) (x : Script α) :
    MakesNode ((node kind x).read limit readers) := by
  intro p q a _ hpending h
  rcases Option.bind_eq_some_iff.mp h with ⟨⟨b, r⟩, _, hdone⟩
  cases hdone
  refine ⟨kind, r.output, ?_⟩
  simp only [Grouping.leave, Place.flush, hpending, List.map_nil, List.append_nil]

/-- A frame starts with nothing collected. -/
theorem makesNode_frame {x : Script α}
    (hx : ∀ (p q : Place) (a : α), p.IsSettled → p.pending = [] → p.output = [] →
      x.read limit readers p = some (a, q) → q.HasNode) :
    MakesNode ((frame x).read limit readers) := by
  intro p q a hp hpending h
  rcases Option.bind_eq_some_iff.mp h with ⟨⟨b, r⟩, hbody, hdone⟩
  cases hdone
  rcases hx p.fresh r b hp rfl rfl hbody with ⟨kind, cs, hout⟩
  refine ⟨kind, cs, ?_⟩
  simp only [Grouping.leave, Place.flush, hpending, hout, List.map_nil, List.append_nil]

theorem hasNode_enclose {kind : Kind} {x : Script α} {p q : Place} {a : α}
    (h : (enclose kind x).read limit readers p = some (a, q)) : q.HasNode := by
  rcases Option.bind_eq_some_iff.mp h with ⟨⟨b, r⟩, _, hdone⟩
  cases hdone
  exact ⟨kind, r.output, rfl⟩

theorem MakesNode.hasNode {x : Reader α} (hx : MakesNode x) {p q : Place} {a : α}
    (hp : p.IsSettled) (hpending : p.pending = []) (hout : p.output = []) (h : x p = some (a, q)) :
    q.HasNode := by
  rcases hx p q a hp hpending h with ⟨kind, cs, hq⟩
  exact ⟨kind, cs, by rw [hq, hout, List.nil_append]⟩

/-- A question comes before a node. -/
theorem makesNode_asking {x : Script β} {f : β → Script α} (answer : List Kind → β)
    (hx : ∀ p, x.read limit readers p = some (answer p.upcoming, p.skip))
    (hf : ∀ b, MakesNode ((f b).read limit readers)) :
    MakesNode ((x >>= f).read limit readers) := by
  intro p q a hp hpending h
  rw [read_bind, hx, Option.bind_some, hp.skip_eq] at h
  exact hf _ p q a hp hpending h

theorem makesNode_deeper {x : Script Unit} (hx : MakesNode (x.read limit readers)) :
    MakesNode ((deeper x).read limit readers) := by
  intro p q a hp hpending h
  rw [deeper_read] at h
  split at h
  · cases h
  · rcases Option.map_eq_some_iff.mp h with ⟨⟨b, r⟩, hread, hdone⟩
    cases hdone
    exact hx { p with depth := p.depth + 1 } r b hp hpending hread

theorem keepsNode_pure (a : α) : KeepsNode ((pure a : Script α).read limit readers) := by
  intro p q b hp h
  cases h
  exact hp

theorem keepsNode_enclose (kind : Kind) (x : Script α) :
    KeepsNode ((enclose kind x).read limit readers) := fun _ _ _ _ h => hasNode_enclose h

theorem keepsNode_bind {x : Script β} {f : β → Script α} (hx : KeepsNode (x.read limit readers))
    (hf : ∀ b, KeepsNode ((f b).read limit readers)) :
    KeepsNode ((x >>= f).read limit readers) := by
  intro p q a hp h
  rcases read_bind_some h with ⟨b, r, hfirst, hnext⟩
  exact hf b r q a (hx p r b hp hfirst) hnext

theorem keepsNode_look : KeepsNode (look.read limit readers) := by
  intro p q a hp h
  rw [look_read] at h
  cases h
  exact hp

theorem keepsNode_ite {b : Prop} [Decidable b] {x y : Script α}
    (hx : KeepsNode (x.read limit readers)) (hy : KeepsNode (y.read limit readers)) :
    KeepsNode ((if b then x else y).read limit readers) := by
  split
  · exact hx
  · exact hy

theorem keepsNode_repeatWhile {body : Script Bool} (h : KeepsNode (body.read limit readers)) :
    KeepsNode ((repeatWhile body).read limit readers) := by
  intro p q u hp hread
  have hloop := read_repeatWhile hread
  clear hread
  induction hloop with
  | stop hstep => exact h _ _ _ hp hstep
  | again hstep _ ih => exact ih (h _ _ _ hp hstep)

/-- A reading that puts a node around all that was collected. -/
def EndsNode {α : Type} (x : Reader α) : Prop :=
  ∀ (p q : Place) (a : α), x p = some (a, q) → q.HasNode

theorem endsNode_enclose (kind : Kind) (x : Script α) :
    EndsNode ((enclose kind x).read limit readers) := fun _ _ _ h => hasNode_enclose h

theorem endsNode_bind {x : Script β} {f : β → Script α}
    (hf : ∀ b, EndsNode ((f b).read limit readers)) :
    EndsNode ((x >>= f).read limit readers) := by
  intro p q a h
  rcases read_bind_some h with ⟨b, r, _, hnext⟩
  exact hf b r q a hnext

theorem endsNode_ite {b : Prop} [Decidable b] {x y : Script α}
    (hx : EndsNode (x.read limit readers)) (hy : EndsNode (y.read limit readers)) :
    EndsNode ((if b then x else y).read limit readers) := by
  split
  · exact hx
  · exact hy

theorem makesNode_answer {x : Script β} (hx : MakesNode (x.read limit readers)) (f : β → α) :
    MakesNode ((x >>= fun b => pure (f b)).read limit readers) := by
  intro p q a hp hpending h
  rcases read_bind_some h with ⟨b, r, hfirst, hdone⟩
  cases hdone
  exact hx p _ b hp hpending hfirst

theorem makesNode_report (kind : Diagnostic.Kind) (detail : Option String) (f : Unit → Script α) :
    MakesNode ((report kind detail >>= f).read limit readers) := by
  intro p q a _ _ h
  cases h

theorem isAtOneOf_read (ks : KindSet) (p : Place) :
    (isAtOneOf ks).read limit readers p = some (p.upcoming.head?.any ks.contains, p.skip) := by
  rw [isAtOneOf, read_bind, look_read]
  rfl

theorem makesNode_newExpr : MakesNode (newExpr.read limit readers) := by
  have hends : EndsNode (newOfType.read limit readers) := endsNode_bind fun _ =>
    endsNode_bind fun _ => endsNode_ite (endsNode_enclose _ _)
      (endsNode_ite (endsNode_enclose _ _) (endsNode_enclose _ _))
  refine makesNode_frame fun p q a _ _ _ h => ?_
  rcases read_bind_some h with ⟨_, r, _, h⟩
  rcases read_bind_some h with ⟨_, r, _, h⟩
  rcases read_bind_some h with ⟨_, r, _, h⟩
  split at h
  · exact hasNode_enclose h
  · exact hasNode_enclose h
  · exact hends _ _ _ h
  · exact hends _ _ _ h
  · exact hasNode_enclose h

theorem makesNode_primary : MakesNode (primary.read limit readers) := by
  refine makesNode_asking List.head? look_read fun next => ?_
  split
  · exact makesNode_answer (makesNode_node _ _) _
  · exact makesNode_answer (makesNode_node _ _) _
  · exact makesNode_answer (makesNode_node _ _) _
  · exact makesNode_answer (makesNode_node _ _) _
  · exact makesNode_answer makesNode_newExpr _
  · split
    · exact makesNode_answer (makesNode_node _ _) _
    · exact makesNode_report _ _ _
  · exact makesNode_report _ _ _

theorem keepsNode_postfixForm : KeepsNode (postfixForm.read limit readers) := by
  refine keepsNode_bind keepsNode_look fun next => ?_
  split
  · exact keepsNode_bind (keepsNode_enclose _ _) fun _ => keepsNode_pure _
  · exact keepsNode_bind (keepsNode_enclose _ _) fun _ => keepsNode_pure _
  · exact keepsNode_bind (keepsNode_enclose _ _) fun _ => keepsNode_pure _
  · exact keepsNode_bind (keepsNode_enclose _ _) fun _ => keepsNode_pure _
  · exact keepsNode_bind (keepsNode_enclose _ _) fun _ => keepsNode_pure _
  · exact keepsNode_pure _

theorem makesNode_unaryScript : MakesNode (unaryScript.read limit readers) := by
  refine makesNode_asking (fun ks => ks.head?.any KindSet.prefixOps.contains)
    (isAtOneOf_read _) fun b => ?_
  split
  · exact makesNode_deeper (makesNode_node _ _)
  · refine makesNode_asking isCast isAtCast_read fun b => ?_
    split
    · exact makesNode_node _ _
    · refine makesNode_frame fun p q a hp hpending hout h => ?_
      rcases read_bind_some h with ⟨b, r, hprimary, hrest⟩
      have hr := makesNode_primary.hasNode hp hpending hout hprimary
      split at hrest
      · exact keepsNode_repeatWhile keepsNode_postfixForm _ _ _ hr hrest
      · cases hrest
        exact hr

theorem keepsNode_binaryOperation (power : Nat) :
    KeepsNode ((binaryOperation power).read limit readers) := by
  refine keepsNode_bind keepsNode_look fun next => ?_
  split
  · exact keepsNode_pure _
  · split
    · exact keepsNode_pure _
    · exact keepsNode_ite (keepsNode_pure _)
        (keepsNode_bind (keepsNode_enclose _ _) fun _ => keepsNode_pure _)

theorem keepsNode_isAt (k : Kind) : KeepsNode ((isAt k).read limit readers) :=
  keepsNode_bind keepsNode_look fun _ => keepsNode_pure _

theorem keepsNode_isAtOneOf (ks : KindSet) : KeepsNode ((isAtOneOf ks).read limit readers) :=
  keepsNode_bind keepsNode_look fun _ => keepsNode_pure _

/-- The productions of operands collect a single node. -/
def MakeNodes (readers : Readers) : Prop :=
  MakesNode (readers .unary) ∧ (∀ power, MakesNode (readers (.binary power))) ∧
    MakesNode (readers .expr)

theorem makesNode_call {q : Production} (h : MakesNode (readers q)) :
    MakesNode ((call q).read limit readers) := by
  intro p r a hp hpending hread
  rw [read_call] at hread
  exact h p r a hp hpending hread

theorem makesNode_binaryScript (h : MakeNodes readers) (power : Nat) :
    MakesNode ((binaryScript power).read limit readers) := by
  refine makesNode_frame fun p q a hp hpending hout hread => ?_
  rcases read_bind_some hread with ⟨_, r, hcall, hrest⟩
  have hr := (makesNode_call h.1).hasNode hp hpending hout hcall
  exact keepsNode_repeatWhile (keepsNode_binaryOperation power) _ _ _ hr hrest

theorem makesNode_exprScript (h : MakeNodes readers) :
    MakesNode (exprScript.read limit readers) := by
  have hconditional : MakesNode (conditional.read limit readers) := by
    refine makesNode_frame fun p q a hp hpending hout hread => ?_
    rcases read_bind_some hread with ⟨_, r, hcall, hrest⟩
    have hr := (makesNode_call (h.2.1 1)).hasNode hp hpending hout hcall
    exact keepsNode_bind (keepsNode_isAt _) (fun _ => keepsNode_ite (keepsNode_enclose _ _)
      (keepsNode_pure _)) _ _ _ hr hrest
  refine makesNode_deeper (makesNode_asking isLambda isAtLambda_read fun b => ?_)
  split
  · exact makesNode_node _ _
  · refine makesNode_frame fun p q a hp hpending hout hread => ?_
    rcases read_bind_some hread with ⟨_, r, hcall, hrest⟩
    have hr := hconditional.hasNode hp hpending hout hcall
    exact keepsNode_bind (keepsNode_isAtOneOf _) (fun _ => keepsNode_ite (keepsNode_enclose _ _)
      (keepsNode_pure _)) _ _ _ hr hrest

end Nodes

/-- The productions of operands collect a single node. -/
theorem makeNodes_readProduction (limit : Option Nat) (n : Nat) :
    MakeNodes (readProduction limit n) := by
  induction n with
  | zero => exact ⟨fun _ _ _ _ _ => nofun, fun _ _ _ _ _ _ => nofun, fun _ _ _ _ _ => nofun⟩
  | succ n ih =>
      exact ⟨makesNode_unaryScript, makesNode_binaryScript ih, makesNode_exprScript ih⟩

/-- An expression is read in the same way behind whatever stands before it. -/
theorem framed_readProduction (limit : Option Nat) (n : Nat) :
    IsFramed (readProduction limit n .expr) := by
  cases n with
  | zero => exact framed_none fun _ => rfl
  | succ n => exact framed_exprScript

end Grammar

end Nominal
