import Nominal.Proofs.Runs
import Nominal.Proofs.Shape

/-!
# Building Trees of Known Shapes

How the nodes collected by a script are followed through its run. `Builds` says of a
script what shape the trees of the current group have behind it, given their shape before
it, and there is one rule for each way in which scripts are put together. Operations
collect nothing but tokens, so they leave shapes alone. A group that makes a node is the
only place at which a shape is asked for.

A script may end in many ways, and only those count in which it gives an answer.

## Main definitions

* `State.Holds`: The trees of the current group conform and fit into slots.
* `Builds`: What shape the trees of the group have behind a script.
* `Production.slots`: What a production collects.
* `Fulfilled`: The productions that are referred to collect what they have to.
* `Appends`: A script that leaves alone what was collected before it.

## Theorems

* `Builds.bind`: One script after another.
* `Builds.node`: A group that makes a node of its own.
* `Builds.enclose`: A group that wraps what was collected before it.
* `Builds.repeatWhile`: A loop keeps what each round keeps.
-/

namespace Nominal

namespace Grammar

open Syntax (Kind Lexeme Tree Slot Fits)

/-- The trees of the current group have the shapes of their kinds and fit into slots. -/
def State.Holds (ps : List Slot) (s : State) : Prop :=
  (∀ t ∈ s.output, t.Conforms) ∧ Fits ps (Tree.nodeKinds s.output)

/-- What shape the trees of the current group have behind a script, given their shape
    before it. -/
def Builds (setting : Setting) (productions : Productions) {α : Type} (x : Script α)
    (ps : List Slot) (qs : α → List Slot) : Prop :=
  ∀ (s t : State) (a : α), s.Holds ps → x.exec setting productions s = .ok a t → t.Holds (qs a)

/-- What a production collects. -/
def Production.slots : Production → List Slot
  | .items _ => [.many Kind.items]
  | .member => [.one Kind.members]
  | .stmt => [.one Kind.statements]
  | .expr | .binary _ | .unary => [.one Kind.expressions]
  | .type => [.one Kind.types]

/-- The productions that are referred to collect what they have to. -/
def Fulfilled (setting : Setting) (productions : Productions) : Prop :=
  ∀ (p : Production) (ps : List Slot),
    Builds setting productions (Script.call p) ps fun _ => ps ++ p.slots

namespace State.Holds

variable {ps qs : List Slot} {s t : State}

theorem mono (hn : Slot.narrower ps qs = true) (h : s.Holds ps) : s.Holds qs :=
  ⟨h.1, h.2.mono hn⟩

theorem pad (h : s.Holds ps) (qs : List Slot) : s.Holds (ps ++ qs) := ⟨h.1, h.2.pad qs⟩

/-- Collecting tokens leaves shapes alone. -/
theorem tokens (h : s.Holds ps) (ls : List Lexeme) (ht : t.output = s.output ++ ls.map .token) :
    t.Holds ps := by
  refine ⟨?_, ?_⟩
  · rw [ht]
    intro u hu
    rcases List.mem_append.mp hu with hu | hu
    · exact h.1 u hu
    · rcases List.mem_map.mp hu with ⟨l, _, rfl⟩
      exact .token l
  · rw [ht, Tree.nodeKinds_append, Tree.nodeKinds_map_token, List.append_nil]
    exact h.2

/-- Collecting a node takes one more slot. -/
theorem add (h : s.Holds ps) (ls : List Lexeme) {u : Tree} {k : Kind} {ks : List Kind}
    (ht : t.output = s.output ++ ls.map .token ++ [u]) (hu : u.Conforms)
    (hk : u.nodeKind? = some k) (hks : k ∈ ks) : t.Holds (ps ++ [.one ks]) := by
  refine ⟨?_, ?_⟩
  · rw [ht]
    intro v hv
    rcases List.mem_append.mp hv with hv | hv
    · exact (h.tokens ls (t := { s with output := s.output ++ ls.map .token }) rfl).1 v hv
    · rw [List.mem_singleton.mp hv]
      exact hu
  · rw [ht, Tree.nodeKinds_append, Tree.nodeKinds_append, Tree.nodeKinds_map_token, List.append_nil]
    refine h.2.append ?_
    rw [Tree.nodeKinds, List.filterMap_cons_some hk]
    exact .one hks .nil

end State.Holds

namespace Builds

variable {setting : Setting} {productions : Productions} {α β : Type}
variable {ps : List Slot} {qs rs : α → List Slot}

theorem mono {x : Script α} (h : Builds setting productions x ps qs)
    (hn : ∀ a, Slot.narrower (qs a) (rs a) = true) : Builds setting productions x ps rs :=
  fun s t a hs hx => (h s t a hs hx).mono (hn a)

theorem pad {x : Script α} (h : Builds setting productions x ps qs) (ls : List Slot) :
    Builds setting productions x ps fun a => qs a ++ ls :=
  fun s t a hs hx => (h s t a hs hx).pad ls

/-- The loosening of the slots before a script. -/
theorem after {x : Script α} {os : List Slot} (h : Builds setting productions x ps qs)
    (hn : Slot.narrower os ps = true) : Builds setting productions x os qs :=
  fun s t a hs hx => h s t a (hs.mono hn) hx

theorem pure (a : α) : Builds setting productions (pure a) ps fun _ => ps := by
  intro s t b hs hx
  cases hx
  exact hs

/-- A script that is over with the answer `a` has to meet what is asked of that answer. -/
theorem done {a : α} (hn : Slot.narrower ps (qs a) = true) :
    Builds setting productions (Pure.pure a) ps qs := by
  intro s t b hs hx
  cases hx
  exact hs.mono hn

/-- One script after another. -/
theorem bind {x : Script β} {f : β → Script α} {os : β → List Slot}
    (hx : Builds setting productions x ps os)
    (hf : ∀ b, Builds setting productions (f b) (os b) qs) :
    Builds setting productions (x >>= f) ps qs := by
  intro s t a hs h
  rw [exec_bind] at h
  rcases Outcome.andThen_eq_ok h with ⟨b, r, hfirst, hnext⟩
  exact hf b r t a (hx s r b hs hfirst) hnext

theorem ite {c : Prop} [Decidable c] {x y : Script α} (hx : Builds setting productions x ps qs)
    (hy : Builds setting productions y ps qs) :
    Builds setting productions (if c then x else y) ps qs := by
  split
  · exact hx
  · exact hy

theorem perform (op : Op) : Builds setting productions (Script.perform op) ps fun _ => ps := by
  intro s t a hs h
  rw [exec_perform] at h
  rcases output_run h with ⟨ls, ho⟩
  exact hs.tokens ls ho

theorem holds_begin {s : State} {k : Kind} : State.Holds [] ((Grouping.node k).begin s) :=
  ⟨nofun, .nil⟩

/-- A group that makes a node of its own. -/
theorem node {x : Script α} {k : Kind} (hx : Builds setting productions x [] qs)
    (hn : ∀ a, Slot.narrower (qs a) k.slots = true) (hk : k ≠ .error)
    (hanon : k ≠ .anonObjectCreation) :
    Builds setting productions (Script.node k x) ps fun _ => ps ++ [.one [k]] := by
  intro s t b hs h
  rcases Outcome.andThen_eq_ok h with ⟨_, r, hbody, hdone⟩
  cases hdone
  have hr := (hx _ r b holds_begin hbody).mono (hn b)
  refine hs.add s.pending (u := .node k r.output) rfl ?_ ?_ (List.mem_singleton_self k)
  · exact .node hr.2 (fun h => absurd h hanon) hr.1
  · rw [Tree.nodeKind?, if_neg hk]

/-- A node around skipped tokens takes no slot. -/
theorem errorNode {x : Script α} (hx : Builds setting productions x [] fun _ => []) :
    Builds setting productions (Script.node .error x) ps fun _ => ps := by
  intro s t b hs h
  rcases Outcome.andThen_eq_ok h with ⟨_, r, hbody, hdone⟩
  cases hdone
  have hr := hx _ r b holds_begin hbody
  have htokens := hs.tokens s.pending (t := s.flush) rfl
  refine ⟨?_, ?_⟩
  · intro u hu
    rcases List.mem_append.mp hu with hu | hu
    · exact htokens.1 u hu
    · rw [List.mem_singleton.mp hu]
      exact .node hr.2 nofun hr.1
  · have hkinds : Tree.nodeKinds (s.flush.output ++ [.node .error r.output])
        = Tree.nodeKinds s.flush.output := by
      rw [Tree.nodeKinds_append]
      exact List.append_nil _
    exact hkinds ▸ htokens.2

/-- A group that is only a place to return to. Its body starts with nothing collected or set
    aside. -/
theorem frame_fresh {x : Script α}
    (hx : ∀ (s t : State) (a : α), s.output = [] → s.pending = [] →
      x.exec setting productions s = .ok a t → t.Holds (qs a)) :
    Builds setting productions (Script.frame x) ps fun a => ps ++ qs a := by
  intro s t b hs h
  rcases Outcome.andThen_eq_ok h with ⟨_, r, hbody, hdone⟩
  cases hdone
  have hr := hx _ r b rfl rfl hbody
  have htokens := hs.tokens s.pending (t := s.flush) rfl
  refine ⟨?_, ?_⟩
  · intro u hu
    rcases List.mem_append.mp hu with hu | hu
    · exact htokens.1 u hu
    · exact hr.1 u hu
  · change Fits _ (Tree.nodeKinds (s.flush.output ++ r.output))
    rw [Tree.nodeKinds_append]
    exact htokens.2.append hr.2

theorem frame {x : Script α} (hx : Builds setting productions x [] qs) :
    Builds setting productions (Script.frame x) ps fun a => ps ++ qs a :=
  frame_fresh fun s t a ho _ h => hx s t a (by rw [State.Holds, ho]; exact ⟨nofun, .nil⟩) h

/-- A group that wraps what was collected before it. -/
theorem enclose {x : Script α} {k : Kind} (hx : Builds setting productions x ps qs)
    (hn : ∀ a, Slot.narrower (qs a) k.slots = true) (hk : k ≠ .error)
    (hanon : k ≠ .anonObjectCreation) :
    Builds setting productions (Script.enclose k x) ps fun _ => [.one [k]] := by
  intro s t b hs h
  rcases Outcome.andThen_eq_ok h with ⟨_, r, hbody, hdone⟩
  cases hdone
  have hr := (hx s r b hs hbody).mono (hn b)
  refine ⟨?_, ?_⟩
  · intro u hu
    rw [List.mem_singleton.mp hu]
    exact .node hr.2 (fun h => absurd h hanon) hr.1
  · change Fits _ (Tree.nodeKinds [.node k r.output])
    rw [Tree.nodeKinds, List.filterMap_cons_some (by rw [Tree.nodeKind?, if_neg hk])]
    exact .one (List.mem_singleton_self k) .nil

theorem iterate {σ : Type} {step : σ → State → Outcome (Bool × σ)} {os : List Slot}
    (hstep : ∀ {x s r t}, s.Holds os → step x s = .ok r t → t.Holds os) {n : Nat} {x y : σ}
    {s t : State} (hs : s.Holds os) (h : iterate step n x s = .ok y t) : t.Holds os := by
  induction n generalizing x s with
  | zero => cases h
  | succ n ih =>
      rcases Outcome.andThen_eq_ok h with ⟨⟨again, z⟩, r, hround, hrest⟩
      have hr := hstep hs hround
      cases again with
      | true => exact ih hr hrest
      | false =>
          simp only [Bool.false_eq_true, if_false] at hrest
          cases hrest
          exact hr

/-- A loop keeps what each round keeps. -/
theorem loop {σ : Type} {body : σ → Script (Bool × σ)} {start : σ} {next : σ → Script α}
    (hbody : ∀ x, Builds setting productions (body x) ps fun _ => ps)
    (hnext : ∀ x, Builds setting productions (next x) ps qs) :
    Builds setting productions (.loop body start next) ps qs := by
  intro s t a hs h
  rcases Outcome.andThen_eq_ok h with ⟨y, r, hloop, hrest⟩
  have hround : ∀ {x : σ} {p q : State} {b : Bool × σ}, p.Holds ps →
      (body x).exec setting productions p = .ok b q → q.Holds ps := fun hp hx => hbody _ _ _ _ hp hx
  exact hnext y r t a (iterate hround hs hloop) hrest

theorem repeatWhile {body : Script Bool} (hbody : Builds setting productions body ps fun _ => ps) :
    Builds setting productions (Script.repeatWhile body) ps fun _ => ps :=
  loop (fun _ => bind hbody fun _ => pure _) fun _ => pure _

theorem whileTrue {condition : Script Bool} {body : Script Unit}
    (hcondition : Builds setting productions condition ps fun _ => ps)
    (hbody : Builds setting productions body ps fun _ => ps) :
    Builds setting productions (Script.whileTrue condition body) ps fun _ => ps :=
  repeatWhile (bind hcondition fun _ => ite (bind hbody fun _ => pure _) (pure _))

/-- What adds a node to several of its kind leaves several of them. -/
theorem merge (os : List Slot) {x : Script α} {js ls : List Kind}
    (h : Builds setting productions x (os ++ [.many ls]) fun _ => os ++ [.many ls] ++ [.one js])
    (hamong : Slot.among js ls = true) :
    Builds setting productions x (os ++ [.many ls]) fun _ => os ++ [.many ls] := by
  intro s t a hs hx
  have ht := h s t a hs hx
  exact ⟨ht.1, ht.2.merge hamong⟩

/-- What adds a node adds one of more kinds. -/
theorem widen {x : Script α} {os : List Slot} {js ls : List Kind}
    (h : Builds setting productions x ps fun _ => os ++ [.one js])
    (hamong : Slot.among js ls = true) :
    Builds setting productions x ps fun _ => os ++ [.one ls] := by
  intro s t a hs hx
  have ht := h s t a hs hx
  exact ⟨ht.1, ht.2.widen hamong⟩

/-! ### Scripts that collect tokens only -/

section Tokens

theorem isAt (k : Kind) : Builds setting productions (Script.isAt k) ps fun _ => ps :=
  bind (perform .look) fun _ => pure _

theorem isAtOneOf (ks : Syntax.KindSet) :
    Builds setting productions (Script.isAtOneOf ks) ps fun _ => ps :=
  bind (perform .look) fun _ => pure _

theorem nextIs (k : Kind) : Builds setting productions (Script.nextIs k) ps fun _ => ps :=
  bind (perform (.ahead 1)) fun _ => pure _

theorem isAtPair (j k : Kind) : Builds setting productions (Script.isAtPair j k) ps fun _ => ps :=
  bind (isAt j) fun _ => ite (nextIs k) (pure _)

theorem eat (k : Kind) : Builds setting productions (Script.eat k) ps fun _ => ps :=
  bind (isAt k) fun _ => ite (bind (perform .take) fun _ => pure _) (pure _)

theorem expect (k : Kind) (what : String) :
    Builds setting productions (Script.expect k what) ps fun _ => ps :=
  bind (eat k) fun _ => ite (pure _) (perform (.report _ _))

theorem expectName (what : String) :
    Builds setting productions (Script.expectName what) ps fun _ => ps :=
  bind (eat .id) fun _ => ite (pure _) (bind (perform (.report _ _)) fun _ => pure _)

theorem expectSemicolon : Builds setting productions Script.expectSemicolon ps fun _ => ps :=
  bind (eat .semicolon) fun _ => ite (pure _) (bind (perform .reportSemicolon) fun _ => pure _)

theorem isBefore (k : Kind) : Builds setting productions (Script.isBefore k) ps fun _ => ps :=
  bind (perform .atEnd) fun _ => ite (pure _) (bind (isAt k) fun _ => pure _)

theorem takeOpening : Builds setting productions Script.takeOpening ps fun _ => ps :=
  bind (perform .openDelimiter) fun _ => perform .take

theorem expectClosing (k : Kind) (unclosed : Diagnostic.Kind) :
    Builds setting productions (Script.expectClosing k unclosed) ps fun _ => ps :=
  bind (eat k) fun _ => ite (perform .closeDelimiter) (perform (.reportUnclosed unclosed))

theorem reportAndTake (kind : Diagnostic.Kind) :
    Builds setting productions (Script.reportAndTake kind) ps fun _ => ps :=
  bind (perform (.report _ _)) fun _ =>
    bind (perform .exhausted) fun _ => ite (pure _) (errorNode (perform .take))

theorem recover (kind : Diagnostic.Kind) (recovery : Syntax.KindSet) :
    Builds setting productions (Script.recover kind recovery) ps fun _ => ps := by
  have hstops : ∀ ps, Builds setting productions
      (do if ← Script.isAtOneOf recovery then return true else Script.atEnd : Script Bool) ps
      fun _ => ps :=
    fun ps => bind (isAtOneOf recovery) fun _ => ite (pure _) (perform .atEnd)
  simp only [Script.recover]
  refine bind (hstops ps) fun _ => ite (perform (.report _ _)) (errorNode ?_)
  exact bind (perform (.report _ _)) fun _ =>
    whileTrue (bind (hstops []) fun _ => pure _) (perform .take)

end Tokens

/-- One level deeper the same is collected, or nothing where that is too deep. -/
theorem deeper {x : Script Unit} {ls : List Slot}
    (hx : Builds setting productions x ps fun _ => ps ++ ls) :
    Builds setting productions (Script.deeper x) ps fun _ => ps ++ ls :=
  bind (perform .enter) fun _ =>
    ite (bind hx fun _ => perform .leave) (pad (errorNode (pure _)) ls)

end Builds

/-- A script that leaves alone what was collected before it. -/
def Appends (setting : Setting) (productions : Productions) {α : Type} (x : Script α) : Prop :=
  ∀ (s t : State) (a : α), x.exec setting productions s = .ok a t →
    ∃ us, t.output = s.output ++ us

namespace Appends

variable {setting : Setting} {productions : Productions} {α β : Type}

theorem pure (a : α) : Appends setting productions (Pure.pure a) := by
  intro s t b h
  cases h
  exact ⟨[], (List.append_nil _).symm⟩

theorem bind {x : Script β} {f : β → Script α} (hx : Appends setting productions x)
    (hf : ∀ b, Appends setting productions (f b)) : Appends setting productions (x >>= f) := by
  intro s t a h
  rw [exec_bind] at h
  rcases Outcome.andThen_eq_ok h with ⟨b, r, hfirst, hnext⟩
  rcases hx s r b hfirst with ⟨us, hr⟩
  rcases hf b r t a hnext with ⟨vs, ht⟩
  exact ⟨us ++ vs, by rw [ht, hr, List.append_assoc]⟩

theorem ite {c : Prop} [Decidable c] {x y : Script α} (hx : Appends setting productions x)
    (hy : Appends setting productions y) :
    Appends setting productions (if c then x else y) := by
  split
  · exact hx
  · exact hy

theorem perform (op : Op) : Appends setting productions (Script.perform op) := by
  intro s t a h
  rw [exec_perform] at h
  rcases output_run h with ⟨ls, ho⟩
  exact ⟨ls.map .token, ho⟩

theorem node (k : Kind) (x : Script α) : Appends setting productions (Script.node k x) := by
  intro s t a h
  rcases Outcome.andThen_eq_ok h with ⟨_, r, _, hdone⟩
  cases hdone
  refine ⟨s.pending.map .token ++ [.node k r.output], ?_⟩
  rw [← List.append_assoc]
  rfl

theorem repeatWhile {body : Script Bool} (hbody : Appends setting productions body) :
    Appends setting productions (Script.repeatWhile body) := by
  intro s t a h
  rcases Outcome.andThen_eq_ok h with ⟨y, r, hloop, hdone⟩
  cases hdone
  refine iterate_chain (R := fun s t => ∃ us, t.output = s.output ++ us) ?_ ?_ hloop
  · rintro s t u ⟨us, ht⟩ ⟨vs, hu⟩
    exact ⟨us ++ vs, by rw [hu, ht, List.append_assoc]⟩
  · intro _ q b r hround
    exact bind hbody (fun again => pure (again, ())) q r b hround

theorem eat (k : Kind) : Appends setting productions (Script.eat k) :=
  bind (bind (perform .look) fun _ => pure _) fun _ =>
    ite (bind (perform .take) fun _ => pure _) (pure _)

theorem isBefore (k : Kind) : Appends setting productions (Script.isBefore k) :=
  bind (perform .atEnd) fun _ =>
    ite (pure _) (bind (bind (perform .look) fun _ => pure _) fun _ => pure _)

theorem isAtOneOf (ks : Syntax.KindSet) : Appends setting productions (Script.isAtOneOf ks) :=
  bind (perform .look) fun _ => pure _

theorem expectClosing (k : Kind) (unclosed : Diagnostic.Kind) :
    Appends setting productions (Script.expectClosing k unclosed) :=
  bind (eat k) fun _ => ite (perform .closeDelimiter) (perform (.reportUnclosed unclosed))

theorem reportAndTake (kind : Diagnostic.Kind) :
    Appends setting productions (Script.reportAndTake kind) :=
  bind (perform (.report _ _)) fun _ => bind (perform .exhausted) fun _ =>
    ite (pure _) (node .error _)

end Appends

end Grammar

end Nominal
