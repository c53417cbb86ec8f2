import Mathlib.Data.Bool.Basic
import Nominal.Proofs.Shape
import Nominal.Proofs.Watched

/-!
# Tokens That Expressions Own

Every expression has a token that belongs to no other expression in it: an operator, a
keyword, a bracket, a name. So a part of an expression always has fewer tokens than the whole,
and two expressions of one kind never have the same tokens. What a call or a lambda has of
its own may stand in the list of its arguments or parameters, so these count as well.

A run is followed that takes tokens only, and what is kept in mind of the current group is
whether it has such a token.

## Main definitions

* `Tree.holdsAny`: There is a token of its own among some trees.
* `Tree.Anchored`: A tree in which every expression has a token of its own.
* `Anchors`: Whether the current group has a token of its own behind a script.

## Theorems

* `Anchors.node`: A group that makes a node of its own.
* `Anchors.enclose`: A group that wraps what was collected before it.
* `Anchors.loop`: A loop keeps what each round keeps.
-/

namespace Nominal

namespace Syntax

/-- The lists whose tokens belong to the node above them. -/
def Kind.carriers : List Kind := [.argList, .lambdaParamList, .lambdaParam]

namespace Tree

mutual

/-- Whether a tree is a token, or a list with a token that belongs to the node above it. -/
def holds : Tree → Bool
  | token lexeme => !lexeme.isTrivia
  | node kind children => Kind.carriers.contains kind && holdsAny children

/-- Whether there is a token among some trees that belongs to the node above them. -/
def holdsAny : List Tree → Bool
  | [] => false
  | t :: ts => t.holds || holdsAny ts

end

@[simp]
theorem holdsAny_append (ts us : List Tree) :
    holdsAny (ts ++ us) = (holdsAny ts || holdsAny us) := by
  induction ts with
  | nil => rfl
  | cons t ts ih => rw [List.cons_append, holdsAny, ih, holdsAny, Bool.or_assoc]

/-- A tree in which every expression has a token of its own. A literal has nothing else, and
    a variable has one unless there is nothing of it. -/
inductive Anchored : Tree → Prop where
  | token (lexeme : Lexeme) : Anchored (token lexeme)
  | node {kind : Kind} {children : List Tree} :
    (kind ∈ Kind.expressions → holdsAny children = true) →
    (kind = .literal → ∃ l, l.isTrivia = false ∧ children = [.token l]) →
    (kind = .varDeclarator → children = [] ∨ holdsAny children = true) →
    (∀ t ∈ children, Anchored t) → Anchored (node kind children)

end Tree

end Syntax

namespace Grammar

open Syntax (Kind KindSet Lexeme Tree)

/-- The trees of the current group are anchored, and have a token of their own if `own`
    says so. -/
def State.Anchored (own : Bool) (s : State) : Prop :=
  (∀ t ∈ s.output, t.Anchored) ∧ (own = true → Tree.holdsAny s.output = true)

/-- Whether the trees of the current group have a token of their own behind a script, given
    whether they have one before it. -/
def Anchors (setting : Setting) (watched : Productions) {α : Type} (x : Script α) (own : Bool)
    (owns : α → Bool) : Prop :=
  ∀ (s t : State) (a : α), s.Anchored own → x.watch setting watched s = .ok a t →
    t.Anchored (owns a)

namespace State.Anchored

variable {own : Bool} {s t : State}

/-- Where nothing has been collected, all is anchored. -/
theorem empty (h : s.output = []) : s.Anchored false := by
  refine ⟨?_, nofun⟩
  rw [h]
  exact List.forall_mem_nil _

theorem weaken {own' : Bool} (h : s.Anchored own) (hown : own' = true → own = true) :
    s.Anchored own' :=
  ⟨h.1, fun howns => h.2 (hown howns)⟩

/-- What is collected behind anchored trees takes no token from them. -/
theorem append (h : s.Anchored own) {us : List Tree} (hus : ∀ u ∈ us, u.Anchored)
    (ht : t.output = s.output ++ us) : t.Anchored (own || Tree.holdsAny us) := by
  refine ⟨?_, fun howns => ?_⟩
  · rw [ht, List.forall_mem_append]
    exact ⟨h.1, hus⟩
  · rw [ht, Tree.holdsAny_append]
    cases own with
    | true => rw [h.2 rfl, Bool.true_or]
    | false =>
        rw [Bool.false_or] at howns
        rw [howns, Bool.or_true]

theorem tokens (h : s.Anchored own) (ls : List Lexeme)
    (ht : t.output = s.output ++ ls.map .token) : t.Anchored own := by
  refine (h.append ?_ ht).weaken Bool.or_inl
  intro u hu
  rcases List.mem_map.mp hu with ⟨l, _, rfl⟩
  exact .token l

/-- A node is collected behind the trivia that was set aside. -/
theorem add (h : s.Anchored own) {u : Tree} (hu : u.Anchored)
    (ht : t.output = s.flush.output ++ [u]) : t.Anchored (own || u.holds) := by
  have hflush : s.flush.Anchored own := h.tokens s.pending rfl
  have hsingle : ∀ v ∈ [u], v.Anchored := by simpa using hu
  have hadd := hflush.append hsingle ht
  rwa [Tree.holdsAny, Tree.holdsAny, Bool.or_false] at hadd

end State.Anchored

namespace Anchors

variable {setting : Setting} {watched : Productions} {α β : Type}
variable {own : Bool} {owns : α → Bool}

theorem weaken {x : Script α} {owns' : α → Bool} (h : Anchors setting watched x own owns)
    (howns : ∀ a, owns' a = true → owns a = true) : Anchors setting watched x own owns' :=
  fun s t a hs hx => (h s t a hs hx).weaken (howns a)

/-- A script that is over with the answer `a` has to meet what is asked of that answer. -/
theorem done {a : α} (h : owns a = true → own = true) :
    Anchors setting watched (Pure.pure a) own owns := by
  intro s t b hs hx
  cases hx
  exact hs.weaken h

theorem pure (a : α) : Anchors setting watched (Pure.pure a) own fun _ => own := done id

/-- One script after another. -/
theorem bind {x : Script β} {f : β → Script α} {mid : β → Bool}
    (hx : Anchors setting watched x own mid)
    (hf : ∀ b, Anchors setting watched (f b) (mid b) owns) :
    Anchors setting watched (x >>= f) own owns := by
  intro s t a hs h
  rw [watch_bind] at h
  rcases Outcome.andThen_eq_ok h with ⟨b, r, hfirst, hnext⟩
  exact hf b r t a (hx s r b hs hfirst) hnext

theorem ite {c : Prop} [Decidable c] {x y : Script α} (hx : Anchors setting watched x own owns)
    (hy : Anchors setting watched y own owns) :
    Anchors setting watched (if c then x else y) own owns := by
  split
  · exact hx
  · exact hy

theorem perform (op : Op) : Anchors setting watched (Script.perform op) own fun _ => own := by
  intro s t a hs h
  rw [watch_perform] at h
  rcases output_run (run_of_watch h) with ⟨ls, ho⟩
  exact hs.tokens ls ho

/-- A token that is taken belongs to the current group. -/
theorem take : Anchors setting watched Script.take own fun _ => true := by
  intro s t u hs h
  rw [Script.take, watch_perform] at h
  rcases watch_take_ok h with ⟨l, ls, -, hl, rfl⟩
  have ho : (s.takeLexeme l ls).output = s.flush.output ++ [.token l] := by
    simp only [State.takeLexeme, State.flush, output_spend, pending_spend]
  refine (hs.add (.token l) ho).weaken fun _ => ?_
  rw [Tree.holds, hl, Bool.not_false, Bool.or_true]

/-- A group that makes a node of its own. -/
theorem group {x : Script α} {k : Kind} (hx : Anchors setting watched x false owns)
    (hown : k ∈ Kind.expressions → ∀ a, owns a = true) (hliteral : k ≠ .literal)
    (hdeclarator : k ≠ .varDeclarator) :
    Anchors setting watched (Script.node k x) own
      fun a => own || (Kind.carriers.contains k && owns a) := by
  intro s t b hs h
  rcases Outcome.andThen_eq_ok h with ⟨_, r, hbody, hdone⟩
  cases hdone
  have hr := hx _ r b (.empty rfl) hbody
  have hnode : (Syntax.Tree.node k r.output).Anchored :=
    .node (fun hk => hr.2 (hown hk b)) (absurd · hliteral) (absurd · hdeclarator) hr.1
  refine (hs.add hnode rfl).weaken ?_
  rw [Tree.holds, Bool.or_eq_true, Bool.or_eq_true, Bool.and_eq_true, Bool.and_eq_true]
  exact Or.imp_right (And.imp_right hr.2)

theorem node {x : Script α} {k : Kind} (hx : Anchors setting watched x false owns)
    (hown : k ∈ Kind.expressions → ∀ a, owns a = true) (hliteral : k ≠ .literal)
    (hdeclarator : k ≠ .varDeclarator) :
    Anchors setting watched (Script.node k x) own fun _ => own :=
  (group hx hown hliteral hdeclarator).weaken fun _ h => Bool.or_inl h

/-- A group that makes a node of its own, of a kind that needs no token. -/
theorem plain {x : Script α} {k : Kind} (hx : Anchors setting watched x false owns)
    (hk : (.varDeclarator :: Kind.expressions).contains k = false) :
    Anchors setting watched (Script.node k x) own fun _ => own := by
  have hnot : k ∉ .varDeclarator :: Kind.expressions := by
    intro hmem
    rw [List.contains_iff_mem.mpr hmem] at hk
    cases hk
  refine node hx (fun h => absurd (List.mem_cons_of_mem _ h) hnot) ?_ ?_
  · rintro rfl
    exact hnot (by decide)
  · rintro rfl
    exact hnot List.mem_cons_self

/-- A list whose tokens belong to the node above it. -/
theorem carry {x : Script α} {k : Kind} (hx : Anchors setting watched x false fun _ => true)
    (hk : Kind.carriers.contains k = true) :
    Anchors setting watched (Script.node k x) own fun _ => true := by
  refine (group hx (fun _ _ => rfl) ?_ ?_).weaken fun _ _ => by rw [hk, Bool.true_and, Bool.or_true]
  · rintro rfl
    cases hk
  · rintro rfl
    cases hk

/-- A node around a single token. -/
theorem single (k : Kind) (hk : k ≠ .varDeclarator) :
    Anchors setting watched (Script.node k Script.take) own fun _ => own := by
  intro s t u hs h
  rcases Outcome.andThen_eq_ok h with ⟨_, r, hbody, hdone⟩
  cases hdone
  rw [Script.take, watch_perform] at hbody
  rcases watch_take_ok hbody with ⟨l, ls, -, hl, rfl⟩
  have ho : (((Grouping.node k).begin s).takeLexeme l ls).output = [.token l] := by
    simp only [State.takeLexeme, State.flush, output_spend, pending_spend, Grouping.begin,
      List.map_nil, List.append_nil, List.nil_append]
  have hnode : (Syntax.Tree.node k [.token l]).Anchored := by
    refine .node (fun _ => ?_) (fun _ => ⟨l, hl, rfl⟩) (absurd · hk) (by simpa using .token l)
    rw [Tree.holdsAny, Tree.holds, hl, Bool.not_false, Bool.true_or]
  refine (hs.add hnode ?_).weaken Bool.or_inl
  exact congrArg (fun ts => s.flush.output ++ [Syntax.Tree.node k ts]) ho

/-- A group that is only a place to return to. -/
theorem frame {x : Script α} (hx : Anchors setting watched x false fun _ => false) :
    Anchors setting watched (Script.frame x) own fun _ => own := by
  intro s t b hs h
  rcases Outcome.andThen_eq_ok h with ⟨_, r, hbody, hdone⟩
  cases hdone
  have hr := hx _ r b (.empty rfl) hbody
  have hflush : s.flush.Anchored own := hs.tokens s.pending rfl
  exact (hflush.append hr.1 rfl).weaken Bool.or_inl

/-- A group that wraps what was collected before it. -/
theorem enclose {x : Script α} {k : Kind} (hx : Anchors setting watched x own owns)
    (hown : k ∈ .varDeclarator :: Kind.expressions → ∀ a, owns a = true) (hliteral : k ≠ .literal) :
    Anchors setting watched (Script.enclose k x) own fun _ => false := by
  intro s t b hs h
  rcases Outcome.andThen_eq_ok h with ⟨_, r, hbody, hdone⟩
  cases hdone
  have hr := hx s r b hs hbody
  have hnode : (Syntax.Tree.node k r.output).Anchored := by
    refine .node (fun hk => hr.2 (hown (List.mem_cons_of_mem _ hk) b)) (absurd · hliteral) ?_ hr.1
    rintro rfl
    exact .inr (hr.2 (hown List.mem_cons_self b))
  refine ⟨fun u hu => ?_, nofun⟩
  rw [List.mem_singleton.mp hu]
  exact hnode

/-- A group that wraps what was collected before it, of a kind that needs no token. -/
theorem wrap {x : Script α} {k : Kind} (hx : Anchors setting watched x own owns)
    (hk : (.varDeclarator :: Kind.expressions).contains k = false) :
    Anchors setting watched (Script.enclose k x) own fun _ => false := by
  have hnot : k ∉ .varDeclarator :: Kind.expressions := by
    intro hmem
    rw [List.contains_iff_mem.mpr hmem] at hk
    cases hk
  refine enclose hx (fun h => absurd h hnot) ?_
  rintro rfl
  exact hnot (by decide)

/-- A loop keeps what each round keeps. -/
theorem loop {σ : Type} {body : σ → Script (Bool × σ)} {start : σ} {next : σ → Script α}
    (hbody : ∀ x, Anchors setting watched (body x) own fun _ => own)
    (hnext : ∀ x, Anchors setting watched (next x) own owns) :
    Anchors setting watched (.loop body start next) own owns := by
  intro s t a hs h
  rcases Outcome.andThen_eq_ok h with ⟨y, r, hloop, hrest⟩
  refine hnext y r t a (Keeps.iterate (I := State.Anchored own) ?_ hloop hs) hrest
  intro x p b q hround hp
  rcases Outcome.andThen_eq_ok hround with ⟨c, u, hwatch, hanswer⟩
  rw [watchRound] at hanswer
  split at hanswer
  · cases hanswer
  · cases hanswer
    exact hbody x p _ _ hp hwatch

theorem repeatWhile {body : Script Bool} (hbody : Anchors setting watched body own fun _ => own) :
    Anchors setting watched (Script.repeatWhile body) own fun _ => own :=
  loop (fun _ => bind hbody fun _ => pure _) fun _ => pure _

theorem whileTrue {condition : Script Bool} {body : Script Unit}
    (hcondition : Anchors setting watched condition own fun _ => own)
    (hbody : Anchors setting watched body own fun _ => own) :
    Anchors setting watched (Script.whileTrue condition body) own fun _ => own :=
  repeatWhile (bind hcondition fun _ => ite (bind hbody fun _ => pure _) (pure _))

/-! ### Scripts that collect tokens only -/

section Tokens

/-- A token that is taken takes no other one away. -/
theorem more : Anchors setting watched Script.take own fun _ => own := take.weaken fun _ _ => rfl

theorem isAt (k : Kind) : Anchors setting watched (Script.isAt k) own fun _ => own :=
  bind (perform .look) fun _ => pure _

theorem isAtOneOf (ks : KindSet) : Anchors setting watched (Script.isAtOneOf ks) own fun _ => own :=
  bind (perform .look) fun _ => pure _

theorem nextIs (k : Kind) : Anchors setting watched (Script.nextIs k) own fun _ => own :=
  bind (perform (.ahead 1)) fun _ => pure _

theorem isAtPair (j k : Kind) : Anchors setting watched (Script.isAtPair j k) own fun _ => own :=
  bind (isAt j) fun _ => ite (nextIs k) (pure _)

/-- What is taken belongs to the current group, if anything is. -/
theorem eats (k : Kind) : Anchors setting watched (Script.eat k) own fun taken => own || taken :=
  bind (isAt k) fun _ => ite (bind take fun _ => done fun _ => rfl)
    (done fun h => by rwa [Bool.or_false] at h)

theorem eat (k : Kind) : Anchors setting watched (Script.eat k) own fun _ => own :=
  (eats k).weaken fun _ => Bool.or_inl

theorem expect (k : Kind) (what : String) :
    Anchors setting watched (Script.expect k what) own fun _ => own :=
  bind (eat k) fun _ => ite (pure _) (perform (.report _ _))

theorem expectsName (what : String) :
    Anchors setting watched (Script.expectName what) own fun named => own || named := by
  refine bind (eats .id) fun taken => ?_
  cases taken with
  | true => exact done id
  | false => exact bind (perform (.report _ _)) fun _ => done id

theorem expectName (what : String) :
    Anchors setting watched (Script.expectName what) own fun _ => own :=
  (expectsName what).weaken fun _ => Bool.or_inl

theorem expectSemicolon : Anchors setting watched Script.expectSemicolon own fun _ => own :=
  bind (eat .semicolon) fun _ => ite (pure _) (bind (perform .reportSemicolon) fun _ => pure _)

theorem isBefore (k : Kind) : Anchors setting watched (Script.isBefore k) own fun _ => own :=
  bind (perform .atEnd) fun _ => ite (pure _) (bind (isAt k) fun _ => pure _)

theorem takeOpening : Anchors setting watched Script.takeOpening own fun _ => true :=
  bind (perform .openDelimiter) fun _ => take

theorem opening : Anchors setting watched Script.takeOpening own fun _ => own :=
  takeOpening.weaken fun _ _ => rfl

theorem expectClosing (k : Kind) (unclosed : Diagnostic.Kind) :
    Anchors setting watched (Script.expectClosing k unclosed) own fun _ => own :=
  bind (eat k) fun _ => ite (perform .closeDelimiter) (perform (.reportUnclosed unclosed))

theorem reportAndTake (kind : Diagnostic.Kind) :
    Anchors setting watched (Script.reportAndTake kind) own fun _ => own :=
  bind (perform (.report _ _)) fun _ =>
    bind (perform .exhausted) fun _ => ite (pure _) (plain take rfl)

theorem recover (kind : Diagnostic.Kind) (recovery : KindSet) :
    Anchors setting watched (Script.recover kind recovery) own fun _ => own := by
  have hstops : ∀ own, Anchors setting watched
      (do if ← Script.isAtOneOf recovery then return true else Script.atEnd : Script Bool) own
      fun _ => own :=
    fun own => bind (isAtOneOf _) fun _ => ite (pure _) (perform .atEnd)
  have hskip : Anchors setting watched
      (do Script.report kind
          Script.whileTrue (do return !(← (do
            if ← Script.isAtOneOf recovery then return true else Script.atEnd : Script Bool)))
            Script.take : Script Unit) false fun _ => false :=
    bind (perform (.report _ _)) fun _ => whileTrue (bind (hstops false) fun _ => pure _) more
  exact bind (hstops own) fun _ => ite (perform (.report _ _)) (plain hskip rfl)

end Tokens

/-- One level deeper the same is collected, or nothing where that is too deep. -/
theorem deeper {x : Script Unit} (hx : Anchors setting watched x own fun _ => own) :
    Anchors setting watched (Script.deeper x) own fun _ => own :=
  bind (perform .enter) fun _ =>
    ite (bind hx fun _ => perform .leave) (plain (pure _) rfl)

end Anchors

end Grammar

end Nominal
