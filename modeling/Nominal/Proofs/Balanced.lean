import Nominal.Proofs.Watched

/-!
# Nodes Are Opened and Closed in Turn

Groups are nested by construction, and the interpreter collects trees group by group. A tree
builder knows nothing of that. It has one list of finished trees and a stack of open nodes,
and is told to start a node, to start one at a checkpoint that was asked for earlier, and to
finish the innermost one. There are ways to misuse it: to finish a node where none is open,
to start one at a checkpoint that does not belong to the innermost open node, or to ask for
the tree while there is not exactly one.

`Script.build` runs a script on such a builder. A node is started and finished around its
group, a frame asks for a checkpoint, and what encloses the trees of a frame starts its node
there. No script misuses the builder, whatever it does, and the trees that the builder has in
the end are those that the interpreter collects.

## Main definitions

* `Builder`: A tree builder, and `Misuse`, what must not be done to it.
* `Script.build`: Running a script on a builder.
* `buildLexemes`: Parsing lexemes with a builder.

## Theorems

* `build_eq`: A run on a builder ends as the watched run does, with the same trees.
* `buildLexemes_eq`: So it is for the run of a whole file, with one tree in the end.
-/

namespace Nominal

namespace Grammar

open Syntax (Kind Lexeme Tree)

/-- What must not be done to a tree builder. -/
inductive Misuse where
  /-- A node is finished where none is open. -/
  | noOpenNode
  /-- A node is finished whose first child is not there any more. -/
  | missingChildren
  /-- A node is started at a checkpoint behind the trees that are there. -/
  | finishedCheckpoint
  /-- A node is started at a checkpoint before the first child of the innermost open node. -/
  | outerCheckpoint
  /-- The tree is asked for while a node is open. -/
  | openNode
  /-- The tree is asked for while there is not exactly one tree, a node. -/
  | notOneNode
deriving DecidableEq, Repr

/-- A tree builder. -/
structure Builder where
  /-- The open nodes, the innermost first: the kind of each, and where its children start. -/
  parents : List (Kind × Nat)
  /-- The finished trees. -/
  children : List Tree

namespace Builder

/-- A builder at the start. -/
def empty : Builder := ⟨[], []⟩

/-- Adds tokens. -/
def tokens (b : Builder) (ls : List Lexeme) : Builder :=
  { b with children := b.children ++ ls.map .token }

/-- Where a node may be started later. -/
def checkpoint (b : Builder) : Nat := b.children.length

/-- Starts a node. -/
def startNode (b : Builder) (kind : Kind) : Builder :=
  { b with parents := (kind, b.children.length) :: b.parents }

/-- Starts a node at a checkpoint. -/
def startNodeAt (b : Builder) (checkpoint : Nat) (kind : Kind) : Except Misuse Builder :=
  if b.children.length < checkpoint then .error .finishedCheckpoint
  else if b.parents.head?.any fun p => decide (checkpoint < p.2) then .error .outerCheckpoint
  else .ok { b with parents := (kind, checkpoint) :: b.parents }

/-- Finishes the innermost open node. -/
def finishNode (b : Builder) : Except Misuse Builder :=
  match b.parents with
  | [] => .error .noOpenNode
  | (kind, first) :: parents =>
    if b.children.length < first then .error .missingChildren
    else .ok ⟨parents, b.children.take first ++ [.node kind (b.children.drop first)]⟩

/-- The tree. -/
def finish (b : Builder) : Except Misuse Tree :=
  match b.parents, b.children with
  | [], [.node kind children] => .ok (.node kind children)
  | [], _ => .error .notOneNode
  | _ :: _, _ => .error .openNode

end Builder

/-- How a script ends that is run on a builder. -/
inductive Built (α : Type) where
  | ok (answer : α) (state : State) (builder : Builder)
  | stuck
  | broken (fault : Fault)
  | misused (misuse : Misuse)

namespace Built

variable {α β : Type}

/-- Goes on with the answer, the state and the builder, if there are any. -/
def andThen (o : Built α) (f : α → State → Builder → Built β) : Built β :=
  match o with
  | ok a s b => f a s b
  | stuck => stuck
  | broken fault => broken fault
  | misused misuse => misused misuse

/-- Goes on with what was done to a builder, unless it was misused. -/
def unlessMisused {γ : Type} (r : Except Misuse γ) (f : γ → Built β) : Built β :=
  match r with
  | .ok c => f c
  | .error misuse => misused misuse

/-- Performs a step, at most `n` times, as long as it answers `true`. -/
def iterate {σ : Type} (step : σ → State → Builder → Built (Bool × σ)) :
    Nat → σ → State → Builder → Built σ
  | 0, _, _, _ => .broken .endlessLoop
  | n + 1, x, s, b =>
    (step x s b).andThen fun r s b =>
      if r.1 then iterate step n r.2 s b else .ok r.2 s b

end Built

/-- An outcome with a builder that has these open nodes, and these trees before those that
    the run has collected. -/
def Outcome.on {α : Type} (parents : List (Kind × Nat)) (before : List Tree) :
    Outcome α → Built α
  | ok a s => .ok a s ⟨parents, before ++ s.output⟩
  | stuck => .stuck
  | broken fault => .broken fault

/-- The tokens that an operation adds. -/
def Op.collects (op : Op) (s : State) : List Lexeme :=
  match op with
  | .take => s.pending ++ s.rest.take 1
  | .keepTrivia => s.skipTrivia.pending
  | _ => []

/-- What an operation does, watched, on a builder. -/
def Op.build (setting : Setting) (op : Op) (s : State) (b : Builder) : Built op.Answer :=
  match op.watch setting s with
  | .ok a t => .ok a t (b.tokens (op.collects s))
  | .stuck => .stuck
  | .broken fault => .broken fault

/-- What is done to a builder at the start of a group, and the checkpoint for what encloses
    the trees of the group. -/
def Grouping.start (g : Grouping) (mark : Nat) (s : State) (b : Builder) :
    Except Misuse (Nat × Builder) :=
  match g with
  | .node kind =>
    let b := (b.tokens s.pending).startNode kind
    .ok (b.checkpoint, b)
  | .frame =>
    let b := b.tokens s.pending
    .ok (b.checkpoint, b)
  | .enclose kind => (b.startNodeAt mark kind).map fun b => (mark, b)

/-- What is done to a builder at the end of a group. -/
def Grouping.close (g : Grouping) (b : Builder) : Except Misuse Builder :=
  match g with
  | .frame => .ok b
  | .node _ | .enclose _ => b.finishNode

/-- What every production does on a builder that a script may refer to, if a node may be
    started at a checkpoint. -/
abbrev Producers := (p : Production) → Nat → State → Builder → Built p.Answer

/-- Runs a script on a builder, with an eye on it. A node may be started at the checkpoint
    `mark`, that of the innermost frame or node. -/
def Script.build (setting : Setting) (producers : Producers) {α : Type} :
    Script α → Nat → State → Builder → Built α
  | .done a, _, s, b => .ok a s b
  | .step op next, mark, s, b =>
    (op.build setting s b).andThen fun a s b => (next a).build setting producers mark s b
  | .group g body next, mark, s, b =>
    .unlessMisused (g.start mark s b) fun start =>
      (body.build setting producers start.1 (g.begin s) start.2).andThen fun a inner b =>
        .unlessMisused (g.close b) fun b => (next a).build setting producers mark (g.finish s inner) b
  | .loop body start next, mark, s, b =>
    (Built.iterate (fun x s b => ((body x).build setting producers mark s b).andThen fun r t b =>
        if r.1 && !s.furthers t then .broken .endlessLoop else .ok r t b)
      (s.rest.length + 2) start s b).andThen fun x s b => (next x).build setting producers mark s b
  | .invoke p next, mark, s, b =>
    (producers p mark s b).andThen fun a s b => (next a).build setting producers mark s b

/-- What a production does on a builder whose chains of references are shorter than `n`. -/
def buildProduction (setting : Setting) : Nat → Producers
  | 0, _, _, _, _ => .broken .endlessCalls
  | n + 1, p, mark, s, b => p.script.build setting (buildProduction setting n) mark s b

/-- Why there is no tree where a builder was used. -/
inductive BuildFailure where
  /-- The builder was not to blame. -/
  | parse (failure : ParseFailure)
  | misused (misuse : Misuse)

/-- What is made of a builder in the end, if the run has met no limit: a tree, with what was
    reported and counted. -/
def State.built (limits : Limits) (s : State) (b : Builder) : Except BuildFailure Parsed :=
  match s.result limits with
  | .error failure => .error (.parse failure)
  | .ok parsed =>
    match b.finish with
    | .error misuse => .error (.misused misuse)
    | .ok tree => .ok { parsed with tree := tree }

/-- Parses lexemes with a tree builder, with an eye on the run: the whole file is in a node
    of its own. -/
def buildLexemes (limits : Limits) (lexemes : List Lexeme) : Except BuildFailure Parsed :=
  let setting : Setting := ⟨limits.depth, Lexeme.widthOf lexemes⟩
  let producers := buildProduction setting (levels * (lexemes.length + 1))
  let root := Builder.empty.startNode .root
  match fileScript.build setting producers root.checkpoint (State.initial limits lexemes) root with
  | .ok _ s b =>
    match b.finishNode with
    | .error misuse => .error (.misused misuse)
    | .ok b => s.built limits b
  | .stuck => .error (.parse .stuck)
  | .broken fault => .error (.parse (.broken fault))
  | .misused misuse => .error (.misused misuse)

/-- Parses a source with a tree builder. -/
def buildWith (limits : Limits) (source : String) : Except BuildFailure Parsed :=
  buildLexemes limits (Syntax.lex source)

/-! ### The same trees -/

section

variable {setting : Setting} {producers : Producers} {watched : Productions}
variable {parents : List (Kind × Nat)} {before : List Tree}

theorem on_andThen {α β : Type} (o : Outcome α) {f : α → State → Outcome β}
    {f' : α → State → Builder → Built β} {inside : List (Kind × Nat)} {first : List Tree}
    (hf : ∀ a s, f' a s ⟨inside, first ++ s.output⟩ = (f a s).on parents before) :
    (o.on inside first).andThen f' = (o.andThen f).on parents before := by
  cases o with
  | ok a s => exact hf a s
  | stuck => rfl
  | broken fault => rfl

@[simp]
theorem output_reportAt (s : State) (offset : Nat) (d : Diagnostic) :
    (s.reportAt offset d).output = s.output := by
  unfold State.reportAt
  split <;> rfl

/-- Only where a token is taken or trivia is kept something is collected. -/
theorem output_run_eq {op : Op} (htake : op ≠ .take) (hkeep : op ≠ .keepTrivia) {s t : State}
    {a : op.Answer} (h : op.run setting s = .ok a t) : t.output = s.output := by
  cases acts_run h with
  | take => exact absurd rfl htake
  | keep => exact absurd rfl hkeep
  | report | semicolonBehind | semicolonAhead | unclosed => exact output_reportAt _ _ _
  | _ => rfl

/-- An operation adds what it collects. -/
theorem output_watch {op : Op} {s t : State} {a : op.Answer} (h : op.watch setting s = .ok a t) :
    t.output = s.output ++ (op.collects s).map .token := by
  cases op with
  | take =>
      rcases watch_take_ok h with ⟨l, ls, hrest, -, rfl⟩
      simp only [Op.collects, hrest, State.takeLexeme, State.flush, output_spend, pending_spend,
        List.take_succ_cons, List.take_zero, List.map_append, List.map_cons, List.map_nil,
        List.append_assoc]
  | keepTrivia =>
      cases h
      rfl
  | _ =>
      rw [output_run_eq (by simp) (by simp) (run_of_watch h)]
      exact (List.append_nil _).symm

theorem finishNode_append (kind : Kind) (trees : List Tree) :
    Builder.finishNode ⟨(kind, before.length) :: parents, before ++ trees⟩
      = .ok ⟨parents, before ++ [.node kind trees]⟩ := by
  have hlength : ¬(before ++ trees).length < before.length := by
    rw [List.length_append]
    omega
  simp only [Builder.finishNode, if_neg hlength, List.take_left', List.drop_left']

theorem startNodeAt_append (hparents : ∀ q ∈ parents.head?, q.2 ≤ before.length) (kind : Kind)
    (trees : List Tree) :
    Builder.startNodeAt ⟨parents, before ++ trees⟩ before.length kind
      = .ok ⟨(kind, before.length) :: parents, before ++ trees⟩ := by
  have hlength : ¬(before ++ trees).length < before.length := by
    rw [List.length_append]
    omega
  have hinner : ¬(parents.head?.any fun p => decide (before.length < p.2)) = true := by
    rw [Option.any_eq_true]
    rintro ⟨q, hq, hlt⟩
    have hle := hparents q hq
    have hlt := of_decide_eq_true hlt
    omega
  rw [Builder.startNodeAt, if_neg hlength, if_neg hinner]

theorem build_op (op : Op) (s : State) :
    op.build setting s ⟨parents, before ++ s.output⟩ = (op.watch setting s).on parents before := by
  rw [Op.build]
  cases hwatch : op.watch setting s with
  | ok a t => simp only [Outcome.on, Builder.tokens, output_watch hwatch, List.append_assoc]
  | stuck => rfl
  | broken fault => rfl

theorem build_iterate {σ : Type} {step : σ → State → Outcome (Bool × σ)}
    {step' : σ → State → Builder → Built (Bool × σ)}
    (hstep : ∀ x s, step' x s ⟨parents, before ++ s.output⟩ = (step x s).on parents before)
    (n : Nat) (x : σ) (s : State) :
    Built.iterate step' n x s ⟨parents, before ++ s.output⟩
      = (iterate step n x s).on parents before := by
  induction n generalizing x s with
  | zero => rfl
  | succ n ih =>
      rw [Built.iterate, hstep]
      refine on_andThen _ fun r t => ?_
      split
      · exact ih r.2 t
      · rfl

/-- Between its start and its end a group has its own trees behind those that were there. -/
theorem start_close (g : Grouping) (s : State)
    (hparents : ∀ q ∈ parents.head?, q.2 ≤ before.length) :
    ∃ inside first, g.start before.length s ⟨parents, before ++ s.output⟩
        = .ok (first.length, ⟨inside, first ++ (g.begin s).output⟩) ∧
      (∀ q ∈ inside.head?, q.2 ≤ first.length) ∧
      ∀ t : State, g.close ⟨inside, first ++ t.output⟩
        = .ok ⟨parents, before ++ (g.finish s t).output⟩ := by
  have hflush : (Builder.tokens ⟨parents, before ++ s.output⟩ s.pending)
      = ⟨parents, before ++ s.flush.output⟩ := by
    simp only [Builder.tokens, State.flush, List.append_assoc]
  cases g with
  | node kind =>
      refine ⟨(kind, (before ++ s.flush.output).length) :: parents, before ++ s.flush.output, ?_,
        ?_, fun t => ?_⟩
      · simp only [Grouping.start, hflush, Builder.startNode, Builder.checkpoint, Grouping.begin,
          List.append_nil]
      · intro q hq
        cases hq
        exact Nat.le_refl _
      · rw [Grouping.close, finishNode_append, Grouping.finish, List.append_assoc]
  | frame =>
      refine ⟨parents, before ++ s.flush.output, ?_, fun q hq => ?_, fun t => ?_⟩
      · simp only [Grouping.start, hflush, Builder.checkpoint, Grouping.begin, List.append_nil]
      · have hle := hparents q hq
        rw [List.length_append]
        omega
      · simp only [Grouping.close, Grouping.finish, List.append_assoc]
  | enclose kind =>
      refine ⟨(kind, before.length) :: parents, before, ?_, ?_, fun t => ?_⟩
      · simp only [Grouping.start, startNodeAt_append hparents, Grouping.begin, Except.map]
      · intro q hq
        cases hq
        exact Nat.le_refl _
      · simp only [Grouping.close, finishNode_append, Grouping.finish]

/-- A run on a builder ends as the watched run does, with the same trees, if the checkpoint
    lies before them and not before the first child of the innermost open node. -/
theorem build_eq
    (hp : ∀ (parents : List (Kind × Nat)) (before : List Tree) p s,
      (∀ q ∈ parents.head?, q.2 ≤ before.length) →
        producers p before.length s ⟨parents, before ++ s.output⟩
          = (watched p s).on parents before)
    {α : Type} (x : Script α) (s : State) (hparents : ∀ q ∈ parents.head?, q.2 ≤ before.length) :
    x.build setting producers before.length s ⟨parents, before ++ s.output⟩
      = (x.watch setting watched s).on parents before := by
  induction x generalizing s parents before with
  | done a => rfl
  | step op next ih =>
      rw [Script.build, build_op]
      exact on_andThen _ fun a t => ih a t hparents
  | group g body next ihBody ih =>
      rcases start_close g s hparents with ⟨inside, first, hstart, hinside, hclose⟩
      rw [Script.build, hstart, Built.unlessMisused, ihBody _ hinside]
      refine on_andThen _ fun b t => ?_
      rw [hclose, Built.unlessMisused]
      exact ih b _ hparents
  | loop body start next ihBody ih =>
      rw [Script.build, build_iterate (fun x s => ?_)]
      · exact on_andThen _ fun y t => ih y t hparents
      · rw [ihBody x s hparents]
        exact on_andThen _ fun r t => by
          rw [watchRound]
          split <;> rfl
  | invoke p next ih =>
      rw [Script.build, hp parents before p s hparents]
      exact on_andThen _ fun a t => ih a t hparents

theorem buildProduction_eq (n : Nat) (parents : List (Kind × Nat)) (before : List Tree)
    (p : Production) (s : State) (hparents : ∀ q ∈ parents.head?, q.2 ≤ before.length) :
    buildProduction setting n p before.length s ⟨parents, before ++ s.output⟩
      = (watchProduction setting n p s).on parents before := by
  induction n generalizing parents before p s with
  | zero => rfl
  | succ n ih => exact build_eq ih p.script s hparents

/-- The run of a whole file on a builder. -/
theorem buildFile_eq (limits : Limits) (lexemes : List Lexeme) :
    fileScript.build ⟨limits.depth, Lexeme.widthOf lexemes⟩
        (buildProduction ⟨limits.depth, Lexeme.widthOf lexemes⟩ (levels * (lexemes.length + 1))) 0
        (State.initial limits lexemes) ⟨[(.root, 0)], []⟩
      = (watchFile limits lexemes).on [(.root, 0)] [] := by
  have hroot : ∀ q ∈ [(Kind.root, 0)].head?, q.2 ≤ ([] : List Tree).length := by
    intro q hq
    cases hq
    exact Nat.le_refl _
  exact build_eq (buildProduction_eq _) fileScript (State.initial limits lexemes) hroot

/-- Parsing with a builder ends as the watched run does, and never with a builder that was
    misused. -/
theorem buildLexemes_eq (limits : Limits) (lexemes : List Lexeme) :
    buildLexemes limits lexemes
      = ((watchFile limits lexemes).result limits).mapError .parse := by
  simp only [buildLexemes, Builder.empty, Builder.startNode, Builder.checkpoint, List.length_nil,
    buildFile_eq]
  cases watchFile limits lexemes with
  | stuck => rfl
  | broken fault => rfl
  | ok a s =>
      have hfinish : Builder.finishNode ⟨[(.root, ([] : List Tree).length)], [] ++ s.output⟩
          = .ok ⟨[], [] ++ [.node .root s.output]⟩ := finishNode_append .root s.output
      simp only [Outcome.on, List.nil_append, List.length_nil] at hfinish ⊢
      simp only [hfinish, State.built, Outcome.result, State.result]
      cases s.lost <;> rfl

end

end Grammar

end Nominal
