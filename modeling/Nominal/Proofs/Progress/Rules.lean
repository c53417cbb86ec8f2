import Nominal.Proofs.Progress.Standing

/-!
# How Scripts Get On

That a watched run has no fault is shown script by script. `Proceeds` says of a script that
from states of one kind it gets to states of another without a fault, or is stuck; there is
one rule for each way in which scripts are put together.

A script that refers to a production counts on what that production does from states with
less to do, or from any state if the reference leads down the hierarchy of the grammar.
`Serves` says this of the productions, and the rules for loops hand it on to the rounds.

## Main definitions

* `Proceeds`: A script gets from states of one kind to states of another without a fault.
* `Production.level`, `Production.first`: Where a production stands in the hierarchy, and the
  tokens with which it is sure to get further.
* `Serves`: The productions that are referred to proceed from states with less to do.

## Theorems

* `Proceeds.bind`: One script after another.
* `Proceeds.take`: A token is taken where one is known to come next.
* `Proceeds.loop`: A loop of rounds that get further whenever they ask for another one.
* `Proceeds.recover`: Skipping tokens, at least one where the next one does not stop it.
* `Serves.call`: A reference to a production.
-/

namespace Nominal

namespace Grammar

open Syntax (Kind KindSet Lexeme Tree)

variable {setting : Setting} {watched : Productions}

/-- An outcome is an answer of one kind, or the run is stuck. -/
def Outcome.Meets {α : Type} (Q : α → State → Prop) : Outcome α → Prop
  | ok a s => Q a s
  | stuck => True
  | broken _ => False

theorem Outcome.Meets.mono {α : Type} {Q R : α → State → Prop} {o : Outcome α} (h : o.Meets Q)
    (hQ : ∀ a s, Q a s → R a s) : o.Meets R := by
  cases o with
  | ok a s => exact hQ a s h
  | stuck => trivial
  | broken fault => exact h

theorem Outcome.Meets.andThen {α β : Type} {Q : α → State → Prop} {R : β → State → Prop}
    {o : Outcome α} {f : α → State → Outcome β} (h : o.Meets Q)
    (hf : ∀ a s, Q a s → (f a s).Meets R) : (o.andThen f).Meets R := by
  cases o with
  | ok a s => exact hf a s h
  | stuck => trivial
  | broken fault => exact h

/-- A script gets from states of one kind to states of another without a fault, or is
    stuck. -/
def Proceeds (setting : Setting) (watched : Productions) {α : Type} (P : State → Prop)
    (x : Script α) (Q : α → State → Prop) : Prop :=
  ∀ s, P s → (x.watch setting watched s).Meets Q

/-- The level of a production in the hierarchy of the grammar. -/
def Production.level : Production → Nat
  | .items _ => 6
  | .member => 5
  | .stmt => 4
  | .expr => 3
  | .binary _ => 2
  | .unary => 1
  | .type => 0

theorem Production.level_lt (q : Production) : q.level < 8 := by
  cases q <;> simp only [Production.level, Nat.reduceLT]

/-- The tokens with which a production is sure to get further. -/
def Production.first : Production → Set (Option Kind)
  | .items _ => ∅
  | .member => {o | o ≠ none ∧ o ≠ some .braceClose}
  | .stmt => {o | o ≠ none}
  | .expr | .binary _ | .unary => {o | o.any KindSet.exprFirst.contains = true}
  | .type => {o | o = some .id ∨ o = some .predefinedType}

/-- Whether an answer says that the production has got further: a type has been read. -/
def Production.hasMoved : (q : Production) → q.Answer → Bool
  | .type, kind => kind.isSome
  | _, _ => false

/-- How far a script has got behind a production that it referred to. -/
def Pace.past (p : Pace) (q : Production) (a : q.Answer) : Pace :=
  if q.hasMoved a then .moved else p.on

/-- The productions that are referred to proceed from states with less than `N` to do, and
    those below a level also from states with `N` to do. -/
def Serves (setting : Setting) (N level : Nat) (watched : Productions) : Prop :=
  ∀ (q : Production) (M : Nat) (p : Pace) (S : Set (Option Kind)),
    (M < N ∨ M = N ∧ q.level < level) → (p = .live → S ⊆ q.first) →
      Proceeds setting watched (State.Stands setting M p S) (Script.call q)
        fun a => State.Stands setting M (p.past q a) Set.univ

/-- A script that has got so far may refer to productions of level `k` if it may refer to
    those below `level` from its start. -/
def Pace.Allows (p : Pace) (level k : Nat) : Prop := p = .moved ∨ k < level

theorem Pace.Allows.moved {level k : Nat} : Pace.moved.Allows level k := .inl rfl

theorem Pace.Allows.on {p : Pace} {level k : Nat} (h : p.Allows level k) : p.on.Allows level k := by
  rcases h with rfl | h
  · exact .inl rfl
  · exact .inr h

theorem Pace.Allows.rest {p : Pace} {level k : Nat} (h : p.Allows level k) :
    p.rest.Allows level k := by
  rcases h with rfl | h
  · exact .inl rfl
  · exact .inr h

namespace Proceeds

variable {α β : Type} {P : State → Prop} {Q : α → State → Prop}
variable {N level : Nat} {p r : Pace} {S T : Set (Option Kind)}

theorem pre {P' : State → Prop} {x : Script α} (h : Proceeds setting watched P x Q)
    (hP : ∀ s, P' s → P s) : Proceeds setting watched P' x Q :=
  fun s hs => h s (hP s hs)

theorem post {Q' : α → State → Prop} {x : Script α} (h : Proceeds setting watched P x Q)
    (hQ : ∀ a s, Q a s → Q' a s) : Proceeds setting watched P x Q' :=
  fun s hs => (h s hs).mono hQ

/-- More may be known of the next token than is asked for. -/
theorem knowing {x : Script α} (h : Proceeds setting watched (State.Stands setting N p T) x Q)
    (hS : S ⊆ T) : Proceeds setting watched (State.Stands setting N p S) x Q :=
  h.pre fun _ hs => hs.mono hS

theorem pure {a : α} (h : ∀ s, P s → Q a s) : Proceeds setting watched P (Pure.pure a) Q :=
  fun s hs => h s hs

/-- A script that is over has got as far as it had. -/
theorem done {a : α} :
    Proceeds setting watched (State.Stands setting N p S) (Pure.pure a)
      fun _ => State.Stands setting N p Set.univ :=
  pure fun _ hs => hs.forget

theorem ite {c : Prop} [Decidable c] {x y : Script α} (hx : c → Proceeds setting watched P x Q)
    (hy : ¬c → Proceeds setting watched P y Q) :
    Proceeds setting watched P (if c then x else y) Q := by
  split
  · next h => exact hx h
  · next h => exact hy h

/-- Nothing has to be shown where no token can come next. -/
theorem absurd {x : Script α} (hS : ∀ o, o ∉ S) :
    Proceeds setting watched (State.Stands setting N p S) x Q := by
  intro s hs
  rcases hs.ahead with rfl | ⟨_, hnext⟩
  · exact (hS none trivial).elim
  · exact (hS _ hnext).elim

/-- One script after another. -/
theorem bind {x : Script β} {f : β → Script α} {R : β → State → Prop}
    (hx : Proceeds setting watched P x R) (hf : ∀ b, Proceeds setting watched (R b) (f b) Q) :
    Proceeds setting watched P (x >>= f) Q := by
  intro s hs
  rw [watch_bind]
  exact (hx s hs).andThen fun b t ht => hf b t ht

theorem perform {op : Op} {Q : op.Answer → State → Prop}
    (h : ∀ s, P s → (op.watch setting s).Meets Q) :
    Proceeds setting watched P (Script.perform op) Q := by
  intro s hs
  rw [watch_perform]
  exact h s hs

/-! ### Asking for the next token -/

theorem look :
    Proceeds setting watched (State.Stands setting N p S) Script.look
      fun o => State.Stands setting N p (S ∩ {o}) :=
  perform fun s hs => by
    simp only [Op.watch, Op.run]
    split
    · trivial
    · exact hs.skip.of_eq rfl rfl rfl fun _ hd => hd

/-- What comes next is looked at before going on. -/
theorem lookBind {f : Option Kind → Script α}
    (hf : ∀ o ∈ S, Proceeds setting watched (State.Stands setting N p {o}) (f o) Q) :
    Proceeds setting watched (State.Stands setting N p S) (Script.look >>= f) Q := by
  refine look.bind fun o => ?_
  by_cases ho : o ∈ S
  · exact (hf o ho).knowing Set.inter_subset_right
  · refine absurd fun o' ho' => ?_
    rw [Set.mem_inter_iff, Set.mem_singleton_iff] at ho'
    exact ho (ho'.2 ▸ ho'.1)

/-- An answer that depends on nothing but the next token. -/
theorem asks (f : Option Kind → α) :
    Proceeds setting watched (State.Stands setting N p S)
      (Script.look >>= fun o => Pure.pure (f o))
      fun a => State.Stands setting N p {o | o ∈ S ∧ f o = a} := by
  refine look.bind fun o => pure fun s hs => hs.mono ?_
  rintro o' ⟨ho, rfl⟩
  exact ⟨ho, rfl⟩

theorem isAt (k : Kind) :
    Proceeds setting watched (State.Stands setting N p S) (Script.isAt k)
      fun b => State.Stands setting N p {o | o ∈ S ∧ (o == some k) = b} :=
  asks fun o => o == some k

theorem isAtOneOf (ks : KindSet) :
    Proceeds setting watched (State.Stands setting N p S) (Script.isAtOneOf ks)
      fun b => State.Stands setting N p {o | o ∈ S ∧ o.any ks.contains = b} :=
  asks fun o => o.any ks.contains

theorem ahead (n : Nat) :
    Proceeds setting watched (State.Stands setting N p S) (Script.ahead n)
      fun _ => State.Stands setting N p S :=
  perform fun _ hs => hs.skipTrivia

theorem nextIs (k : Kind) :
    Proceeds setting watched (State.Stands setting N p S) (Script.nextIs k)
      fun _ => State.Stands setting N p S :=
  (ahead 1).bind fun _ => pure fun _ hs => hs

theorem word :
    Proceeds setting watched (State.Stands setting N p S) Script.word
      fun _ => State.Stands setting N p S :=
  perform fun _ hs => hs.skipTrivia

/-- The first of the kinds to come is that of the next token. -/
theorem head?_upcoming (s : State) : s.skipTrivia.next? = s.skipTrivia.upcoming.head? := by
  have hsettled := isSettled_skipTrivia s
  rw [State.next?, State.upcoming]
  cases hrest : s.skipTrivia.rest with
  | nil => rfl
  | cons l ls =>
      have hl : l.isTrivia = false := hsettled l (by rw [hrest]; rfl)
      simp [hl]

theorem upcoming :
    Proceeds setting watched (State.Stands setting N p S) Script.upcoming
      fun ks => State.Stands setting N p (S ∩ {ks.head?}) :=
  perform fun s hs => by
    have hskip := hs.skip
    rw [head?_upcoming] at hskip
    exact hskip

/-- Where it is not the end, a token comes and the run is not lost. -/
theorem atEnd :
    Proceeds setting watched (State.Stands setting N p S) Script.atEnd
      fun b => if b then State.Stands setting N p {o | o ∈ S ∧ (p = .live → o = none)}
        else State.Stands setting N p.awake {o | o ∈ S ∧ o ≠ none} :=
  perform fun s hs => by
    have hskip := hs.skip
    have hnext : ∀ o, s.skipTrivia.rest.isEmpty = o → s.skipTrivia.next?.isNone = o := by
      intro o ho
      rw [← ho, State.next?]
      cases s.skipTrivia.rest <;> rfl
    simp only [Op.watch, Op.run, Outcome.Meets]
    cases hempty : s.skipTrivia.rest.isEmpty with
    | true =>
        refine hskip.mono ?_
        rintro o ⟨ho, rfl⟩
        exact ⟨ho, fun _ => Option.isNone_iff_eq_none.mp (hnext true hempty)⟩
    | false =>
        have hsome : s.skipTrivia.next? ≠ none := by
          intro hnone
          have := hnext false hempty
          rw [hnone] at this
          cases this
        cases hlost : s.skipTrivia.lost with
        | none =>
            have hawake : s.skipTrivia.Stands setting N p.awake (S ∩ {s.skipTrivia.next?}) := by
              refine ⟨hskip.sound, hskip.effort, ?_, hskip.ahead⟩
              cases p with
              | still => exact hlost
              | live => exact hlost
              | moved => exact hskip.pace
            refine hawake.mono ?_
            rintro o ⟨ho, rfl⟩
            exact ⟨ho, hsome⟩
        | some limit =>
            refine hskip.mono ?_
            rintro o ⟨ho, rfl⟩
            refine ⟨ho, fun hp => ?_⟩
            rw [hp] at hskip
            cases hlost.symm.trans hskip.pace

theorem exhausted :
    Proceeds setting watched (State.Stands setting N p S) Script.exhausted
      fun b => State.Stands setting N p {o | o ∈ S ∧ o.isNone = b} :=
  perform fun s hs => by
    refine hs.skip.mono ?_
    rintro o ⟨ho, rfl⟩
    refine ⟨ho, ?_⟩
    rw [State.next?]
    cases s.skipTrivia.rest <;> rfl

/-- A script that goes on in one of two ways. -/
theorem cond {x : Script Bool} {y z : Script α} {R : Bool → State → Prop}
    (hx : Proceeds setting watched P x R) (hy : Proceeds setting watched (R true) y Q)
    (hz : Proceeds setting watched (R false) z Q) :
    Proceeds setting watched P (x >>= fun b => if b then y else z) Q :=
  hx.bind fun b => by
    cases b with
    | true => exact hy
    | false => exact hz

theorem ifAt {k : Kind} {x y : Script α}
    (hx : some k ∈ S → Proceeds setting watched (State.Stands setting N p {some k}) x Q)
    (hy : Proceeds setting watched (State.Stands setting N p {o | o ∈ S ∧ o ≠ some k}) y Q) :
    Proceeds setting watched (State.Stands setting N p S)
      (Script.isAt k >>= fun b => if b then x else y) Q := by
  refine (isAt k).cond ?_ (hy.knowing fun o ho => ⟨ho.1, ne_of_beq_false ho.2⟩)
  by_cases hk : some k ∈ S
  · exact (hx hk).knowing fun o ho => eq_of_beq ho.2
  · refine absurd fun o ho => hk ?_
    rw [← eq_of_beq ho.2]
    exact ho.1

theorem ifAtOneOf {ks : KindSet} {x y : Script α}
    (hx : Proceeds setting watched
      (State.Stands setting N p {o | o ∈ S ∧ o.any ks.contains = true}) x Q)
    (hy : Proceeds setting watched
      (State.Stands setting N p {o | o ∈ S ∧ o.any ks.contains = false}) y Q) :
    Proceeds setting watched (State.Stands setting N p S)
      (Script.isAtOneOf ks >>= fun b => if b then x else y) Q :=
  (isAtOneOf ks).cond hx hy

theorem isAtPair (j k : Kind) :
    Proceeds setting watched (State.Stands setting N p S) (Script.isAtPair j k)
      fun b => State.Stands setting N p {o | o ∈ S ∧ (b = true → o = some j)} := by
  refine ifAt (fun hj => (nextIs k).post fun b s hs => hs.mono ?_)
    (pure fun s hs => hs.mono fun o ho => ⟨ho.1, nofun⟩)
  rintro o rfl
  exact ⟨hj, fun _ => rfl⟩

/-- Before the token that closes a list, there is a token and the run is not lost. -/
theorem isBefore (k : Kind) :
    Proceeds setting watched (State.Stands setting N p S) (Script.isBefore k)
      fun b => if b then State.Stands setting N p.awake {o | o ∈ S ∧ o ≠ none ∧ o ≠ some k}
        else State.Stands setting N p.rest Set.univ := by
  refine atEnd.cond (pure fun s hs => hs.rest.forget) ?_
  refine (isAt k).bind fun b => pure fun s hs => ?_
  cases b with
  | true =>
      have hrest := hs.rest.forget
      cases p <;> exact hrest
  | false => exact hs.mono fun o ho => ⟨ho.1.1, ho.1.2, ne_of_beq_false ho.2⟩

/-- A script that goes on in one way before the token that closes a list. -/
theorem ifBefore {k : Kind} {x y : Script α}
    (hx : Proceeds setting watched
      (State.Stands setting N p.awake {o | o ∈ S ∧ o ≠ none ∧ o ≠ some k}) x Q)
    (hy : Proceeds setting watched (State.Stands setting N p.rest Set.univ) y Q) :
    Proceeds setting watched (State.Stands setting N p S)
      (Script.isBefore k >>= fun b => if b then x else y) Q :=
  (isBefore k).cond hx hy

/-! ### Operations that leave the tokens where they are -/

theorem skipTrivia :
    Proceeds setting watched (State.Stands setting N p S) (Script.perform .skipTrivia)
      fun _ => State.Stands setting N p S :=
  perform fun _ hs => hs.skipTrivia

theorem require {k : Kind} (hS : ∀ o ∈ S, o = some k) :
    Proceeds setting watched (State.Stands setting N p S) (Script.perform (.require k))
      fun _ => State.Stands setting N p S :=
  perform fun s hs => by
    have hk : s.skipTrivia.next? = some k := by
      rcases hs.ahead with rfl | ⟨hsettled, hnext⟩
      · cases hS none trivial
      · rw [State.next?, hsettled.rest_skipTrivia]
        exact hS _ hnext
    simp only [Op.watch, Op.run]
    split
    · trivial
    · rw [if_pos hk]
      exact hs.skipTrivia.of_eq rfl rfl rfl fun _ hd => hd

theorem report (kind : Diagnostic.Kind) (detail : Option String) :
    Proceeds setting watched (State.Stands setting N p S) (Script.report kind detail)
      fun _ => State.Stands setting N p S :=
  perform fun s hs => by
    have hskip := hs.skipTrivia
    simp only [Op.watch, Op.run]
    rw [if_neg (Nat.not_lt.mpr hskip.sound.suppression)]
    exact hskip.reportAt _ _

theorem reportSemicolon :
    Proceeds setting watched (State.Stands setting N p S) (Script.perform .reportSemicolon)
      fun _ => State.Stands setting N p S :=
  perform fun s hs => by
    simp only [Op.watch, Op.run]
    split
    · exact hs.reportAt _ _
    · exact hs.skipTrivia.reportAt _ _

theorem openDelimiter :
    Proceeds setting watched (State.Stands setting N p S) (Script.perform .openDelimiter)
      fun _ => State.Stands setting N p S :=
  perform fun s hs => by
    have hskip := hs.skipTrivia
    refine ⟨⟨hskip.sound.length, ?_⟩, hskip.effort, ?_, hskip.ahead⟩
    · rw [List.forall_mem_cons]
      exact ⟨Nat.le_of_eq hskip.sound.nextSpan.1, hskip.sound.delimiters⟩
    · cases p with
      | still => trivial
      | live => exact hskip.pace
      | moved => exact hskip.pace

theorem closeDelimiter :
    Proceeds setting watched (State.Stands setting N p S) (Script.perform .closeDelimiter)
      fun _ => State.Stands setting N p S :=
  perform fun _ hs => hs.of_eq rfl rfl rfl fun _ hd => List.mem_of_mem_tail hd

theorem reportUnclosed (kind : Diagnostic.Kind) :
    Proceeds setting watched (State.Stands setting N p S) (Script.perform (.reportUnclosed kind))
      fun _ => State.Stands setting N p S :=
  perform fun s hs => by
    simp only [Op.watch, Op.run]
    split
    · exact hs
    · next opening delimiters hopen =>
        have hmem : ∀ d ∈ opening :: delimiters, d ∈ s.delimiters := fun d hd => hopen ▸ hd
        have hclosed : ({ s with delimiters := delimiters } : State).Stands setting N p S :=
          hs.of_eq rfl rfl rfl fun d hd => hmem d (List.mem_cons_of_mem opening hd)
        have hskip := hclosed.skipTrivia
        have hopening := hs.sound.delimiters opening (hmem opening List.mem_cons_self)
        have hnext := hskip.sound.nextSpan
        have hoffset : s.offset ≤ ({ s with delimiters := delimiters } : State).skipTrivia.offset :=
          Nat.le_add_right _ _
        rw [if_neg (by omega)]
        exact hskip.reportAt _ _

theorem leave :
    Proceeds setting watched (State.Stands setting N p S) (Script.perform .leave)
      fun _ => State.Stands setting N p S :=
  perform fun _ hs => hs.of_eq rfl rfl rfl fun _ hd => hd

/-- Who is running and meets the limit on the depth has less to do. -/
theorem enter :
    Proceeds setting watched (State.Stands setting N p S) Script.enter
      fun b => if b then State.Stands setting N p S else State.Stands setting N p.on Set.univ :=
  perform fun s hs => by
    simp only [Op.watch, Op.run]
    split
    · have hlost : ∀ lost : Option LimitError,
          (if (lost <|> some LimitError.depth).isNone then 1 else 0)
            ≤ (if lost.isNone then 1 else 0) := by
        intro lost
        cases lost <;> simp
      have heffort : ({ s with lost := s.lost <|> some .depth } : State).effort ≤ s.effort := by
        have hbit := hlost s.lost
        simp only [State.effort, State.tokensLeft, State.upcoming]
        omega
      refine ⟨hs.sound.of_eq rfl rfl fun _ hd => hd, heffort.trans hs.effort, ?_, .inl rfl⟩
      have hpace := hs.pace
      have htotal := hs.effort
      cases p with
      | still => trivial
      | live =>
          have hnone : s.lost = none := hpace
          simp only [Pace.on, Pace.Holds, State.effort, State.tokensLeft, State.upcoming, hnone,
            Option.isNone_none, if_true] at htotal ⊢
          exact htotal
      | moved => exact Nat.lt_of_le_of_lt heffort hpace
    · exact hs.of_eq rfl rfl rfl fun _ hd => hd

/-! ### Taking tokens -/

theorem none_notMem {k : Kind} : none ∉ ({some k} : Set (Option Kind)) := nofun

/-- A token is taken where one is known to come next. -/
theorem take (hS : none ∉ S) :
    Proceeds setting watched (State.Stands setting N p S) Script.take
      fun _ => State.Stands setting N .moved Set.univ :=
  perform fun s hs => by
    rcases hs.ahead with rfl | ⟨hsettled, hnext⟩
    · exact (hS trivial).elim
    · cases hrest : s.rest with
      | nil =>
          rw [State.next?, hrest] at hnext
          exact (hS hnext).elim
      | cons l ls =>
          have hl : l.isTrivia = false := hsettled l (by rw [hrest]; rfl)
          have hlt := Nat.lt_of_lt_of_le (effort_takeLexeme hrest hl) hs.effort
          have hoffset : (s.takeLexeme l ls).offset = s.offset + l.width :=
            congrArg (· + l.width) (offset_spend s)
          have hdelimiters : (s.takeLexeme l ls).delimiters = s.delimiters := delimiters_spend s
          have hlength := hs.sound.length
          rw [hrest, Lexeme.widthOf] at hlength
          simp only [Op.watch, Op.run, hrest, List.head?_cons, Option.any_some, hl,
            Bool.false_eq_true, if_false]
          refine ⟨⟨?_, ?_⟩, Nat.le_of_lt hlt, hlt, .inl rfl⟩
          · rw [hoffset]
            exact (Nat.add_assoc _ _ _).trans hlength
          · rw [hoffset, hdelimiters]
            exact fun d hd => Nat.le_add_right_of_le (hs.sound.delimiters d hd)

/-- Behind a token that is there for certain the script has got further. -/
theorem takeBind {f : Unit → Script α} (hS : none ∉ S)
    (hf : Proceeds setting watched (State.Stands setting N .moved Set.univ) (f ()) Q) :
    Proceeds setting watched (State.Stands setting N p S) (Script.take >>= f) Q :=
  (take hS).bind fun _ => hf

theorem eat (k : Kind) :
    Proceeds setting watched (State.Stands setting N p S) (Script.eat k)
      fun b => if b then State.Stands setting N .moved Set.univ
        else State.Stands setting N p {o | o ∈ S ∧ o ≠ some k} :=
  ifAt (fun _ => takeBind nofun (pure fun _ hs => hs)) (pure fun _ hs => hs)

theorem takeOpening (hS : none ∉ S) :
    Proceeds setting watched (State.Stands setting N p S) Script.takeOpening
      fun _ => State.Stands setting N .moved Set.univ :=
  openDelimiter.bind fun _ => take hS

/-- Whether a token is eaten or not, the script has got as far as it had. -/
theorem eatBind {k : Kind} {f : Bool → Script α}
    (hf : ∀ b, Proceeds setting watched (State.Stands setting N p.rest Set.univ) (f b) Q) :
    Proceeds setting watched (State.Stands setting N p S) (Script.eat k >>= f) Q := by
  refine (eat k).bind fun b => ?_
  cases b with
  | true => exact (hf true).pre fun _ hs => hs.rest_of_moved
  | false => exact (hf false).pre fun _ hs => hs.rest.forget

theorem expect (k : Kind) (what : String) :
    Proceeds setting watched (State.Stands setting N p S) (Script.expect k what)
      fun _ => State.Stands setting N p.rest Set.univ :=
  eatBind fun _ => ite (fun _ => done) fun _ => report _ _

/-- A name that is there has been taken. -/
theorem expectNamed (what : String) :
    Proceeds setting watched (State.Stands setting N p S) (Script.expectName what)
      fun named => State.Stands setting N (if named then .moved else p) Set.univ :=
  (eat .id).cond (pure fun _ h => h)
    ((report _ _).bind fun _ => pure fun _ h => h.forget)

theorem expectName (what : String) :
    Proceeds setting watched (State.Stands setting N p S) (Script.expectName what)
      fun _ => State.Stands setting N p.rest Set.univ :=
  (expectNamed what).post fun named s h => by
    cases named with
    | true => exact h.rest_of_moved
    | false => exact h.rest

theorem expectSemicolon :
    Proceeds setting watched (State.Stands setting N p S) Script.expectSemicolon
      fun _ => State.Stands setting N p.rest Set.univ :=
  eatBind fun _ => ite (fun _ => done) fun _ => reportSemicolon.bind fun _ => done

theorem expectClosing (k : Kind) (unclosed : Diagnostic.Kind) :
    Proceeds setting watched (State.Stands setting N p S) (Script.expectClosing k unclosed)
      fun _ => State.Stands setting N p.rest Set.univ :=
  eatBind fun _ => ite (fun _ => closeDelimiter) fun _ => reportUnclosed unclosed

/-! ### Groups -/

/-- A group gets as far as what is in it. -/
theorem group (g : Grouping) {x : Script α} {r : α → Pace} {T : α → Set (Option Kind)}
    (hx : Proceeds setting watched (State.Stands setting N p S) x
      fun a => State.Stands setting N (r a) (T a)) :
    Proceeds setting watched (State.Stands setting N p S) (.group g x .done)
      fun a => State.Stands setting N (r a) (T a) := by
  intro s hs
  refine (hx _ (hs.begin g)).andThen fun a t ht => ?_
  exact ht.finish g

theorem node (k : Kind) {x : Script α} {r : α → Pace} {T : α → Set (Option Kind)}
    (hx : Proceeds setting watched (State.Stands setting N p S) x
      fun a => State.Stands setting N (r a) (T a)) :
    Proceeds setting watched (State.Stands setting N p S) (Script.node k x)
      fun a => State.Stands setting N (r a) (T a) :=
  group (.node k) hx

theorem frame {x : Script α} {r : α → Pace} {T : α → Set (Option Kind)}
    (hx : Proceeds setting watched (State.Stands setting N p S) x
      fun a => State.Stands setting N (r a) (T a)) :
    Proceeds setting watched (State.Stands setting N p S) (Script.frame x)
      fun a => State.Stands setting N (r a) (T a) :=
  group .frame hx

theorem enclose (k : Kind) {x : Script α} {r : α → Pace} {T : α → Set (Option Kind)}
    (hx : Proceeds setting watched (State.Stands setting N p S) x
      fun a => State.Stands setting N (r a) (T a)) :
    Proceeds setting watched (State.Stands setting N p S) (Script.enclose k x)
      fun a => State.Stands setting N (r a) (T a) :=
  group (.enclose k) hx

/-- One level deeper a running script gets further, and so it does if that is too deep. -/
theorem deeper {x : Script Unit}
    (hx : Proceeds setting watched (State.Stands setting N p S) x
      fun _ => State.Stands setting N p.on Set.univ) :
    Proceeds setting watched (State.Stands setting N p S) (Script.deeper x)
      fun _ => State.Stands setting N p.on Set.univ :=
  enter.cond (hx.bind fun _ => leave) (node .error done)

/-! ### Loops -/

/-- Rounds that leave less to do whenever they ask for another one come to an end. -/
theorem iterate {σ : Type} {step : σ → State → Outcome (Bool × σ)} {I : State → Prop}
    (hstep : ∀ x s, I s → (step x s).Meets fun r t => I t ∧ (r.1 = true → t.effort < s.effort))
    {n : Nat} {x : σ} {s : State} (hs : I s) (hn : s.effort < n) :
    (Grammar.iterate step n x s).Meets fun _ t => I t := by
  induction n generalizing x s with
  | zero => exact (Nat.not_lt_zero _ hn).elim
  | succ n ih =>
      refine (hstep x s hs).andThen fun r t ht => ?_
      split
      · next hagain =>
          have hless := ht.2 hagain
          exact ih ht.1 (by omega)
      · exact ht.1

/-- A round that gets further whenever it asks for another one is no fault, and leaves less to
    do then. -/
theorem round {σ : Type} {body : Script (Bool × σ)} {s : State} {q : Pace}
    (hbody : Proceeds setting watched (State.Stands setting s.effort p S) body
      fun r => State.Stands setting s.effort (if r.1 then .moved else q) Set.univ)
    (hs : s.Stands setting s.effort p S) :
    ((body.watch setting watched s).andThen (watchRound s)).Meets fun r t =>
      t.Stands setting s.effort (if r.1 then .moved else q) Set.univ
        ∧ (r.1 = true → t.effort < s.effort) := by
  refine (hbody s hs).andThen fun r t ht => ?_
  have hless : r.1 = true → t.effort < s.effort := by
    intro hagain
    have hpace := ht.pace
    rw [if_pos hagain] at hpace
    exact hpace
  rw [watchRound, if_neg]
  · exact ⟨ht, hless⟩
  · rw [Bool.and_eq_true, Bool.not_eq_true']
    rintro ⟨hagain, hstays⟩
    rw [furthers_of_effort_lt (hless hagain)] at hstays
    cases hstays

theorem effort_lt (s : State) : s.effort < s.rest.length + 2 := by
  have htokens : s.tokensLeft ≤ s.rest.length := by
    rw [State.tokensLeft, State.upcoming, List.length_map]
    exact List.length_filter_le _ _
  rw [State.effort]
  split <;> omega

/-- A loop of rounds that get further whenever they ask for another one. What a round may
    count on is what there was to do when it was started: less than at the start of the
    script, if the script had got further before the loop. -/
theorem loop {σ : Type} {body : σ → Script (Bool × σ)} {start : σ} {next : σ → Script α}
    (hbody : ∀ M, (M < N ∨ M = N ∧ p ≠ .moved) → ∀ x,
      Proceeds setting watched (State.Stands setting M .still Set.univ) (body x)
        fun r => State.Stands setting M (if r.1 then .moved else .still) Set.univ)
    (hnext : ∀ x,
      Proceeds setting watched (State.Stands setting N p.rest Set.univ) (next x) Q) :
    Proceeds setting watched (State.Stands setting N p S) (.loop body start next) Q := by
  intro s hs
  have hround : ∀ x s, s.Stands setting N p.rest Set.univ →
      (((body x).watch setting watched s).andThen (watchRound s)).Meets
        fun r t => t.Stands setting N p.rest Set.univ ∧ (r.1 = true → t.effort < s.effort) := by
    intro x s hs
    have hM : s.effort < N ∨ s.effort = N ∧ p ≠ .moved := by
      rcases Nat.lt_or_eq_of_le hs.effort with hlt | heq
      · exact .inl hlt
      · refine .inr ⟨heq, ?_⟩
        rintro rfl
        have hmoved : s.effort < N := hs.pace
        omega
    refine (round (hbody s.effort hM x) (hs.still.fresh nofun)).mono fun r t ht => ⟨?_, ht.2⟩
    rw [← Pace.rest_rest]
    exact ht.1.since hs
  refine (iterate hround hs.rest.forget (effort_lt s)).andThen fun x t ht => ?_
  exact hnext x t ht

theorem repeatWhile {body : Script Bool}
    (hbody : ∀ M, (M < N ∨ M = N ∧ p ≠ .moved) →
      Proceeds setting watched (State.Stands setting M .still Set.univ) body
        fun b => State.Stands setting M (if b then .moved else .still) Set.univ) :
    Proceeds setting watched (State.Stands setting N p S) (Script.repeatWhile body)
      fun _ => State.Stands setting N p.rest Set.univ :=
  loop (fun M hM _ => (hbody M hM).bind fun _ => pure fun _ hs => hs) fun _ => pure fun _ hs => hs

/-- A loop gets further whose condition leads to a script that does. -/
theorem whileTrue {condition : Script Bool} {body : Script Unit} {R : Nat → Bool → State → Prop}
    (hcondition : ∀ M,
      Proceeds setting watched (State.Stands setting M .still Set.univ) condition (R M))
    (hbody : ∀ M, (M < N ∨ M = N ∧ p ≠ .moved) → Proceeds setting watched (R M true) body
      fun _ => State.Stands setting M .moved Set.univ)
    (hover : ∀ M s, R M false s → s.Stands setting M .still Set.univ) :
    Proceeds setting watched (State.Stands setting N p S) (Script.whileTrue condition body)
      fun _ => State.Stands setting N p.rest Set.univ :=
  repeatWhile fun M hM => (hcondition M).cond ((hbody M hM).bind fun _ => pure fun _ hs => hs)
    (pure (hover M))

/-- A loop gets further if its first round does. -/
theorem repeatWhile_first {body : Script Bool} (hp : p ≠ .moved)
    (hfirst : ∀ M, Proceeds setting watched (State.Stands setting M p S) body
      fun b => State.Stands setting M (if b then .moved else p.on) Set.univ)
    (hbody : ∀ M, Proceeds setting watched (State.Stands setting M .still Set.univ) body
      fun b => State.Stands setting M (if b then .moved else .still) Set.univ) :
    Proceeds setting watched (State.Stands setting N p S) (Script.repeatWhile body)
      fun _ => State.Stands setting N p.on Set.univ := by
  intro s hs
  have hanswer : ∀ {M : Nat} {q r : Pace} {T : Set (Option Kind)},
      Proceeds setting watched (State.Stands setting M q T) body
        (fun b => State.Stands setting M (if b then .moved else r) Set.univ) →
      Proceeds setting watched (State.Stands setting M q T)
        (body.andThen fun again => .done (again, ()))
        fun a => State.Stands setting M (if a.1 then .moved else r) Set.univ :=
    fun h => h.bind fun _ => pure fun _ ht => ht
  refine ((round (hanswer (hfirst s.effort)) (hs.fresh hp)).andThen fun r t ht => ?_).andThen
    (Q := fun _ => State.Stands setting s.effort p.on Set.univ) fun _ t ht => ht.widen hs.effort
  split
  · next hagain =>
      have hmoved := ht.1
      rw [if_pos hagain] at hmoved
      have hless := ht.2 hagain
      have hbound := effort_lt s
      refine (iterate (I := State.Stands setting s.effort .moved Set.univ) ?_ hmoved (by omega)).mono
        fun _ u hu => hu.on_of_moved
      intro _ u hu
      exact (round (hanswer (hbody u.effort)) (hu.still.fresh nofun)).mono fun _ v hv =>
        ⟨hv.1.since hu, hv.2⟩
  · next hover =>
      have hlast := ht.1
      rw [if_neg hover] at hlast
      exact hlast

/-! ### Mistakes -/

/-- A mistake is taken where a token is known to come next. -/
theorem reportAndTake (kind : Diagnostic.Kind) (hS : p = .live → none ∉ S) :
    Proceeds setting watched (State.Stands setting N p S) (Script.reportAndTake kind)
      fun _ => State.Stands setting N p.on Set.univ := by
  refine (report kind none).bind fun _ => exhausted.cond (pure fun s hs => ?_) ?_
  · -- There is no token left, so the script was not running or not at its start.
    cases p with
    | still => exact hs.forget
    | moved => exact hs.forget
    | live =>
        rcases hs.ahead with huniv | ⟨_, hnext⟩
        · exact (hS rfl (huniv.symm.subset trivial).1).elim
        · rw [Option.isNone_iff_eq_none.mp hnext.2] at hnext
          exact (hS rfl hnext.1).elim
  · exact node .error ((take fun h => nomatch h.2).post fun _ _ hs => hs.on_of_moved)

/-- Where tokens stop being skipped: at the recovery set, at the end, or in a lost run. -/
theorem stops {recovery : KindSet}
    (hS : p = .live → ∀ o ∈ S, o.any recovery.contains = false ∧ o ≠ none) :
    Proceeds setting watched (State.Stands setting N p S)
      (do if ← Script.isAtOneOf recovery then return true else Script.atEnd : Script Bool)
      fun b => if b then State.Stands setting N p.on Set.univ
        else State.Stands setting N p.awake {o | o ∈ S ∧ o ≠ none} := by
  have hlive : ∀ {s : State} {T : Set (Option Kind)}, (p = .live → ∀ o, o ∉ T) →
      s.Stands setting N p T → s.Stands setting N p.on Set.univ := by
    intro s T hT hs
    cases p with
    | still => exact hs.forget
    | moved => exact hs.forget
    | live =>
        rcases hs.ahead with rfl | ⟨_, hnext⟩
        · exact (hT rfl none trivial).elim
        · exact (hT rfl _ hnext).elim
  refine ifAtOneOf (pure fun s hs => hlive ?_ hs) (atEnd.post fun b s hs => ?_)
  · rintro hp o ⟨ho, hany⟩
    rw [(hS hp o ho).1] at hany
    cases hany
  · cases b with
    | true =>
        refine hlive ?_ hs
        rintro hp o ⟨⟨ho, _⟩, hnone⟩
        exact (hS hp o ho).2 (hnone hp)
    | false => exact hs.mono fun o ho => ⟨ho.1.1, ho.2⟩

/-- A round of skipping tokens. -/
theorem skipOne {recovery : KindSet} (hp : p ≠ .moved)
    (hS : p = .live → ∀ o ∈ S, o.any recovery.contains = false ∧ o ≠ none) :
    Proceeds setting watched (State.Stands setting N p S)
      (do
        if ← (do return !(← (do
            if ← Script.isAtOneOf recovery then return true else Script.atEnd : Script Bool)) :
            Script Bool) then
          Script.take
          return true
        else
          return false : Script Bool)
      fun b => State.Stands setting N (if b then .moved else p.on) Set.univ := by
  have hgoes : Proceeds setting watched (State.Stands setting N p S) (do
      return !(← (do if ← Script.isAtOneOf recovery then return true else Script.atEnd :
        Script Bool)) : Script Bool)
      fun b => if b then State.Stands setting N .live {o | o ∈ S ∧ o ≠ none}
        else State.Stands setting N p.on Set.univ := by
    refine (stops hS).bind fun b => pure fun s hs => ?_
    cases b with
    | true => exact hs
    | false =>
        cases p with
        | still => exact hs
        | live => exact hs
        | moved => exact (hp rfl).elim
  exact hgoes.cond (takeBind (fun h => h.2 rfl) (pure fun _ hs => hs)) (pure fun _ hs => hs)

/-- Tokens are skipped, at least one of them where the next one does not stop that. -/
theorem recover (kind : Diagnostic.Kind) {recovery : KindSet}
    (hS : p = .live → ∀ o ∈ S, o.any recovery.contains = false ∧ o ≠ none) :
    Proceeds setting watched (State.Stands setting N p S) (Script.recover kind recovery)
      fun _ => State.Stands setting N p.on Set.univ := by
  have hlater : ∀ M, Proceeds setting watched (State.Stands setting M .still Set.univ) _ _ :=
    fun M => skipOne nofun (nofun : Pace.still = .live →
      ∀ o ∈ (Set.univ : Set (Option Kind)), o.any recovery.contains = false ∧ o ≠ none)
  simp only [Script.recover]
  refine (stops hS).cond (report kind none) (node .error ((report kind none).bind fun _ => ?_))
  cases p with
  | still => exact repeatWhile fun M _ => hlater M
  | moved => exact repeatWhile fun M _ => hlater M
  | live =>
      refine repeatWhile_first nofun (fun M => skipOne nofun fun _ o ho => ?_) hlater
      exact hS rfl o ho.1

end Proceeds

namespace Serves

variable {α : Type} {Q : α → State → Prop}
variable {N M level k : Nat} {p : Pace} {S : Set (Option Kind)}

/-- What serves a script serves the rounds of its loops. -/
theorem inner (hs : Serves setting N level watched) (hp : p.Allows level k)
    (hM : M < N ∨ M = N ∧ p ≠ .moved) : Serves setting M (k + 1) watched := by
  intro q L r T hL hT
  refine hs q L r T ?_ hT
  rcases hM with hM | ⟨rfl, hmoved⟩
  · left
    omega
  · have hk : k < level := hp.resolve_left hmoved
    rcases hL with hL | ⟨rfl, hL⟩
    · exact .inl hL
    · exact .inr ⟨rfl, by omega⟩

/-- A reference to a production, which gets further from one of the tokens that it is sure
    to start with. -/
theorem call (hs : Serves setting N level watched) (q : Production) (hp : p.Allows level q.level)
    (hS : p = .live → S ⊆ q.first) :
    Proceeds setting watched (State.Stands setting N p S) (Script.call q)
      fun a => State.Stands setting N (p.past q a) Set.univ := by
  rcases hp with rfl | hlevel
  · intro s hstands
    have hpace : s.effort < N := hstands.pace
    refine (hs q s.effort .still S (.inl hpace) nofun s (hstands.still.fresh nofun)).mono
      fun a t ht => ?_
    have hlate := ht.since hstands
    rw [Pace.past]
    split
    · exact hlate
    · exact hlate
  · exact hs q N p S (.inr ⟨rfl, hlevel⟩) hS

/-- A reference to a production that gets further. -/
theorem callOn (hs : Serves setting N level watched) (q : Production) (hp : p.Allows level q.level)
    (hS : p = .live → S ⊆ q.first) :
    Proceeds setting watched (State.Stands setting N p S) (Script.call q)
      fun _ => State.Stands setting N p.on Set.univ := by
  refine (hs.call q hp hS).post fun a s h => ?_
  rw [Pace.past] at h
  split at h
  · exact h.on_of_moved
  · exact h

/-- A reference to a production where nothing is known of the next token. -/
theorem callRest (hs : Serves setting N level watched) (q : Production)
    (hp : p.Allows level q.level) :
    Proceeds setting watched (State.Stands setting N p S) (Script.call q)
      fun _ => State.Stands setting N p.rest Set.univ := by
  rw [← Pace.on_rest]
  exact (hs.callOn q hp.rest fun hlive => (Pace.rest_ne_live p hlive).elim).pre fun _ h => h.rest

/-- A type is read, or the script has got as far as it had. -/
theorem callType (hs : Serves setting N level watched) (hp : p.Allows level 0) :
    Proceeds setting watched (State.Stands setting N p S) (Script.call .type)
      fun kind => State.Stands setting N (if kind.isSome then .moved else p.rest) Set.univ := by
  rw [← Pace.on_rest]
  exact (hs.call .type hp.rest fun hlive => (Pace.rest_ne_live p hlive).elim).pre fun _ h => h.rest

end Serves

end Grammar

end Nominal
