import Nominal.Proofs.Derived.Rules
import Nominal.Proofs.Foreseen

/-!
# What a Reading Spells

How the words are followed that the trees of the current group spell, while a script is read.
`Place.Spells` says which words these may be, how many delimiters are open, and what is known
of the next token. `Leads` says how a reading gets from one such assertion to another, and
`Adds` is the common case of it: whatever was spelt before, words of a rule are added. There
is one theorem for each way in which scripts are put together.

A reading reports nothing. So wherever a production would report that something is missing,
the reading has no result and nothing is left to show, with one exception. That a delimiter is
never closed is not reported if no delimiter is open, and for this reason the open ones are
counted. What has been found out about the next token has to be kept as well, because some
productions take a token that their caller has looked at.

## Main definitions

* `Place.Spells`: What the trees of the current group spell.
* `Leads`: How a reading gets from one assertion about places to another.
* `Adds`: A script that adds words of a rule.
* `Production.rule`: What a production adds.
* `Obeyed`: The productions that are referred to add what they have to.

## Theorems

* `Adds.bind`: One script after another adds words of one rule after another.
* `Adds.node`, `Leads.enclose`: What is made a node has to spell a word of its rule.
* `Adds.repeatWhile`: A loop adds what its rounds add, in turn.
-/

namespace Nominal

namespace Grammar

open Syntax (Kind KindSet Lexeme Tree Phrase)
open Syntax.Phrase (just)
open scoped Computability

/-- The trees of the current group are derived and spell a word of `A`, `n` delimiters are
    open, and the next token is one of `S`, unless nothing is known of it. -/
structure Place.Spells (A : Language Kind) (n : Nat) (S : Set (Option Kind)) (p : Place) :
    Prop where
  derived : ∀ t ∈ p.output, t.IsDerived
  word : Tree.word p.output ∈ A
  pending : ∀ l ∈ p.pending, l.isTrivia = true
  opened : p.opened = n
  ahead : S = Set.univ ∨ p.IsSettled ∧ p.next? ∈ S

/-- A reading from a place with one property ends, if it ends, at a place with another. -/
def Leads (limit : Option Nat) (readers : Readers) {α : Type} (P : Place → Prop) (x : Script α)
    (Q : α → Place → Prop) : Prop :=
  ∀ (p q : Place) (a : α), P p → x.read limit readers p = some (a, q) → Q a q

/-- Words of a rule are added to what was spelt before, and `n` delimiters are open instead of
    `m`. The rule may depend on the answer. -/
def Adds (limit : Option Nat) (readers : Readers) (m n : Nat) (S : Set (Option Kind)) {α : Type}
    (x : Script α) (r : α → Phrase) : Prop :=
  ∀ A : Language Kind,
    Leads limit readers (Place.Spells A m S) x fun a => Place.Spells (A * (r a).words) n Set.univ

/-- What a production adds. -/
def Production.rule : Production → Phrase
  | .items _ => .any (.one Kind.items)
  | .member => .one Kind.members
  | .stmt => .stmt
  | .expr | .binary _ | .unary => .expr
  | .type => .type

/-- The productions that are referred to add what they have to, and that of types answers of
    which kind the type is. -/
structure Obeyed (limit : Option Nat) (readers : Readers) : Prop where
  adds (q : Production) (n : Nat) (S : Set (Option Kind)) :
    Adds limit readers n n S (Script.call q) fun _ => q.rule
  answers (p q : Place) (kind : Option Kind) : readers .type p = some (kind, q) → kind.isSome

namespace Place.Spells

variable {A B : Language Kind} {m n : Nat} {S T : Set (Option Kind)} {p : Place}

theorem mono (h : p.Spells A n S) (hA : A ≤ B) (hS : S ⊆ T) : p.Spells B n T where
  derived := h.derived
  word := hA h.word
  pending := h.pending
  opened := h.opened
  ahead := by
    rcases h.ahead with rfl | ⟨hsettled, hnext⟩
    · exact .inl (Set.univ_subset_iff.mp hS)
    · exact .inr ⟨hsettled, hS hnext⟩

/-- Forgets what is known of the next token. -/
theorem forget (h : p.Spells A n S) : p.Spells A n Set.univ := h.mono le_rfl (Set.subset_univ S)

/-- Setting trivia aside shows the next token. -/
theorem skip (h : p.Spells A n S) : p.skip.Spells A n (S ∩ {p.skip.next?}) where
  derived := h.derived
  word := h.word
  pending := by
    intro l hl
    rcases List.mem_append.mp hl with hl | hl
    · exact h.pending l hl
    · exact List.all_eq_true.mp List.all_takeWhile l hl
  opened := h.opened
  ahead := by
    refine .inr ⟨isSettled_skip p, ?_, rfl⟩
    rcases h.ahead with rfl | ⟨hsettled, hnext⟩
    · trivial
    · rw [hsettled.skip_eq]
      exact hnext

/-- Collecting trivia spells nothing. -/
theorem flush (h : p.Spells A n S) : p.flush.Spells A n S where
  derived := by
    intro t ht
    rcases List.mem_append.mp ht with ht | ht
    · exact h.derived t ht
    · rcases List.mem_map.mp ht with ⟨l, _, rfl⟩
      exact .token l
  word := by
    rw [Place.flush, Tree.word_append, Tree.word_map_token h.pending, List.append_nil]
    exact h.word
  pending := nofun
  opened := h.opened
  ahead := h.ahead

/-- At the start of a group nothing has been spelt. -/
theorem fresh (h : p.Spells A n S) : Place.Spells 1 n S { p.flush with output := [] } where
  derived := nofun
  word := rfl
  pending := nofun
  opened := h.opened
  ahead := h.ahead

/-- The trees of a place behind those of another. -/
theorem behind {q : Place} (h : p.Spells A m T) (hq : q.Spells B n S) :
    Place.Spells (A * B) n S { q with output := p.output ++ q.output } where
  derived := List.forall_mem_append.mpr ⟨h.derived, hq.derived⟩
  word := by
    rw [Tree.word_append]
    exact Language.append_mem_mul h.word hq.word
  pending := hq.pending
  opened := hq.opened
  ahead := hq.ahead

/-- The trees of a place as a node. -/
theorem wrap (h : p.Spells A n S) {k : Kind} (hA : A ≤ k.rule.words) (hk : k.isTrivia = false) :
    Place.Spells (just k).words n S { p with output := [.node k p.output] } where
  derived := by
    intro t ht
    rw [List.mem_singleton.mp ht]
    exact .node (hA h.word) h.derived
  word := by
    refine ⟨k, List.mem_singleton_self k, ?_⟩
    rw [Tree.word, List.map_singleton, Tree.kind, List.filter_singleton, hk]
    rfl
  pending := h.pending
  opened := h.opened
  ahead := h.ahead

end Place.Spells

namespace Leads

variable {limit : Option Nat} {readers : Readers} {α β : Type}
variable {P : Place → Prop} {Q : α → Place → Prop}
variable {A B : Language Kind} {m n : Nat} {S T : Set (Option Kind)}

theorem pre {P' : Place → Prop} {x : Script α} (h : Leads limit readers P x Q)
    (hP : ∀ p, P' p → P p) : Leads limit readers P' x Q :=
  fun p q a hp hx => h p q a (hP p hp) hx

theorem post {Q' : α → Place → Prop} {x : Script α} (h : Leads limit readers P x Q)
    (hQ : ∀ a p, Q a p → Q' a p) : Leads limit readers P x Q' :=
  fun p q a hp hx => hQ a q (h p q a hp hx)

/-- What spells words of one language spells words of any language around it. -/
theorem widen {x : Script α} (h : Leads limit readers P x fun _ => Place.Spells A n S)
    (hA : A ≤ B) : Leads limit readers P x fun _ => Place.Spells B n S :=
  h.post fun _ _ hp => hp.mono hA subset_rfl

theorem pure {a : α} (h : ∀ p, P p → Q a p) : Leads limit readers P (Pure.pure a) Q := by
  intro p q b hp hx
  cases hx
  exact h p hp

/-- A script that is over leaves what has been spelt. -/
theorem done {a : α} (hA : A ≤ B) :
    Leads limit readers (Place.Spells A n S) (Pure.pure a) fun _ => Place.Spells B n .univ :=
  pure fun _ hp => hp.forget.mono hA subset_rfl

theorem ite {c : Prop} [Decidable c] {x y : Script α} (hx : c → Leads limit readers P x Q)
    (hy : ¬c → Leads limit readers P y Q) : Leads limit readers P (if c then x else y) Q := by
  split
  · next h => exact hx h
  · next h => exact hy h

/-- Nothing has to be shown where no word can have been spelt. -/
theorem absurd {x : Script α} (hA : A ≤ 0) : Leads limit readers (Place.Spells A n S) x Q :=
  fun _ _ _ hp => (Language.notMem_zero _ (hA hp.word)).elim

/-- One script after another. -/
theorem bind {x : Script β} {f : β → Script α} {R : β → Place → Prop}
    (hx : Leads limit readers P x R) (hf : ∀ b, Leads limit readers (R b) (f b) Q) :
    Leads limit readers P (x >>= f) Q := by
  intro p q a hp h
  rcases read_bind_some h with ⟨b, r, hfirst, hnext⟩
  exact hf b r q a (hx p r b hp hfirst) hnext

theorem perform {op : Op} {Q : op.Answer → Place → Prop}
    (h : ∀ p q a, P p → op.read limit p = some (a, q) → Q a q) :
    Leads limit readers P (Script.perform op) Q := by
  intro p q a hp hx
  rw [read_perform] at hx
  exact h p q a hp hx

/-- A script that reports something has no reading. -/
theorem report (kind : Diagnostic.Kind) (detail : Option String) {Q : Unit → Place → Prop} :
    Leads limit readers P (Script.report kind detail) Q :=
  perform fun _ _ _ _ h => nomatch h

theorem reportBind {kind : Diagnostic.Kind} {detail : Option String} {f : Unit → Script α} :
    Leads limit readers P (Script.report kind detail >>= f) Q :=
  (report kind detail (Q := fun _ _ => False)).bind fun _ _ _ _ h => h.elim

/-! ### Asking for the next token -/

theorem look :
    Leads limit readers (Place.Spells A n S) Script.look fun o p => p.Spells A n (S ∩ {o}) :=
  perform fun p _ _ hp h => by
    cases h
    exact hp.skip

/-- What comes next is looked at before going on. -/
theorem lookBind {f : Option Kind → Script α}
    (hf : ∀ o, Leads limit readers (Place.Spells A n {o}) (f o) Q) :
    Leads limit readers (Place.Spells A n S) (Script.look >>= f) Q :=
  look.bind fun o => (hf o).pre fun _ hp => hp.mono le_rfl Set.inter_subset_right

/-- An answer that depends on nothing but the next token. -/
theorem asks (f : Option Kind → α) :
    Leads limit readers (Place.Spells A n S) (Script.look >>= fun o => Pure.pure (f o))
      fun a p => p.Spells A n {o | o ∈ S ∧ f o = a} := by
  refine look.bind fun o => pure fun p hp => hp.mono le_rfl ?_
  rintro o' ⟨ho, rfl⟩
  exact ⟨ho, rfl⟩

theorem isAt (k : Kind) : Leads limit readers (Place.Spells A n S) (Script.isAt k)
    fun b p => p.Spells A n {o | o ∈ S ∧ (o == some k) = b} :=
  asks fun o => o == some k

theorem isAtOneOf (ks : KindSet) : Leads limit readers (Place.Spells A n S) (Script.isAtOneOf ks)
    fun b p => p.Spells A n {o | o ∈ S ∧ o.any ks.contains = b} :=
  asks fun o => o.any ks.contains

theorem ahead (i : Nat) :
    Leads limit readers (Place.Spells A n S) (Script.ahead i) fun _ => Place.Spells A n S :=
  perform fun p _ _ hp h => by
    cases h
    exact hp.skip.mono le_rfl Set.inter_subset_left

theorem upcoming :
    Leads limit readers (Place.Spells A n S) Script.upcoming fun _ => Place.Spells A n S :=
  perform fun p _ _ hp h => by
    cases h
    exact hp.skip.mono le_rfl Set.inter_subset_left

theorem nextIs (k : Kind) :
    Leads limit readers (Place.Spells A n S) (Script.nextIs k) fun _ => Place.Spells A n S :=
  (ahead 1).bind fun _ => pure fun _ hp => hp

/-- A script that goes on in one of two ways. -/
theorem cond {x : Script Bool} {y z : Script α} {R : Bool → Place → Prop}
    (hx : Leads limit readers P x R) (hy : Leads limit readers (R true) y Q)
    (hz : Leads limit readers (R false) z Q) :
    Leads limit readers P (x >>= fun b => if b then y else z) Q :=
  hx.bind fun b => by
    cases b with
    | true => exact hy
    | false => exact hz

theorem ifAt {k : Kind} {x y : Script α} (hx : Leads limit readers (Place.Spells A n {some k}) x Q)
    (hy : Leads limit readers (Place.Spells A n {o | o ∈ S ∧ o ≠ some k}) y Q) :
    Leads limit readers (Place.Spells A n S) (Script.isAt k >>= fun b => if b then x else y) Q := by
  refine (isAt k).cond (hx.pre fun p hp => hp.mono le_rfl ?_) (hy.pre fun p hp => hp.mono le_rfl ?_)
  · exact fun o ho => eq_of_beq ho.2
  · exact fun o ho => ⟨ho.1, ne_of_beq_false ho.2⟩

/-- What a caller has seen to is known. -/
theorem requireBind {k : Kind} {f : Unit → Script α}
    (hf : Leads limit readers (Place.Spells A n {some k}) (f ()) Q) :
    Leads limit readers (Place.Spells A n S) (Script.perform (.require k) >>= f) Q := by
  refine Leads.bind (R := fun _ => Place.Spells A n {some k}) (perform fun p q _ hp h => ?_)
    fun _ => hf
  simp only [Op.read] at h
  split at h
  · next hk =>
      cases h
      refine hp.skip.mono le_rfl ?_
      rw [hk]
      exact Set.inter_subset_right
  · cases h

theorem isAtPair (j k : Kind) : Leads limit readers (Place.Spells A n S) (Script.isAtPair j k)
    fun b p => p.Spells A n {o | b = true → o = some j} := by
  refine (isAt j).cond ((nextIs k).post fun b p hp => hp.mono le_rfl ?_)
    (pure fun p hp => hp.mono le_rfl nofun)
  exact fun o ho _ => eq_of_beq ho.2

/-! ### Taking tokens -/

/-- The next token is taken, as one of the kinds that it may be of. -/
theorem take {ks : List Kind} (hS : ∀ o ∈ S, ∃ k ∈ ks, o = some k) :
    Leads limit readers (Place.Spells A n S) Script.take
      fun _ => Place.Spells (A * (Phrase.one ks).words) n Set.univ :=
  perform fun p q _ hp h => by
    simp only [Op.read] at h
    split at h
    · next l ls i hrest hfuel =>
        cases h
        rcases hp.ahead with rfl | ⟨hsettled, hnext⟩
        · rcases hS none trivial with ⟨k, _, hk⟩
          cases hk
        · rw [Place.next?, hrest] at hnext
          rcases hS _ hnext with ⟨k, hmem, hk⟩
          cases hk
          have hl : l.kind.isTrivia = false := hsettled l (by rw [hrest]; rfl)
          have hflush := hp.flush
          refine ⟨List.forall_mem_append.mpr ⟨hflush.derived, ?_⟩, ?_, List.forall_mem_nil _,
            hflush.opened, .inl rfl⟩
          · intro t ht
            rw [List.mem_singleton.mp ht]
            exact .token l
          · rw [Tree.word_append]
            refine Language.append_mem_mul hflush.word ⟨l.kind, hmem, ?_⟩
            rw [Tree.word, List.map_singleton, Tree.kind, List.filter_singleton, hl]
            rfl
    · cases h

theorem takeJust {k : Kind} : Leads limit readers (Place.Spells A n {some k}) Script.take
    fun _ => Place.Spells (A * (just k).words) n Set.univ :=
  take fun _ ho => ⟨k, List.mem_singleton_self k, ho⟩

/-! ### Groups and loops -/

/-- A group that is only a place to return to. -/
theorem frame {x : Script α} {B : α → Language Kind} {T : α → Set (Option Kind)}
    (hx : Leads limit readers (Place.Spells 1 m S) x fun a => Place.Spells (B a) n (T a)) :
    Leads limit readers (Place.Spells A m S) (Script.frame x)
      fun a => Place.Spells (A * B a) n (T a) := by
  intro p q a hp h
  rcases Option.bind_eq_some_iff.mp h with ⟨⟨b, t⟩, hbody, hdone⟩
  cases hdone
  exact hp.flush.behind (hx _ t b hp.fresh hbody)

/-- A group that wraps what was collected before it. -/
theorem enclose {x : Script α} {k : Kind}
    (hx : Leads limit readers (Place.Spells A m S) x fun _ => Place.Spells B n .univ)
    (hB : B ≤ k.rule.words) (hk : k.isTrivia = false) :
    Leads limit readers (Place.Spells A m S) (Script.enclose k x)
      fun _ => Place.Spells (just k).words n .univ := by
  intro p q a hp h
  rcases Option.bind_eq_some_iff.mp h with ⟨⟨b, t⟩, hbody, hdone⟩
  cases hdone
  exact (hx p t b hp hbody).wrap hB hk

/-- A loop keeps what each round keeps. -/
theorem loop {σ : Type} {body : σ → Script (Bool × σ)} {start : σ} {next : σ → Script α}
    (hbody : ∀ x, Leads limit readers P (body x) fun _ => P)
    (hnext : ∀ x, Leads limit readers P (next x) Q) :
    Leads limit readers P (.loop body start next) Q := by
  have hrounds : ∀ (i : Nat) (x y : σ) (p q : Place), P p →
      rounds (fun x p => (body x).read limit readers p) i x p = some (y, q) → P q := by
    intro i
    induction i with
    | zero => exact fun _ _ _ _ _ h => nomatch h
    | succ i ih =>
        intro x y p q hp h
        rcases Option.bind_eq_some_iff.mp h with ⟨⟨⟨again, z⟩, r⟩, hround, hrest⟩
        have hr := hbody x p r _ hp hround
        cases again with
        | true => exact ih z y r q hr hrest
        | false =>
            cases hrest
            exact hr
  intro p q a hp h
  rcases Option.bind_eq_some_iff.mp h with ⟨⟨y, r⟩, hloop, hrest⟩
  exact hnext y r q a (hrounds _ _ _ _ _ hp hloop) hrest

theorem repeatWhile {body : Script Bool} (hbody : Leads limit readers P body fun _ => P) :
    Leads limit readers P (Script.repeatWhile body) fun _ => P :=
  loop (fun _ => hbody.bind fun _ => pure fun _ hp => hp) fun _ => pure fun _ hp => hp

end Leads

namespace Adds

variable {limit : Option Nat} {readers : Readers} {α β : Type} {l m n : Nat}
variable {S T : Set (Option Kind)} {r s : α → Phrase}

theorem widen {x : Script α} (h : Adds limit readers m n S x r)
    (hrs : ∀ a, (r a).words ≤ (s a).words) : Adds limit readers m n S x s :=
  fun A => (h A).post fun a _ hp => hp.mono (mul_le_mul_right (hrs a) A) subset_rfl

/-- More may be known of the next token. -/
theorem knowing {x : Script α} (h : Adds limit readers m n T x r) (hST : S ⊆ T) :
    Adds limit readers m n S x r :=
  fun A => (h A).pre fun _ hp => hp.mono le_rfl hST

theorem done (a : α) : Adds limit readers n n S (pure a) fun _ => 1 :=
  fun A => .pure fun _ hp => hp.forget.mono (by rw [Syntax.Phrase.words_one, mul_one]) subset_rfl

theorem answer (b : Bool) :
    Adds limit readers n n S (pure b) fun c => if c = b then 1 else .never :=
  fun A => .pure fun _ hp => hp.forget.mono
    (le_of_eq (by simp only [if_true, Syntax.Phrase.words_one, mul_one])) subset_rfl

/-- One script after another adds words of one rule after another. -/
theorem bind {x : Script β} {f : β → Script α} {r : Phrase}
    (hx : Adds limit readers l m S x fun _ => r) (hf : ∀ b, Adds limit readers m n .univ (f b) s) :
    Adds limit readers l n S (x >>= f) fun a => r * s a := by
  refine fun A => (hx A).bind fun b => (hf b _).post fun a _ hp => ?_
  rwa [mul_assoc] at hp

theorem left {x : Script α} (h : Adds limit readers m n S x r) (s : α → Phrase) :
    Adds limit readers m n S x fun a => r a + s a :=
  h.widen fun _ _ hw => .inl hw

theorem right {x : Script α} (h : Adds limit readers m n S x s) (r : α → Phrase) :
    Adds limit readers m n S x fun a => r a + s a :=
  h.widen fun _ _ hw => .inr hw

theorem report (kind : Diagnostic.Kind) (detail : Option String) :
    Adds limit readers m n S (Script.report kind detail) fun _ => .never :=
  fun _ => .report kind detail

theorem reportBind {kind : Diagnostic.Kind} {detail : Option String} {f : Unit → Script α} :
    Adds limit readers m n S (Script.report kind detail >>= f) r :=
  fun _ => .reportBind

theorem reportAndTake (kind : Diagnostic.Kind) :
    Adds limit readers m n S (Script.reportAndTake kind) fun _ => .never :=
  reportBind

theorem recover (kind : Diagnostic.Kind) (recovery : KindSet) :
    Adds limit readers m n S (Script.recover kind recovery) fun _ => .never := by
  refine fun A => Leads.bind (R := fun _ _ => True) (fun _ _ _ _ _ => trivial) fun stops => ?_
  cases stops with
  | true => exact .report kind none
  | false => exact fun p q a _ h => nomatch h

/-! ### Asking and taking -/

/-- What comes next is looked at before going on. -/
theorem lookBind {f : Option Kind → Script α}
    (hf : ∀ o, Adds limit readers m n {o} (f o) r) :
    Adds limit readers m n S (Script.look >>= f) r :=
  fun A => .lookBind fun o => hf o A

/-- A script that goes on in one of two ways, with more known of the next token. -/
theorem cond {x : Script Bool} {y z : Script α} {R : Bool → Set (Option Kind)}
    (hx : ∀ A, Leads limit readers (Place.Spells A m S) x fun b => Place.Spells A m (R b))
    (hy : Adds limit readers m n (R true) y r) (hz : Adds limit readers m n (R false) z s) :
    Adds limit readers m n S (x >>= fun b => if b then y else z) fun a => r a + s a :=
  fun A => (hx A).cond (hy.left s A) (hz.right r A)

theorem ifAt {k : Kind} {x y : Script α} (hx : Adds limit readers m n {some k} x r)
    (hy : Adds limit readers m n {o | o ∈ S ∧ o ≠ some k} y s) :
    Adds limit readers m n S (Script.isAt k >>= fun b => if b then x else y)
      fun a => r a + s a :=
  fun A => .ifAt (hx.left s A) (hy.right r A)

theorem ifAtOneOf {ks : KindSet} {x y : Script α}
    (hx : Adds limit readers m n {o | o.any ks.contains} x r)
    (hy : Adds limit readers m n S y s) :
    Adds limit readers m n S (Script.isAtOneOf ks >>= fun b => if b then x else y)
      fun a => r a + s a :=
  cond (fun _ => .isAtOneOf ks) (hx.knowing fun _ ho => ho.2) (hy.knowing fun _ ho => ho.1)

theorem ifAtPair {j k : Kind} {x y : Script α} (hx : Adds limit readers m n {some j} x r)
    (hy : Adds limit readers m n .univ y s) :
    Adds limit readers m n S (Script.isAtPair j k >>= fun b => if b then x else y)
      fun a => r a + s a :=
  cond (fun _ => .isAtPair j k) (hx.knowing fun _ ho => ho rfl) (hy.knowing fun _ _ => trivial)

theorem requireBind {k : Kind} {f : Unit → Script α}
    (hf : Adds limit readers m n {some k} (f ()) r) :
    Adds limit readers m n S (Script.perform (.require k) >>= f) r :=
  fun A => .requireBind (hf A)

theorem takeJust {k : Kind} :
    Adds limit readers n n {some k} Script.take fun _ => just k :=
  fun _ => .takeJust

theorem take {ks : List Kind} (hS : ∀ o ∈ S, ∃ k ∈ ks, o = some k) :
    Adds limit readers n n S Script.take fun _ => .one ks :=
  fun _ => .take hS

theorem takeOf (ks : KindSet) :
    Adds limit readers n n {o | o.any ks.contains} Script.take fun _ => .one ks.toList :=
  take fun o ho => by
    cases o with
    | none => cases ho
    | some k => exact ⟨k, (KindSet.mem_toList ks k).mpr ho, rfl⟩

theorem eat (k : Kind) :
    Adds limit readers n n S (Script.eat k) fun b => if b then just k else 1 := by
  refine widen (ifAt (bind takeJust fun _ => answer true) (answer false)) fun b => ?_
  cases b <;> exact le_of_eq (by simp)

/-- A script that goes on in one of two ways, where both ways have been counted in already. -/
theorem branch {x : Script Bool} {f : Bool → Script α} {q : Bool → Phrase}
    (hx : Adds limit readers l m S x q) (ht : Adds limit readers m n .univ (f true) r)
    (hf : Adds limit readers m n .univ (f false) s) :
    Adds limit readers l n S (x >>= f) fun a => q true * r a + q false * s a := by
  refine fun A => (hx A).bind fun b => ?_
  cases b with
  | true =>
      refine (ht _).post fun a p hp => hp.mono ?_ subset_rfl
      exact le_of_eq_of_le (mul_assoc _ _ _) (mul_le_mul_right (fun _ hw => .inl hw) A)
  | false =>
      refine (hf _).post fun a p hp => hp.mono ?_ subset_rfl
      exact le_of_eq_of_le (mul_assoc _ _ _) (mul_le_mul_right (fun _ hw => .inr hw) A)

/-- Nothing has to be shown of an answer that is only given where something is reported. -/
theorem onlyIf {x : Script Bool} {f : Bool → Script α} {q : Phrase}
    (hx : Adds limit readers l m S x fun found => if found then q else .never)
    (hf : Adds limit readers m n .univ (f true) r) :
    Adds limit readers l n S (x >>= f) fun a => q * r a := by
  refine fun A => (hx A).bind fun found => ?_
  cases found with
  | true => exact (hf _).post fun a p hp => hp.mono (le_of_eq (mul_assoc _ _ _)) subset_rfl
  | false => exact .absurd (le_of_eq (mul_zero A))

theorem ifAnswer {x : Script Bool} {y z : Script α} {q : Bool → Phrase}
    (hx : Adds limit readers l m S x q) (hy : Adds limit readers m n .univ y r)
    (hz : Adds limit readers m n .univ z s) :
    Adds limit readers l n S (x >>= fun b => if b then y else z)
      fun a => q true * r a + q false * s a :=
  branch hx hy hz

/-- A token that may be there is taken before going on. -/
theorem ifEat {k : Kind} {x y : Script α} (hx : Adds limit readers m n .univ x r)
    (hy : Adds limit readers m n .univ y s) :
    Adds limit readers m n S (Script.eat k >>= fun b => if b then x else y)
      fun a => just k * r a + s a :=
  (ifAnswer (eat k) hx hy).widen fun _ => le_of_eq (by simp)

theorem expect (k : Kind) (what : String) :
    Adds limit readers n n S (Script.expect k what) fun _ => just k :=
  widen (ifEat (done _) (report _ _)) fun _ => le_of_eq (by simp)

theorem expectName (what : String) :
    Adds limit readers n n S (Script.expectName what)
      fun named => if named then just .id else .never := by
  refine widen (ifEat (answer true) (bind (report _ _) fun _ => answer false)) fun b => ?_
  cases b <;> exact le_of_eq (by simp)

theorem name (what : String) :
    Adds limit readers n n S (Script.expectName what) fun _ => just .id :=
  (expectName what).widen fun b => by cases b <;> simp

theorem reportSemicolon :
    Adds limit readers m n S (Script.perform .reportSemicolon) fun _ => .never :=
  fun _ => .perform fun _ _ _ _ h => nomatch h

theorem expectSemicolon :
    Adds limit readers n n S Script.expectSemicolon
      fun found => if found then just .semicolon else .never := by
  refine widen (ifEat (answer true) (bind reportSemicolon fun _ => answer false)) fun b => ?_
  cases b <;> exact le_of_eq (by simp)

theorem semicolon :
    Adds limit readers n n S Script.expectSemicolon fun _ => just .semicolon :=
  expectSemicolon.widen fun b => by cases b <;> simp

/-- What only finds something out adds nothing. -/
theorem asking {x : Script α} {R : α → Set (Option Kind)}
    (hx : ∀ A, Leads limit readers (Place.Spells A n S) x fun a => Place.Spells A n (R a)) :
    Adds limit readers n n S x fun _ => 1 :=
  fun A => (hx A).post fun _ _ hp =>
    hp.forget.mono (le_of_eq (mul_one A).symm) subset_rfl

/-- An operation that steps over trivia and does nothing else. -/
theorem skipping {op : Op} (h : ∀ p q a, op.read limit p = some (a, q) → q = p.skip) :
    Adds limit readers n n S (Script.perform op) fun _ => 1 :=
  asking fun _ => .perform fun p q a hp hop => by
    rw [h p q a hop]
    exact hp.skip.forget

theorem atEnd : Adds limit readers n n S Script.atEnd fun _ => 1 :=
  skipping fun _ _ _ h => by cases h; rfl

theorem word : Adds limit readers n n S Script.word fun _ => 1 :=
  skipping fun _ _ _ h => by cases h; rfl

theorem skipTrivia : Adds limit readers n n S (Script.perform .skipTrivia) fun _ => 1 :=
  skipping fun _ _ _ h => by cases h; rfl

theorem isAt (k : Kind) : Adds limit readers n n S (Script.isAt k) fun _ => 1 :=
  asking fun _ => .isAt k

theorem orElse {c : Prop} [Decidable c] {x y : Script α} (hx : c → Adds limit readers m n S x r)
    (hy : ¬c → Adds limit readers m n S y r) :
    Adds limit readers m n S (if c then x else y) r :=
  fun A => .ite (fun h => hx h A) fun h => hy h A

theorem isBefore (k : Kind) : Adds limit readers n n S (Script.isBefore k) fun _ => 1 := by
  have hnot : Adds limit readers n n .univ (Script.isAt k >>= fun b => pure !b) fun _ => 1 :=
    widen (bind (isAt k) fun b => done !b) fun _ => le_of_eq (by simp)
  exact widen (bind atEnd fun _ => orElse (fun _ => done false) fun _ => hnot)
    fun _ => le_of_eq (by simp)

/-! ### Delimiters and levels -/

theorem takeOpening {k : Kind} :
    Adds limit readers n (n + 1) {some k} Script.takeOpening fun _ => just k := by
  refine fun A => Leads.bind (R := fun _ => Place.Spells A (n + 1) {some k}) ?_ fun _ => takeJust A
  refine .perform fun p q _ hp h => ?_
  cases h
  have hskip := hp.skip.mono le_rfl Set.inter_subset_left
  exact ⟨hskip.derived, hskip.word, hskip.pending, congrArg (· + 1) hp.opened, hskip.ahead⟩

theorem expectClosing (k : Kind) (unclosed : Diagnostic.Kind) :
    Adds limit readers (n + 1) n S (Script.expectClosing k unclosed) fun _ => just k := by
  have hclose : Adds limit readers (n + 1) n .univ (Script.perform .closeDelimiter) fun _ => 1 := by
    refine fun A => .perform fun p q _ hp h => ?_
    cases h
    refine ⟨hp.derived, ?_, hp.pending, congrArg (· - 1) hp.opened, hp.ahead⟩
    rw [Phrase.words_one, mul_one]
    exact hp.word
  have hunclosed : Adds limit readers (n + 1) n .univ (Script.perform (.reportUnclosed unclosed))
      fun _ => .never := by
    -- A delimiter is open, so the report would be made.
    refine fun A => .perform fun p q _ hp h => ?_
    rw [Op.read, if_neg (by rw [hp.opened]; exact Nat.succ_ne_zero n)] at h
    cases h
  exact widen (ifEat hclose hunclosed) fun _ => le_of_eq (by simp)

/-- One level deeper the same is added. -/
theorem deeper {x : Script Unit} {r : Unit → Phrase} (hx : Adds limit readers m n S x r) :
    Adds limit readers m n S (Script.deeper x) r := by
  have henter : ∀ A, Leads limit readers (Place.Spells A m S) Script.enter
      fun deep p => deep = true ∧ p.Spells A m S := by
    refine fun A => .perform fun p q deep hp h => ?_
    simp only [Op.read] at h
    split at h
    · cases h
    · cases h
      exact ⟨rfl, hp.derived, hp.word, hp.pending, hp.opened, hp.ahead⟩
  have hleave : ∀ A, Leads limit readers (Place.Spells A n .univ) (Script.perform .leave)
      fun _ => Place.Spells A n .univ := by
    refine fun A => .perform fun p q _ hp h => ?_
    cases h
    exact ⟨hp.derived, hp.word, hp.pending, hp.opened, hp.ahead⟩
  refine fun A => (henter A).cond ?_ fun p q _ hp _ => absurd hp.1 Bool.false_ne_true
  exact ((hx A).pre fun _ hp => hp.2).bind fun _ => hleave _

/-! ### Groups -/

/-- A group that makes a node of its own has to spell a word of the rule of the node. -/
theorem node {x : Script α} {k : Kind} {r : α → Phrase} (hx : Adds limit readers m n S x r)
    (hr : ∀ a, (r a).words ≤ k.rule.words) (hk : k.isTrivia = false) :
    Adds limit readers m n S (Script.node k x) fun _ => just k := by
  intro A p q a hp h
  rcases Option.bind_eq_some_iff.mp h with ⟨⟨b, t⟩, hbody, hdone⟩
  cases hdone
  have ht := hx 1 _ t b hp.fresh hbody
  refine hp.flush.behind (ht.wrap ?_ hk)
  rw [one_mul]
  exact hr b

theorem frame {x : Script α} {r : α → Phrase}
    (hx : Leads limit readers (Place.Spells 1 m S) x fun a => Place.Spells (r a).words n .univ) :
    Adds limit readers m n S (Script.frame x) r :=
  fun _ => .frame hx

/-! ### Loops -/

/-- A loop adds what its rounds add, in turn. -/
theorem repeatWhile {body : Script Bool} {r : Bool → Phrase}
    (hbody : Adds limit readers n n .univ body r) :
    Adds limit readers n n S (Script.repeatWhile body) fun _ => .any (r true) * r false := by
  intro A p q a hp h
  have hrepeats := read_repeatWhile h
  clear h
  replace hp := hp.forget
  induction hrepeats generalizing A with
  | stop hstep =>
      refine (hbody A _ _ _ hp hstep).mono (mul_le_mul_right ?_ A) subset_rfl
      exact le_mul_of_one_le_left' one_le_kstar
  | again hstep _ ih =>
      refine (ih _ (hbody A _ _ _ hp hstep)).mono ?_ subset_rfl
      rw [mul_assoc]
      refine mul_le_mul_right ?_ A
      rw [Phrase.words_mul, ← mul_assoc]
      exact mul_le_mul_left mul_kstar_le_kstar _

theorem whileTrue {condition : Script Bool} {body : Script Unit} {r : Phrase}
    {R : Bool → Set (Option Kind)}
    (hcondition : ∀ A, Leads limit readers (Place.Spells A n .univ) condition
      fun b => Place.Spells A n (R b))
    (hbody : Adds limit readers n n (R true) body fun _ => r) :
    Adds limit readers n n S (Script.whileTrue condition body) fun _ => .any r := by
  refine widen (repeatWhile (cond hcondition (bind hbody fun _ => answer true) (answer false)))
    fun _ => le_of_eq ?_
  simp

end Adds

end Grammar

end Nominal
