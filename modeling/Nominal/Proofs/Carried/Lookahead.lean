import Nominal.Proofs.Foreseen
import Nominal.Grammar.Statements

/-!
# Carrying Over What Depends on Looking Ahead

A script that looks further ahead than to the next token goes on by what it has seen. Such a
script is carried over together with what follows it, since the answer behind the extraction
may have to be found out from what is read there afterwards.

## Main definitions

* `FollowsAt`: A script can be carried over from places of some sort.

## Theorems

* `Follows.asking`: A question about the kinds to come and what follows the answer.
* `Follows.isAtPair`, `Follows.look_nextIs`: Looking at two tokens.
* `Follows.ifCast`, `Follows.ifLambda`, `Follows.ifLocal`: The three questions of the grammar.
-/

namespace Nominal

open Syntax (Kind KindSet Lexeme Tree)

namespace Grammar

open Script

/-! ### What the questions read -/

section Questions

variable {limit : Option Nat} {readers : Readers}

theorem nextIs_read (k : Kind) (p : Place) :
    (nextIs k).read limit readers p = some (p.upcoming.tail.head? == some k, p.skip) := by
  have hnext : (nextIs k).read limit readers p
      = some (State.nth? 1 p.skip.rest == some k, p.skip) := rfl
  rw [hnext, nth?_one, ← upcoming_skip p]
  rfl

theorem look_read (p : Place) :
    look.read limit readers p = some (p.upcoming.head?, p.skip) := by
  rw [← next?_skip]
  rfl

theorem isAt_read (k : Kind) (p : Place) :
    (isAt k).read limit readers p = some (p.upcoming.head? == some k, p.skip) := by
  rw [isAt, read_bind, look_read]
  rfl

theorem upcoming_read (p : Place) :
    Script.upcoming.read limit readers p = some (p.upcoming, p.skip) := by
  rw [← upcoming_skip]
  rfl

/-- Whether the kinds start with two given ones. -/
def startWith (j k : Kind) (ks : List Kind) : Bool :=
  if ks.head? == some j then ks.tail.head? == some k else false

theorem isAtPair_read (j k : Kind) (p : Place) :
    (isAtPair j k).read limit readers p = some (startWith j k p.upcoming, p.skip) := by
  rw [isAtPair, read_bind, isAt_read, Option.bind_some, startWith]
  dsimp only
  split
  · rw [nextIs_read, upcoming_skip, skip_skip]
  · rfl

theorem isCast_of_head? {ks : List Kind} (h : ks.head? ≠ some .parenOpen) : isCast ks = false := by
  rw [isCast]
  rintro js rfl
  exact h rfl

theorem isAtCast_read (p : Place) :
    isAtCast.read limit readers p = some (isCast p.upcoming, p.skip) := by
  rw [isAtCast, read_bind, isAt_read, Option.bind_some]
  dsimp only
  split
  · rw [read_bind, upcoming_read, upcoming_skip, skip_skip]
    rfl
  · next hhead =>
      rw [isCast_of_head? fun h => hhead (beq_iff_eq.mpr h)]
      rfl

theorem isLambda_of_head? {ks : List Kind} (h : ks.head? ≠ some .id)
    (h' : ks.head? ≠ some .parenOpen) : isLambda ks = false := by
  rw [isLambda]
  · rintro k js rfl
    exact h rfl
  · rintro js rfl
    exact h' rfl

theorem isAtLambda_read (p : Place) :
    isAtLambda.read limit readers p = some (isLambda p.upcoming, p.skip) := by
  have hask : ((do return isLambda (← Script.upcoming) : Script Bool)).read limit readers p.skip
      = some (isLambda p.upcoming, p.skip) := by
    rw [read_bind, upcoming_read, upcoming_skip, skip_skip]
    rfl
  rw [isAtLambda, read_bind, look_read, Option.bind_some]
  dsimp only
  split
  · exact hask
  · exact hask
  · next hid hparen =>
      rw [isLambda_of_head? hid hparen]
      rfl

theorem isAtLocalDeclaration_read (p : Place) :
    isAtLocalDeclaration.read limit readers p = some (declaresLocal p.upcoming, p.skip) := by
  rw [isAtLocalDeclaration, read_bind, look_read, Option.bind_some, read_bind, upcoming_read,
    upcoming_skip, skip_skip]
  rfl

end Questions

/-! ### What is taken -/

/-- The place behind a lexeme that was taken. -/
def Place.taken (p : Place) (l : Lexeme) (ls : List Lexeme) (n : Nat) : Place :=
  { p.flush with rest := ls, output := p.flush.output ++ [.token l], fuel := n }

section Taking

variable {limit : Option Nat} {readers : Readers}

theorem read_take_iff {p q : Place} {u : Unit} :
    take.read limit readers p = some (u, q) ↔
      ∃ l ls n, p.rest = l :: ls ∧ p.fuel = n + 1 ∧ q = p.taken l ls n := by
  rw [take, read_perform, Op.read]
  constructor
  · intro h
    split at h
    · next l ls n hrest hfuel =>
        cases h
        exact ⟨l, ls, n, hrest, hfuel, rfl⟩
    · cases h
  · rintro ⟨l, ls, n, hrest, hfuel, rfl⟩
    rw [hrest, hfuel]
    rfl

theorem eat_read (k : Kind) (p : Place) :
    (eat k).read limit readers p =
      if p.upcoming.head? = some k then (take.read limit readers p.skip).map fun r => (true, r.2)
      else some (false, p.skip) := by
  rw [eat, read_bind, isAt_read, Option.bind_some]
  dsimp only
  by_cases hhead : p.upcoming.head? = some k
  · rw [hhead, beq_self_eq_true, if_pos rfl, if_pos rfl, read_bind]
    cases take.read limit readers p.skip <;> rfl
  · rw [if_neg fun h => hhead (eq_of_beq h), if_neg hhead]
    rfl

theorem isBefore_read (k : Kind) (p : Place) :
    (isBefore k).read limit readers p = some (p.upcoming.head?.any (· != k), p.skip) := by
  have hatEnd : Script.atEnd.read limit readers p = some (p.skip.rest.isEmpty, p.skip) := rfl
  rw [isBefore, read_bind, hatEnd, Option.bind_some]
  dsimp only
  split
  · next hempty =>
      have hnone : p.upcoming.head? = none := by
        rw [← next?_skip, Place.next?, List.isEmpty_iff.mp hempty]
        rfl
      rw [hnone]
      rfl
  · next hsome =>
      rw [read_bind, isAt_read, Option.bind_some, upcoming_skip, skip_skip]
      cases hhead : p.upcoming.head? with
      | none =>
          rw [← next?_skip, Place.next?, Option.map_eq_none_iff, List.head?_eq_none_iff] at hhead
          exact absurd (List.isEmpty_iff.mpr hhead) hsome
      | some j =>
          rw [read_pure, Option.any_some, Option.some_beq_some]
          rfl

end Taking

/-- A token is eaten in both readings or in none. The lexemes behind it may correspond in a way
    of their own. -/
theorem Retraces.eat {c : Course} {i : Nat} {k : Kind} {R : LexemeRelation} {O : TreeRelation}
    (hO : Peels O)
    (hR : ∀ {l : Lexeme} {ls ms : List Lexeme}, l.kind = k → R ls ms →
      Spliced c.edit (l :: ls) (l :: ms)) :
    Retraces i i (c.Linked O) (fun eaten => if eaten then c.LinkedBy R O else c.Linked O)
      ((Script.eat k).read c.limit c.before) ((Script.eat k).read c.limit c.behind) := by
  intro t q eaten hi h
  rw [eat_read] at h
  split at h
  · next hnext =>
      rcases Option.map_eq_some_iff.mp h with ⟨⟨u, r⟩, htake, hdone⟩
      cases hdone
      rcases read_take_iff.mp htake with ⟨l, ls, n, hrest, hfuel, rfl⟩
      refine ⟨rfl, fun q' hq => ?_⟩
      have hl : l.kind = k := by
        rw [← next?_skip, Place.next?, hrest] at hnext
        exact Option.some.inj hnext
      have hback := Course.LinkedBy.untake (R := Spliced c.edit) hO (fun ms hms => hR hl hms) hrest
        hfuel hq
      rcases hback with ⟨s', hs, hrest', hfuel', hq'⟩
      rcases Course.Linked.unskip hs with ⟨t', ht, rfl⟩
      refine ⟨t', ht, ?_⟩
      have hnext' : t'.upcoming.head? = some k := by
        rw [← next?_skip, Place.next?, hrest']
        exact congrArg some hl
      rw [eat_read, if_pos hnext', read_take_iff (u := ()) |>.mpr ⟨l, _, _, hrest', hfuel', rfl⟩]
      rw [Place.taken, hq']
      rfl
  · next hnext =>
      cases h
      refine ⟨rfl, fun q' hq => ?_⟩
      rcases Course.Linked.unskip hq with ⟨t', ht, rfl⟩
      refine ⟨t', ht, ?_⟩
      have hhead : t'.upcoming.head? = t.upcoming.head? := ht.rest.foretold.head
      rw [eat_read, hhead, if_neg hnext]

/-! ### Names in parentheses -/

section Names

variable {limit : Option Nat} {readers : Readers}

/-- A parameter of a lambda is a name; a comma says that there are more. -/
theorem read_lambdaParamItem {p q : Place} {again : Bool}
    (h : lambdaParamItem.read limit readers p = some (again, q)) :
    (again = true ∧ p.upcoming = .id :: .comma :: q.upcoming) ∨
      (again = false ∧ (p.upcoming = q.upcoming ∨ p.upcoming = .id :: q.upcoming)) := by
  rcases read_bind_some h with ⟨b, r, hisAt, h⟩
  rcases read_isAt hisAt with ⟨hb, rfl⟩
  cases b with
  | false =>
      cases h
      exact .inr ⟨rfl, .inl (upcoming_skip p).symm⟩
  | true =>
      rcases List.head?_eq_some_iff.mp (eq_of_beq hb.symm) with ⟨ks, hks⟩
      rcases read_bind_some h with ⟨_, r, hparam, heat⟩
      rcases read_group hparam with ⟨s, t, htake, hs, hr⟩
      rcases read_take ((isSettled_skip p).of_rest hs) htake with ⟨k, hk⟩
      rw [upcoming_of_rest hs, upcoming_skip, hks, List.cons.injEq, ← upcoming_of_rest hr] at hk
      rw [hks, hk.2]
      rcases read_eat heat with ⟨rfl, hcomma⟩ | ⟨rfl, _, rfl⟩
      · exact .inl ⟨rfl, by rw [hcomma]⟩
      · exact .inr ⟨rfl, .inr (by rw [upcoming_skip])⟩

/-- The parameters of a lambda are names. -/
theorem names_lambdaParams {p q : Place} {u : Unit} (hp : p.IsSettled)
    (h : lambdaParams.read limit readers p = some (u, q)) {ks : List Kind}
    (hks : p.upcoming = .parenOpen :: ks) : Names ks := by
  rcases read_group h with ⟨p', q', hbody, hrest, _⟩
  have hp' : p'.IsSettled := hp.of_rest hrest
  rw [← upcoming_of_rest hrest] at hks
  rcases read_bind_some hbody with ⟨b, r, hisAt, hbody⟩
  rcases read_isAt hisAt with ⟨rfl, rfl⟩
  rw [hks] at hbody
  rcases read_bind_some hbody with ⟨_, r, htake, hbody⟩
  rcases read_take (isSettled_skip p') htake with ⟨k, hk⟩
  rw [upcoming_skip, hks, List.cons.injEq] at hk
  rcases read_bind_some hbody with ⟨_, t, hloop, hexpect⟩
  have hclose := read_expect hexpect
  rw [hk.2]
  clear hk htake hbody hexpect
  have hrepeats := read_repeatWhile hloop
  clear hloop
  induction hrepeats with
  | @stop r t hstep =>
      rcases read_lambdaParamItem hstep with ⟨hb, _⟩ | ⟨_, hr | hr⟩
      · cases hb
      · rw [hr, hclose]
        exact .close _
      · rw [hr, hclose]
        exact .last _
  | @again r t w hstep _ ih =>
      rcases read_lambdaParamItem hstep with ⟨_, hr⟩ | ⟨hb, _⟩
      · rw [hr]
        exact .more (ih hclose)
      · cases hb

end Names

namespace Follows

variable {c : Course} {α β : Type} {i j : Nat} {M : Place → Place → Prop} {O : TreeRelation}

/-- A question about the kinds to come and what follows the answer, if both readings find
    the same answer. -/
theorem asking {x : Script β} {f : β → Script α} (answer : List Kind → β)
    (hx : ∀ readers p, x.read c.limit readers p = some (answer p.upcoming, p.skip))
    (hf : ∀ b, Follows c i j (c.Linked O) M (f b))
    (hanswer : ∀ {p p' : Place} {q q' : α × Place}, p.IsSettled → p'.IsSettled → c.Linked O p p' →
      (f (answer p.upcoming)).read c.limit c.before p = some q →
      (f (answer p.upcoming)).read c.limit c.behind p' = some q' →
      answer p'.upcoming = answer p.upcoming) :
    Follows c i j (c.Linked O) M (x >>= f) := by
  intro p q a hi h
  rw [read_bind, hx, Option.bind_some] at h
  rcases hf _ p.skip q a hi h with ⟨hopened, hback⟩
  refine ⟨hopened, fun q' hq => ?_⟩
  rcases hback q' hq with ⟨r', hr, hread⟩
  rcases Course.Linked.unskip hr with ⟨p', hp, rfl⟩
  refine ⟨p', hp, ?_⟩
  have hsame := hanswer (isSettled_skip p) (isSettled_skip p') hr
    (by rw [upcoming_skip]; exact h) (by rw [upcoming_skip]; exact hread)
  rw [upcoming_skip, upcoming_skip] at hsame
  rw [read_bind, hx, Option.bind_some, hsame]
  exact hread

/-- Behind a token of most kinds the same token comes next in both readings. -/
theorem head?_tail_eq {p p' : Place} {k : Kind} (h : c.Linked O p p')
    (hk : opensSplice k = false) (hhead : p.upcoming.head? = some k) :
    p'.upcoming.head? = some k ∧ p'.upcoming.tail.head? = p.upcoming.tail.head? := by
  have hforetold : Foretold p.upcoming p'.upcoming := h.rest.foretold
  rcases List.head?_eq_some_iff.mp hhead with ⟨ks, hks⟩
  rw [hks] at hforetold
  rcases hforetold.cons_of with ⟨ls, hls⟩
  rw [hls] at hforetold
  rw [hks, hls]
  exact ⟨rfl, (hforetold.tail hk).2.head⟩

/-- A question that has the same answer in both readings. -/
theorem answering {x : Script β} (answer : List Kind → β)
    (hx : ∀ readers p, x.read c.limit readers p = some (answer p.upcoming, p.skip))
    (hanswer : ∀ {p p' : Place}, c.Linked O p p' → answer p'.upcoming = answer p.upcoming) :
    Follows c i i (c.Linked O) (c.Linked O) x := by
  intro p q b _ h
  rw [hx] at h
  cases h
  refine ⟨rfl, fun q' hq => ?_⟩
  rcases hq.unskip with ⟨p', hp, rfl⟩
  exact ⟨p', hp, by rw [hx, hanswer hp]⟩

theorem startWith_eq {p p' : Place} (hp : c.Linked O p p') {first second : Kind}
    (hk : opensSplice first = false) :
    startWith first second p'.upcoming = startWith first second p.upcoming := by
  rw [startWith, startWith]
  by_cases hhead : p.upcoming.head? = some first
  · rcases head?_tail_eq hp hk hhead with ⟨hhead', htail⟩
    rw [hhead, hhead', htail]
  · have hhead' : p'.upcoming.head? ≠ some first := fun h => hhead (hp.rest.foretold.head ▸ h)
    rw [if_neg fun h => hhead (eq_of_beq h), if_neg fun h => hhead' (eq_of_beq h)]

theorem isAtPair (first second : Kind) (hk : opensSplice first = false) :
    Follows c i i (c.Linked O) (c.Linked O) (Script.isAtPair first second) :=
  answering (startWith first second) (fun _ p => isAtPair_read first second p)
    fun hp => startWith_eq hp hk

/-! ### What is read behind a question -/

variable {x y : Script α}

/-- A cast is told from other operands by what is read in it. -/
theorem ifCast (hx : Follows c i j (c.Linked O) M x) (hy : Follows c i j (c.Linked O) M y)
    (hover : ∀ {p : Place} {q : α × Place}, p.IsSettled →
      x.read c.limit c.behind p = some q →
        ∃ r, Over false p.upcoming.tail r) :
    Follows c i j (c.Linked O) M (isAtCast >>= fun b => if b then x else y) := by
  refine asking isCast (fun _ p => isAtCast_read p) (fun b => ite (fun _ => hx) fun _ => hy) ?_
  intro p p' q q' _ hsettled hp _ hread
  have hforetold : Foretold p.upcoming p'.upcoming := hp.rest.foretold
  refine hforetold.isCast_eq fun hcast => ?_
  rw [if_pos hcast] at hread
  rcases hover hsettled hread with ⟨r, hr⟩
  by_cases hparen : p.upcoming.head? = some .parenOpen
  · rw [← hforetold.head] at hparen
    rcases List.head?_eq_some_iff.mp hparen with ⟨js, hjs⟩
    rw [hjs, List.tail_cons] at hr
    exact ⟨js, r, hjs, hr⟩
  · rw [isCast_of_head? hparen] at hcast
    cases hcast

/-- A lambda is told from other expressions by the names that are read in it. -/
theorem ifLambda (hx : Follows c i j (c.Linked O) M x) (hy : Follows c i j (c.Linked O) M y)
    (hnames : ∀ {p : Place} {q : α × Place}, p.IsSettled →
      x.read c.limit c.behind p = some q → ∀ ks, p.upcoming = .parenOpen :: ks → Names ks) :
    Follows c i j (c.Linked O) M (isAtLambda >>= fun b => if b then x else y) := by
  refine asking isLambda (fun _ p => isAtLambda_read p) (fun b => ite (fun _ => hx) fun _ => hy) ?_
  intro p p' q q' _ hsettled hp _ hread
  have hforetold : Foretold p.upcoming p'.upcoming := hp.rest.foretold
  refine hforetold.isLambda_eq fun hlambda => ?_
  rw [if_pos hlambda] at hread
  exact hnames hsettled hread

/-- A declaration of variables is told from other statements by the type that is read in it. -/
theorem ifLocal (hx : Follows c i j (c.Linked O) M x) (hy : Follows c i j (c.Linked O) M y)
    (hover : ∀ {p : Place} {q : α × Place}, p.IsSettled →
      x.read c.limit c.behind p = some q → p.upcoming.head? ≠ some .kwVar →
        ∃ r, Over false p.upcoming r) :
    Follows c i j (c.Linked O) M (isAtLocalDeclaration >>= fun b => if b then x else y) := by
  refine asking declaresLocal (fun _ p => isAtLocalDeclaration_read p)
    (fun b => ite (fun _ => hx) fun _ => hy) ?_
  intro p p' q q' _ hsettled hp _ hread
  have hforetold : Foretold p.upcoming p'.upcoming := hp.rest.foretold
  refine hforetold.declaresLocal_eq fun hlocal hvar => ?_
  rw [if_pos hlocal] at hread
  exact hover hsettled hread hvar

end Follows

/-- A script can be carried over from places of some sort. -/
def FollowsAt (P : Place → Prop) (c : Course) {α : Type} (i j : Nat) (L L' : Place → Place → Prop)
    (x : Script α) : Prop :=
  ∀ (p q : Place) (a : α), P p → i ≤ p.opened → x.read c.limit c.before p = some (a, q) →
    q.opened + i = p.opened + j ∧
      ∀ q', L' q q' → ∃ p', L p p' ∧ x.read c.limit c.behind p' = some (a, q')

/-- Places at which no trivia stands before the next token, which has a kind. -/
def Place.IsAt (k : Option Kind) (p : Place) : Prop := p.IsSettled ∧ p.upcoming.head? = k

namespace FollowsAt

variable {c : Course} {α β : Type} {i j k : Nat} {L M N : Place → Place → Prop}
variable {P : Place → Prop} {O : TreeRelation}

theorem of_follows {x : Script α} (h : Follows c i j L M x) : FollowsAt P c i j L M x :=
  fun p q a _ => h p q a

theorem bind {x : Script α} {f : α → Script β} (hx : FollowsAt P c i j L M x)
    (hf : ∀ a, Follows c j k M N (f a)) : FollowsAt P c i k L N (x >>= f) := by
  intro p q b hp hi h
  rcases read_bind_some h with ⟨a, r, hfirst, hnext⟩
  rcases hx p r a hp hi hfirst with ⟨hopened, hback⟩
  rcases hf a r q b (by omega) hnext with ⟨hopened', hback'⟩
  refine ⟨by omega, fun q' hq => ?_⟩
  rcases hback' q' hq with ⟨r', hr, hnext'⟩
  rcases hback r' hr with ⟨p', hp', hfirst'⟩
  exact ⟨p', hp', by rw [read_bind, hfirst']; exact hnext'⟩

/-- Behind a token of most kinds, looking at the one behind it has the same answer. -/
theorem nextIs {j : Kind} (k : Kind) (hj : opensSplice j = false) :
    FollowsAt (Place.IsAt (some j)) c i i (c.Linked O) (c.Linked O) (Script.nextIs k) := by
  intro p q b hp _ h
  rw [nextIs_read] at h
  cases h
  refine ⟨rfl, fun q' hq => ?_⟩
  rcases hq.unskip with ⟨p', hlinked, rfl⟩
  exact ⟨p', hlinked, by rw [nextIs_read, (Follows.head?_tail_eq hlinked hj hp.2).2]⟩

/-- What follows a look at the next token knows what it is. -/
theorem look_bind {f : Option Kind → Script α}
    (hf : ∀ k, FollowsAt (Place.IsAt k) c i j (c.Linked O) M (f k)) :
    Follows c i j (c.Linked O) M (look >>= f) := by
  intro p q a hi h
  rw [read_bind, look_read, Option.bind_some] at h
  have hat : p.skip.IsAt p.upcoming.head? := ⟨isSettled_skip p, by rw [upcoming_skip]⟩
  rcases hf _ p.skip q a hat hi h with ⟨hopened, hback⟩
  refine ⟨hopened, fun q' hq => ?_⟩
  rcases hback q' hq with ⟨r', hr, hread⟩
  rcases Course.Linked.unskip hr with ⟨p', hp, rfl⟩
  refine ⟨p', hp, ?_⟩
  have hhead : p'.upcoming.head? = p.upcoming.head? := hp.rest.foretold.head
  rw [read_bind, look_read, Option.bind_some, hhead]
  exact hread

end FollowsAt

end Grammar

end Nominal
