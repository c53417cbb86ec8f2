import Nominal.Proofs.Written.Types

/-!
# Types That Are Recognised

Two questions of the grammar step over a type before anything is read. What has been stepped over
is read as a type afterwards, and what is read as a type has been stepped over, with one exception.
Any number of question marks is stepped over, but a nullable type is not made nullable again. So
stepping over a type and reading one agree where no two question marks follow each other.

That a type is read without a report does not depend on the trees that were collected. So a reading
is followed here from the kinds of the tokens to come alone.

## Main definitions

* `Place.Offers`: The kinds that come next at a place where there are enough tokens left to take.
* `Gets`: What a script answers at a place, and what comes next then.
* `OnceMarked`: Tokens among which no two question marks follow each other.

## Theorems

* `Over.gets`: What is stepped over is read as a type.
* `lookahead_agrees`: Looking ahead and reading a type end at the same token.
-/

namespace Nominal

open Syntax (Kind Lexeme lex)

namespace Grammar

open Script

/-! ### Going by the kinds of tokens -/

/-- The kinds come next, and there are enough tokens left to take them all. -/
structure Place.Offers (p : Place) (ks : List Kind) : Prop where
  upcoming : p.upcoming = ks
  enough : ks.length ≤ p.fuel

theorem Place.Offers.skip {p : Place} {ks : List Kind} (h : p.Offers ks) : p.skip.Offers ks :=
  ⟨(upcoming_skip p).trans h.upcoming, h.enough⟩

theorem Place.Offers.of_rest {p q : Place} {ks : List Kind} (h : p.Offers ks)
    (hrest : q.rest = p.rest) (hfuel : q.fuel = p.fuel) : q.Offers ks :=
  ⟨(upcoming_of_rest hrest).trans h.upcoming, hfuel ▸ h.enough⟩

section Forward

variable (limit : Option Nat) (readers : Readers) {α β σ : Type}

/-- The script answers `a` at the place, and the kinds `r` come next then. No trivia has been put
    back. -/
def Gets (x : Script α) (p : Place) (a : α) (r : List Kind) : Prop :=
  ∃ q, x.read limit readers p = some (a, q) ∧ q.Offers r ∧
    q.rest.length + p.upcoming.length ≤ p.rest.length + r.length

variable {limit readers} {x : Script α} {f : α → Script β} {p : Place} {a : α} {b : β}
variable {k : Kind} {ks r : List Kind}

namespace Gets

theorem bind (hx : Gets limit readers x p a ks)
    (hf : ∀ q, q.Offers ks → Gets limit readers (f a) q b r) :
    Gets limit readers (x >>= f) p b r := by
  rcases hx with ⟨q, hread, hq, hlength⟩
  rcases hf q hq with ⟨s, hrest, hs, hmore⟩
  refine ⟨s, (read_bind_of hread).trans hrest, hs, ?_⟩
  rw [hq.upcoming] at hmore
  omega

/-- Nothing is put back by setting trivia aside. -/
theorem length_skip (p : Place) : p.skip.rest.length ≤ p.rest.length :=
  (List.dropWhile_suffix _).length_le

/-- A script that goes on behind a question about what comes next. -/
theorem ask (hx : x.read limit readers p = some (a, p.skip))
    (hf : Gets limit readers (f a) p.skip b r) : Gets limit readers (x >>= f) p b r := by
  rcases hf with ⟨q, hread, hq, hlength⟩
  refine ⟨q, (read_bind_of hx).trans hread, hq, ?_⟩
  have hskip := length_skip p
  rw [upcoming_skip] at hlength
  omega

/-- A script that leaves what comes next. -/
theorem answer (hp : p.Offers ks) (hx : x.read limit readers p = some (a, p.skip)) :
    Gets limit readers x p a ks := by
  refine ⟨p.skip, hx, hp.skip, ?_⟩
  have hskip := length_skip p
  rw [hp.upcoming]
  omega

theorem done (hp : p.Offers ks) : Gets limit readers (pure a) p a ks := by
  refine ⟨p, rfl, hp, Nat.le_of_eq ?_⟩
  rw [hp.upcoming]

theorem take (hsettled : p.IsSettled) (hp : p.Offers (k :: ks)) :
    Gets limit readers take p () ks := by
  cases hrest : p.rest with
  | nil =>
      have hnone := hp.upcoming
      rw [show p.upcoming = kindsOf p.rest from rfl, hrest] at hnone
      cases hnone
  | cons l ls =>
      have hl := hsettled l (by rw [hrest]; rfl)
      have hkinds := hp.upcoming
      rw [show p.upcoming = kindsOf p.rest from rfl, hrest, kindsOf_cons hl, List.cons.injEq]
        at hkinds
      obtain ⟨n, hn⟩ : ∃ n, p.fuel = n + 1 :=
        Nat.exists_eq_succ_of_ne_zero (Nat.ne_of_gt (Nat.lt_of_lt_of_le (Nat.succ_pos _) hp.enough))
      refine ⟨_, take_of hrest hn, ⟨hkinds.2, ?_⟩, ?_⟩
      · have henough := hp.enough
        rw [hn, List.length_cons] at henough
        exact Nat.le_of_succ_le_succ henough
      · rw [hp.upcoming, hrest, List.length_cons, List.length_cons, Place.rest_past]
        omega

/-- A token that comes next is eaten. -/
theorem eat (hp : p.Offers (k :: ks)) : Gets limit readers (eat k) p true ks := by
  have hat : (isAt k).read limit readers p = some (true, p.skip) := by
    rw [isAt_read, hp.upcoming, List.head?_cons, beq_self_eq_true]
  exact ask hat (bind (take (isSettled_skip p) hp.skip) fun _ hq => done hq)

/-- A token that does not come next is not eaten. -/
theorem eat_other (hp : p.Offers ks) (hks : ks.head? ≠ some k) :
    Gets limit readers (Script.eat k) p false ks :=
  answer hp (by rw [eat_read, hp.upcoming, if_neg hks])

theorem expect (hp : p.Offers (k :: ks)) (what : String) :
    Gets limit readers (expect k what) p () ks :=
  bind (eat hp) fun _ hq => done hq

/-- A group gets where its body gets. -/
theorem group {g : Grouping} (h : Gets limit readers x (g.enter p) a r) :
    Gets limit readers (.group g x .done) p a r := by
  rcases h with ⟨q, hread, hq, hlength⟩
  have hgroup : (Script.group g x .done).read limit readers p = some (a, g.leave p q) := by
    rw [Script.read, hread]
    rfl
  refine ⟨_, hgroup, ?_, ?_⟩
  · cases g <;> exact hq.of_rest rfl rfl
  · cases g <;> exact hlength

theorem loop_stop {body : σ → Script (Bool × σ)} {next : σ → Script α} {y z : σ}
    (h : Gets limit readers (body y) p (false, z) ks)
    (hnext : ∀ q, q.Offers ks → Gets limit readers (next z) q a r) :
    Gets limit readers (.loop body y next) p a r := by
  rcases h with ⟨q, hread, hq, hlength⟩
  rcases hnext q hq with ⟨s, hrest, hs, hmore⟩
  refine ⟨s, (Grammar.loop_stop hread).trans hrest, hs, ?_⟩
  rw [hq.upcoming] at hmore
  omega

/-- A loop goes on where tokens have been taken. -/
theorem loop_again {body : σ → Script (Bool × σ)} {next : σ → Script α} {y z : σ}
    (h : Gets limit readers (body y) p (true, z) ks) (hshorter : ks.length < p.upcoming.length)
    (hnext : ∀ q, q.Offers ks → Gets limit readers (.loop body z next) q a r) :
    Gets limit readers (.loop body y next) p a r := by
  rcases h with ⟨q, hread, hq, hlength⟩
  rcases hnext q hq with ⟨s, hrest, hs, hmore⟩
  refine ⟨s, Grammar.loop_again hread (by omega) hrest, hs, ?_⟩
  rw [hq.upcoming] at hmore
  omega

theorem repeatWhile_stop {body : Script Bool} (h : Gets limit readers body p false ks) :
    Gets limit readers (repeatWhile body) p () ks :=
  loop_stop (h.bind (f := fun again => .done (again, ())) fun _ hq => done hq) fun _ hq => done hq

theorem repeatWhile_again {body : Script Bool} (h : Gets limit readers body p true ks)
    (hshorter : ks.length < p.upcoming.length)
    (hnext : ∀ q, q.Offers ks → Gets limit readers (repeatWhile body) q () r) :
    Gets limit readers (repeatWhile body) p () r :=
  loop_again (h.bind (f := fun again => .done (again, ())) fun _ hq => done hq) hshorter hnext

end Gets

end Forward

/-! ### Question marks -/

/-- No two question marks follow each other before the kinds `r`. -/
def OnceMarked (ks r : List Kind) : Prop :=
  ∀ taken, ks = taken ++ r → ¬[Kind.question, .question] <:+: taken

/-- What is said of some tokens is said of those among them. -/
theorem OnceMarked.within {ks js r s : List Kind} (h : OnceMarked ks r) (hjs : js <:+ ks)
    (hr : r <:+ s) : OnceMarked js s := by
  rcases hjs with ⟨before, rfl⟩
  rcases hr with ⟨behind, rfl⟩
  intro taken htaken hmarks
  refine h (before ++ taken ++ behind) ?_ (hmarks.trans ⟨before, behind, rfl⟩)
  rw [htaken]
  simp only [List.append_assoc]

/-! ### What is stepped over is read -/

section Types

variable {limit : Option Nat} {readers : Readers} {p : Place} {ks r : List Kind}

/-- A pair of brackets is read as a mark. -/
theorem gets_typeMark_array (kind : Kind) (hp : p.Offers (.bracketOpen :: .bracketClose :: ks)) :
    Gets limit readers (typeMark kind) p (true, .arrayType) ks := by
  have hlook : look.read limit readers p = some (some .bracketOpen, p.skip) := by
    rw [look_read, hp.upcoming]
    rfl
  have hnext : (nextIs .bracketClose).read limit readers p.skip = some (true, p.skip.skip) := by
    rw [nextIs_read, upcoming_skip, hp.upcoming]
    rfl
  refine .ask hlook (.ask hnext ?_)
  rw [if_pos rfl]
  exact .bind (.group (.bind (.take (isSettled_skip _) hp.skip.skip) fun _ hq => .expect hq _))
    fun _ hq => .done hq

/-- A question mark is read as a mark, unless the type is nullable. -/
theorem gets_typeMark_nullable {kind : Kind} (hkind : kind ≠ .nullableType)
    (hp : p.Offers (.question :: ks)) :
    Gets limit readers (typeMark kind) p (true, .nullableType) ks := by
  have hlook : look.read limit readers p = some (some .question, p.skip) := by
    rw [look_read, hp.upcoming]
    rfl
  refine .ask hlook ?_
  dsimp only
  rw [if_neg hkind]
  exact .bind (.group (.take (isSettled_skip _) hp.skip)) fun _ hq => .done hq

/-- Nothing else is read as a mark. -/
theorem gets_typeMark_stop (kind : Kind) (hbrackets : ∀ js, ks ≠ .bracketOpen :: .bracketClose :: js)
    (hquestion : ∀ js, ks ≠ .question :: js) (hp : p.Offers ks) :
    Gets limit readers (typeMark kind) p (false, kind) ks := by
  refine .ask (look_read p) ?_
  split
  · next hhead =>
      rw [hp.upcoming] at hhead
      rcases List.head?_eq_some_iff.mp hhead with ⟨js, rfl⟩
      have hnext : (nextIs .bracketClose).read limit readers p.skip = some (false, p.skip.skip) := by
        rw [nextIs_read, upcoming_skip, hp.upcoming, List.tail_cons, beq_eq_false_iff_ne.mpr]
        intro hclose
        rcases List.head?_eq_some_iff.mp hclose with ⟨is, rfl⟩
        exact hbrackets is rfl
      refine .ask hnext ?_
      exact .done hp.skip.skip
  · next hhead =>
      rw [hp.upcoming] at hhead
      rcases List.head?_eq_some_iff.mp hhead with ⟨js, rfl⟩
      exact absurd rfl (hquestion js)
  · exact .done hp.skip

/-- The kind of the outermost node, if a type of the kind `kind` has the marks that come first. -/
def markedKind (kind : Kind) : List Kind → Kind
  | .bracketOpen :: .bracketClose :: ks => markedKind .arrayType ks
  | .question :: ks => markedKind .nullableType ks
  | _ => kind

/-- The marks behind a type are read. -/
theorem gets_typeMarks (honce : OnceMarked ks (marksEnd ks)) {kind : Kind}
    (hkind : kind = .nullableType → ks.head? ≠ some .question) (hp : p.Offers ks) :
    Gets limit readers (typeMarks kind) p (some (markedKind kind ks)) (marksEnd ks) := by
  fun_induction marksEnd ks generalizing kind p with
  | case1 ks ih =>
      have hrest : OnceMarked ks (marksEnd ks) :=
        honce.within ((List.suffix_cons _ _).trans (List.suffix_cons _ _)) (List.suffix_refl _)
      have hshorter : ks.length < p.upcoming.length := by
        rw [hp.upcoming]
        exact Nat.lt_succ_of_lt (Nat.lt_succ_self _)
      exact .loop_again (gets_typeMark_array kind hp) hshorter fun _ hq =>
        ih hrest (absurd · (by decide)) hq
  | case2 ks ih =>
      have hrest : OnceMarked ks (marksEnd ks) :=
        honce.within (List.suffix_cons _ _) (List.suffix_refl _)
      have hshorter : ks.length < p.upcoming.length := by
        rw [hp.upcoming]
        exact Nat.lt_succ_self _
      -- A second question mark would have been stepped over as well.
      have hsecond : ks.head? ≠ some .question := by
        intro hhead
        rcases List.head?_eq_some_iff.mp hhead with ⟨js, rfl⟩
        rcases marksEnd_suffix js with ⟨marks, hmarks⟩
        refine honce (.question :: .question :: marks) ?_ ⟨[], marks, rfl⟩
        rw [marksEnd, List.cons_append, List.cons_append, hmarks]
      have hnullable : kind ≠ .nullableType := fun h => hkind h rfl
      exact .loop_again (gets_typeMark_nullable hnullable hp) hshorter fun _ hq =>
        ih hrest (fun _ => hsecond) hq
  | case3 ks hbrackets hquestion =>
      rw [markedKind.eq_3 kind ks hbrackets hquestion]
      exact .loop_stop (gets_typeMark_stop kind hbrackets hquestion hp) fun _ hq => .done hq

/-- The segments of a dotted name are read. -/
theorem gets_segments (hp : p.Offers ks) :
    Gets limit readers (whileTrue isAtSegment segment) p () (segmentsEnd ks) := by
  have hpair : ∀ q : Place, isAtSegment.read limit readers q
      = some (startWith .dot .id q.upcoming, q.skip) := isAtPair_read .dot .id
  fun_induction segmentsEnd ks generalizing p with
  | case1 ks ih =>
      have hat : isAtSegment.read limit readers p = some (true, p.skip) := by
        rw [hpair, hp.upcoming]
        rfl
      have hsegment : Gets limit readers segment p.skip () ks :=
        .bind (.take (isSettled_skip p) hp.skip) fun _ hq => .expect hq _
      have hshorter : ks.length < p.upcoming.length := by
        rw [hp.upcoming]
        exact Nat.lt_succ_of_lt (Nat.lt_succ_self _)
      exact .repeatWhile_again (.ask hat (.bind hsegment fun _ hq => .done hq)) hshorter
        fun _ hq => ih hq
  | case2 ks hother =>
      have hat : isAtSegment.read limit readers p = some (false, p.skip) := by
        rw [hpair, hp.upcoming, startWith]
        split
        · next hdot =>
            rcases List.head?_eq_some_iff.mp (eq_of_beq hdot) with ⟨js, rfl⟩
            rw [List.tail_cons, beq_eq_false_iff_ne.mpr]
            intro hid
            rcases List.head?_eq_some_iff.mp hid with ⟨is, rfl⟩
            exact hother is rfl
        · rfl
      exact .repeatWhile_stop (.ask hat (.done hp.skip))

/-- Type arguments from behind the opening bracket on. -/
def argumentsBehind : Script Unit := repeatWhile typeItem >>= fun _ => expect .gt "`>`"

/-- A name without arguments is read. -/
theorem gets_namedType (hplain : ∀ js, segmentsEnd ks ≠ .lt :: js) (hsettled : p.IsSettled)
    (hp : p.Offers (.id :: ks)) : Gets limit readers namedType p () (segmentsEnd ks) := by
  refine .group (.bind (.take (hsettled.of_rest rfl) (hp.of_rest rfl rfl)) fun q hq =>
    .bind (gets_segments hq) fun s hs => ?_)
  have hat : (isAt .lt).read limit readers s = some (false, s.skip) := by
    rw [isAt_read, hs.upcoming, beq_eq_false_iff_ne.mpr]
    intro hhead
    rcases List.head?_eq_some_iff.mp hhead with ⟨js, hjs⟩
    exact hplain js hjs
  exact .ask hat (.done hs.skip)

/-- A name with arguments is read, if its arguments are. -/
theorem gets_namedType_generic {js : List Kind} (hsegments : segmentsEnd ks = .lt :: js)
    (hargs : ∀ q : Place, q.Offers js → Gets limit readers argumentsBehind q () r)
    (hsettled : p.IsSettled) (hp : p.Offers (.id :: ks)) :
    Gets limit readers namedType p () r := by
  refine .group (.bind (.take (hsettled.of_rest rfl) (hp.of_rest rfl rfl)) fun q hq =>
    .bind (gets_segments hq) fun s hs => ?_)
  rw [hsegments] at hs
  have hat : (isAt .lt).read limit readers s = some (true, s.skip) := by
    rw [isAt_read, hs.upcoming]
    rfl
  have hsettled' : (Grouping.enter (.node .typeArgList) s.skip).IsSettled :=
    (isSettled_skip s).of_rest rfl
  exact .ask hat (.group (.bind (.take hsettled' (hs.skip.of_rest rfl rfl)) hargs))

/-- A type is read from its first part and its marks. -/
theorem gets_typeScript {first kind : Kind} {part : Script Unit} {js : List Kind}
    (hfirst : first = .predefinedType ∧ kind = .predefType ∧ part = node .predefType take ∨
      first = .id ∧ kind = .namedType ∧ part = namedType)
    (hpart : ∀ q : Place, q.IsSettled → q.Offers (first :: ks) → Gets limit readers part q () js)
    (honce : OnceMarked js (marksEnd js)) (hp : p.Offers (first :: ks)) :
    Gets limit readers typeScript p (some (markedKind kind js)) (marksEnd js) := by
  let q : Place := Grouping.frame.enter p.skip
  have hq : q.Offers (first :: ks) := hp.skip.of_rest rfl rfl
  have hlook : look.read limit readers q = some (some first, q.skip) := by
    rw [look_read, hq.upcoming]
    rfl
  have hmarks : kind ≠ .nullableType →
      Gets limit readers (part >>= fun _ => typeMarks kind) q.skip (some (markedKind kind js))
        (marksEnd js) := fun hkind =>
    .bind (hpart _ (isSettled_skip q) hq.skip) fun _ hs =>
      gets_typeMarks honce (fun h => absurd h hkind) hs
  refine .ask (read_perform .skipTrivia p) (.group (.ask hlook ?_))
  rcases hfirst with ⟨rfl, rfl, rfl⟩ | ⟨rfl, rfl, rfl⟩
  · exact hmarks nofun
  · exact hmarks nofun

theorem gets_readType {m : Nat} {a : Option Kind}
    (h : Gets limit (readProduction limit m) typeScript p a r) :
    Gets limit (readProduction limit (m + 1)) readType p a r := by
  rcases h with ⟨q, hread, hq, hlength⟩
  exact ⟨q, (read_call .type p).trans hread, hq, hlength⟩

/-- What is stepped over is read as a type. -/
theorem Over.gets {arguments : Bool} (h : Over arguments ks r) (honce : OnceMarked ks r) (n : Nat)
    (hn : ks.length < n) (hp : p.Offers ks) :
    (arguments = false →
      ∃ kind, Gets limit (readProduction limit n) readType p (some kind) r) ∧
    (arguments = true → Gets limit (readProduction limit n) argumentsBehind p () r) := by
  induction h generalizing n p with
  | predefined ks =>
      refine ⟨fun _ => ?_, (absurd · Bool.false_ne_true)⟩
      obtain ⟨m, rfl⟩ : ∃ m, n = m + 1 := ⟨n - 1, by omega⟩
      have hmarks : OnceMarked ks (marksEnd ks) :=
        honce.within (List.suffix_cons _ _) (List.suffix_refl _)
      exact ⟨_, gets_readType (gets_typeScript (.inl ⟨rfl, rfl, rfl⟩)
        (fun q hsettled hq => .group (.take (hsettled.of_rest rfl) (hq.of_rest rfl rfl))) hmarks hp)⟩
  | @name ks hplain =>
      refine ⟨fun _ => ?_, (absurd · Bool.false_ne_true)⟩
      obtain ⟨m, rfl⟩ : ∃ m, n = m + 1 := ⟨n - 1, by omega⟩
      have hmarks : OnceMarked (segmentsEnd ks) (marksEnd (segmentsEnd ks)) :=
        honce.within ((segmentsEnd_suffix ks).trans (List.suffix_cons _ _)) (List.suffix_refl _)
      exact ⟨_, gets_readType (gets_typeScript (.inr ⟨rfl, rfl, rfl⟩)
        (fun q hsettled hq => gets_namedType hplain hsettled hq) hmarks hp)⟩
  | @generic ks js r hsegments hargs ih =>
      refine ⟨fun _ => ?_, (absurd · Bool.false_ne_true)⟩
      obtain ⟨m, rfl⟩ : ∃ m, n = m + 1 := ⟨n - 1, by omega⟩
      have hlt : .lt :: js <:+ ks := hsegments ▸ segmentsEnd_suffix ks
      have hjs : js <:+ .id :: ks :=
        ((List.suffix_cons _ _).trans hlt).trans (List.suffix_cons _ _)
      have hlength := hlt.length_le
      simp only [List.length_cons] at hlength hn
      have harguments : ∀ q : Place, q.Offers js →
          Gets limit (readProduction limit m) argumentsBehind q () r := fun q hq =>
        (ih (honce.within hjs (marksEnd_suffix r)) m (by omega) hq).2 rfl
      have hmarks : OnceMarked r (marksEnd r) :=
        honce.within (hargs.suffix.trans hjs) (List.suffix_refl _)
      exact ⟨_, gets_readType (gets_typeScript (.inr ⟨rfl, rfl, rfl⟩)
        (fun q hsettled hq => gets_namedType_generic hsegments harguments hsettled hq) hmarks hp)⟩
  | @more ks js r htype hargs ihType ih =>
      refine ⟨(absurd · Bool.false_ne_true.symm), fun _ => ?_⟩
      have hcomma : js <:+ ks := (List.suffix_cons _ _).trans htype.suffix
      have hbehind := hargs.suffix.trans (List.suffix_cons .comma js)
      rcases (ihType (honce.within (List.suffix_refl _) hbehind) n hn hp).1 rfl with ⟨kind, hread⟩
      have hitem : Gets limit (readProduction limit n) typeItem p true js :=
        hread.bind fun _ hq => .eat hq
      have hshorter := htype.length_lt
      rw [List.length_cons] at hshorter
      have hrest := honce.within hcomma (List.suffix_refl r)
      exact .loop_again (hitem.bind fun _ hq => .done hq) (by rw [hp.upcoming]; omega) fun _ hq =>
        (ih hrest n (by omega) hq).2 rfl
  | @last ks r htype ih =>
      refine ⟨(absurd · Bool.false_ne_true.symm), fun _ => ?_⟩
      rcases (ih (honce.within (List.suffix_refl _) (List.suffix_cons _ _)) n hn hp).1 rfl with
        ⟨kind, hread⟩
      have hitem : Gets limit (readProduction limit n) typeItem p false (.gt :: r) :=
        hread.bind fun _ hq => .eat_other hq fun h => by cases h
      exact .loop_stop (hitem.bind fun _ hq => .done hq) fun _ hq => .expect hq _

end Types

/-! ### The same end -/

/-- Let some tokens come next such that no two question marks follow each other up to the token
    behind them. If these tokens are stepped over as a type, then a type is read from them, unless
    the parser looks at a token too often or may take fewer tokens than there are. If a type is read
    from them and nothing is reported, then they are stepped over. -/
theorem lookahead_agrees {setting : Setting} {n : Nat} {s : State} (hs : s.IsQuiet)
    (hn : s.upcoming.length < n) {taken r : List Kind} (hupcoming : s.upcoming = taken ++ r)
    (honce : ¬[Kind.question, .question] <:+: taken ++ r.take 1) :
    (typeEnd? s.upcoming = some r → ∃ kind q, q.upcoming = r ∧
      (runProduction setting n .type s).Reaches (∀ k, s.fuel = some k → s.upcoming.length ≤ k)
        (some kind) q) ∧
    (∀ kind t, runProduction setting n .type s = .ok (some kind) t → t.IsClean → t.upcoming = r →
      typeEnd? s.upcoming = some r) := by
  constructor
  · intro hend
    let p : Place := { s.place with fuel := s.upcoming.length }
    have hp : p.Offers s.upcoming := ⟨rfl, Nat.le_refl _⟩
    have hbefore : OnceMarked s.upcoming r := by
      intro others hothers hmarks
      rw [hupcoming, List.append_left_inj] at hothers
      exact honce (hmarks.trans ⟨[], r.take 1, by rw [hothers, List.nil_append]⟩)
    rcases ((typeEnd?_iff.mp hend).gets hbefore n hn hp).1 rfl with ⟨kind, q, hread, hq, _⟩
    rw [readType, read_call] at hread
    exact ⟨kind, q, hq.upcoming, (runProduction_of_read n .type).reaches hread hs ⟨_, rfl, id⟩⟩
  · intro kind t hrun ht hr
    have hread := (read_of_runProduction n .type s t (some kind) hrun ht).2
    obtain ⟨m, rfl⟩ : ∃ m, n = m + 1 := ⟨n - 1, by omega⟩
    rcases read_typeScript (stepsOverTypes_readProduction setting.depthLimit m) hread with
      ⟨first, outermost, ks, _, hfirst, hks, hover, hmarks⟩
    rw [show t.place.upcoming = r from hr] at hmarks
    have hstop : marksEnd r = r := by
      refine marksEnd_other hmarks.brackets fun js hjs => ?_
      rcases hmarks.nullable (hmarks.question js hjs) with ⟨hnullable, _⟩ | hquestion
      · exact hfirst hnullable
      · -- The question mark that is left follows one that has been taken.
        rcases hquestion.trans hks with ⟨before, hbefore⟩
        have htaken : before ++ [.question] = taken := by
          have hall : (before ++ [.question]) ++ r = taken ++ r := by
            rw [List.append_assoc, ← hupcoming]
            exact hbefore
          exact List.append_cancel_right hall
        refine honce ⟨before, [], ?_⟩
        rw [← htaken, hjs]
        simp only [List.append_assoc, List.append_nil, List.cons_append, List.nil_append,
          List.take_succ_cons, List.take_zero]
    rw [typeEnd?_iff, ← hstop, hmarks.ends]
    exact hover

/-- A type with type arguments and marks of both sorts is stepped over and read. -/
theorem lookahead_agrees_nested :
    ∃ taken, ∃ s : State, s = State.initial ⟨some 20, none⟩ (lex "Map<int?, A.B[]>[]? x") ∧
      s.IsQuiet ∧ s.upcoming.length < 20 ∧ s.upcoming = taken ++ [.id] ∧
      ¬[Kind.question, .question] <:+: taken ++ [.id].take 1 ∧
      typeEnd? s.upcoming = some [.id] ∧
      ∃ kind t, runProduction ⟨none, 21⟩ 20 .type s = .ok (some kind) t ∧ t.upcoming = [.id] := by
  generalize hs : State.initial ⟨some 20, none⟩ (lex "Map<int?, A.B[]>[]? x") = s
  have hquiet : s.IsQuiet := by
    rw [← hs]
    exact ⟨rfl, rfl, rfl⟩
  have hlength : s.upcoming.length < 20 := by
    rw [← hs]
    decide +kernel
  have hupcoming : s.upcoming = [.id, .lt, .predefinedType, .question, .comma, .id, .dot, .id,
      .bracketOpen, .bracketClose, .gt, .bracketOpen, .bracketClose, .question] ++ [.id] := by
    rw [← hs]
    decide +kernel
  have honce : ¬[Kind.question, .question] <:+: [Kind.id, .lt, .predefinedType, .question, .comma,
      .id, .dot, .id, .bracketOpen, .bracketClose, .gt, .bracketOpen, .bracketClose, .question]
        ++ [.id].take 1 := by
    decide
  have hend : typeEnd? s.upcoming = some [.id] := by
    rw [hupcoming]
    decide
  have hrun : (match runProduction ⟨none, 21⟩ 20 .type s with
      | .stuck => true
      | _ => false) = false := by
    rw [← hs]
    decide +kernel
  rcases (lookahead_agrees hquiet hlength hupcoming honce).1 hend with
    ⟨kind, q, hq, hstuck | ⟨t, hok, _, hat⟩ | ⟨hshort, _⟩⟩
  · rw [hstuck] at hrun
    cases hrun
  · refine ⟨_, s, rfl, hquiet, hlength, hupcoming, honce, hend, kind, t, hok, ?_⟩
    rw [← hq]
    exact congrArg (fun ls => kindsOf ls) hat.rest
  · refine absurd (fun k hk => ?_) hshort
    rw [← hs] at hk
    cases hk
    exact Nat.le_of_lt hlength

-- A second question mark is stepped over although a nullable type does not take it.
example : typeEnd? [.predefinedType, .question, .question, .parenClose] = some [.parenClose] := by
  decide

end Grammar

end Nominal
