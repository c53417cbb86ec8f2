import Nominal.Proofs.Carried.Creations
import Nominal.Extraction.Declaration

/-!
# Reading Written Types

A type that is put together as a tree is read back as the same tree. The reading is followed
from the front: each lemma says where a script gets from a place at which certain lexemes come
next, and what it has collected on the way.

Most scripts look at the next token first. Then it makes no difference whether the trivia
before that token has been set aside already, and two places that differ in nothing else are
as good as one.

## Main definitions

* `Place.past`: A place behind some lexemes.
* `TypeRef.IsWritable`: The written types that can be read back.

## Theorems

* `readsType_readProduction`: A written type is read as its tree.
-/

namespace Nominal

open Syntax (Kind KindSet Lexeme Tree IsName)
open Program (TypeRef)

namespace Grammar

open Script

/-! ### Going forward -/

/-- The place behind some lexemes, with trees collected for them. -/
def Place.past (p : Place) (ls : List Lexeme) (ts : List Tree) (n : Nat) : Place :=
  ⟨ls, [], p.flush.output ++ ts, p.depth, p.opened, n⟩

@[simp] theorem Place.rest_past (p : Place) (ls : List Lexeme) (ts : List Tree) (n : Nat) :
    (p.past ls ts n).rest = ls := rfl

@[simp] theorem Place.fuel_past (p : Place) (ls : List Lexeme) (ts : List Tree) (n : Nat) :
    (p.past ls ts n).fuel = n := rfl

theorem Place.past_past (p : Place) (ls ms : List Lexeme) (ts us : List Tree) (m n : Nat) :
    (p.past ls ts m).past ms us n = p.past ms (ts ++ us) n := by
  simp only [past, flush, List.map_nil, List.append_nil, List.append_assoc]

section Forward

variable {limit : Option Nat} {readers : Readers} {α β σ : Type}

theorem read_bind_of {x : Script α} {f : α → Script β} {p q : Place} {a : α}
    (h : x.read limit readers p = some (a, q)) :
    (x >>= f).read limit readers p = (f a).read limit readers q := by
  rw [read_bind, h, Option.bind_some]

/-- A loop that stops. -/
theorem loop_stop {body : σ → Script (Bool × σ)} {next : σ → Script α} {x y : σ} {p q : Place}
    (h : (body x).read limit readers p = some ((false, y), q)) :
    (Script.loop body x next).read limit readers p = (next y).read limit readers q := by
  rw [Script.read, rounds, h]
  rfl

/-- A loop that goes on further ahead. -/
theorem loop_again {body : σ → Script (Bool × σ)} {next : σ → Script α} {x y : σ} {p q : Place}
    {r : α × Place} (h : (body x).read limit readers p = some ((true, y), q))
    (hlength : q.rest.length < p.rest.length)
    (hrest : (Script.loop body y next).read limit readers q = some r) :
    (Script.loop body x next).read limit readers p = some r := by
  rw [Script.read] at hrest
  rcases Option.bind_eq_some_iff.mp hrest with ⟨⟨z, s⟩, hrounds, hnext⟩
  rw [Script.read, rounds, h, Option.bind_some, if_pos rfl,
    rounds_mono (show q.rest.length + 2 ≤ p.rest.length + 1 by omega) hrounds]
  exact hnext

theorem repeatWhile_stop {body : Script Bool} {p q : Place}
    (h : body.read limit readers p = some (false, q)) :
    (repeatWhile body).read limit readers p = some ((), q) := by
  have hround : (body >>= fun again => pure (again, ())).read limit readers p
      = some ((false, ()), q) := by
    rw [read_bind_of h]
    rfl
  rw [repeatWhile, loop_stop hround]
  rfl

theorem repeatWhile_again {body : Script Bool} {p q : Place} {r : Unit × Place}
    (h : body.read limit readers p = some (true, q)) (hlength : q.rest.length < p.rest.length)
    (hrest : (repeatWhile body).read limit readers q = some r) :
    (repeatWhile body).read limit readers p = some r :=
  loop_again (read_bind_of (f := fun again => pure (again, ())) h) hlength hrest

theorem whileTrue_stop {condition : Script Bool} {body : Script Unit} {p q : Place}
    (h : condition.read limit readers p = some (false, q)) :
    (whileTrue condition body).read limit readers p = some ((), q) := by
  refine repeatWhile_stop ?_
  rw [read_bind_of h]
  rfl

theorem whileTrue_again {condition : Script Bool} {body : Script Unit} {p q s : Place}
    {r : Unit × Place} (h : condition.read limit readers p = some (true, q))
    (hbody : body.read limit readers q = some ((), s)) (hlength : s.rest.length < p.rest.length)
    (hrest : (whileTrue condition body).read limit readers s = some r) :
    (whileTrue condition body).read limit readers p = some r := by
  refine repeatWhile_again ?_ hlength hrest
  rw [read_bind_of h, if_pos rfl, read_bind_of hbody]
  rfl

/-! ### Tokens to come -/

/-- The script looks at the next token before it does anything else. -/
def Settles (limit : Option Nat) (readers : Readers) (x : Script α) : Prop :=
  ∀ p : Place, x.read limit readers p.skip = x.read limit readers p

theorem settles_look : Settles limit readers look := fun p => by
  rw [look_read, look_read, upcoming_skip, skip_skip]

theorem Settles.bind {x : Script α} {f : α → Script β} (hx : Settles limit readers x) :
    Settles limit readers (x >>= f) := fun p => by
  rw [read_bind, read_bind, hx]

theorem settles_isAt (k : Kind) : Settles limit readers (isAt k) := settles_look.bind

theorem settles_eat (k : Kind) : Settles limit readers (eat k) := (settles_isAt k).bind

/-- A lexeme is taken. -/
theorem take_of {p : Place} {l : Lexeme} {ls : List Lexeme} {n : Nat} (hrest : p.rest = l :: ls)
    (hfuel : p.fuel = n + 1) :
    take.read limit readers p = some ((), p.past ls [.token l] n) :=
  read_take_iff.mpr ⟨l, ls, n, hrest, hfuel, rfl⟩

/-- A place at which some trivia and a token come next. -/
structure Place.Ahead (p : Place) (trivia : List Lexeme) (l : Lexeme) (ls : List Lexeme) : Prop where
  rest : p.rest = trivia ++ l :: ls
  trivia : ∀ t ∈ trivia, t.isTrivia = true
  token : l.isTrivia = false

section Next

variable {p : Place} {trivia ls : List Lexeme} {l : Lexeme} {k : Kind} {n : Nat}
variable (h : p.Ahead trivia l ls)

include h

theorem skip_ahead : p.skip = { p with rest := l :: ls, pending := p.pending ++ trivia } := by
  have hnext : ∀ m, (l :: ls).head? = some m → m.isTrivia = false := fun m hm => by
    cases hm
    exact h.token
  have hskip := skip_trivia h.trivia hnext
  rw [Place.skip, h.rest, hskip.1, hskip.2]

theorem upcoming_ahead : p.upcoming = l.kind :: kindsOf ls := by
  rw [show p.upcoming = kindsOf p.rest from rfl, h.rest, kindsOf_append, kindsOf_trivia h.trivia,
    kindsOf_cons h.token]
  rfl

theorem look_ahead : look.read limit readers p = some (some l.kind, p.skip) := by
  rw [look_read, upcoming_ahead h]
  rfl

theorem isAt_ahead : (isAt k).read limit readers p = some (l.kind == k, p.skip) := by
  rw [isAt_read, upcoming_ahead h]
  rfl

/-- The token is taken, and the trivia before it with it. -/
theorem take_ahead (hfuel : p.fuel = n + 1) :
    take.read limit readers p.skip
      = some ((), p.past ls (trivia.map .token ++ [.token l]) n) := by
  rw [skip_ahead h]
  refine read_take_iff.mpr ⟨l, ls, n, rfl, hfuel, ?_⟩
  simp only [Place.past, Place.taken, Place.flush, List.map_append, List.append_assoc]

/-- A token that is asked for is taken. -/
theorem eat_ahead (hl : l.kind = k) (hfuel : p.fuel = n + 1) :
    (eat k).read limit readers p
      = some (true, p.past ls (trivia.map .token ++ [.token l]) n) := by
  rw [eat_read, upcoming_ahead h, hl, List.head?_cons, if_pos rfl, take_ahead h hfuel]
  rfl

/-- A token that is not asked for is left. -/
theorem eat_other (hl : l.kind ≠ k) : (eat k).read limit readers p = some (false, p.skip) := by
  rw [eat_read, upcoming_ahead h, List.head?_cons, if_neg fun hhead => hl (Option.some.inj hhead)]

theorem expect_ahead (hl : l.kind = k) (hfuel : p.fuel = n + 1) (what : String) :
    (expect k what).read limit readers p
      = some ((), p.past ls (trivia.map .token ++ [.token l]) n) := by
  rw [expect, read_bind_of (eat_ahead h hl hfuel)]
  rfl

theorem expectName_ahead (hl : l.kind = .id) (hfuel : p.fuel = n + 1) (what : String) :
    (expectName what).read limit readers p
      = some (true, p.past ls (trivia.map .token ++ [.token l]) n) := by
  rw [expectName, read_bind_of (eat_ahead h hl hfuel)]
  rfl

end Next

/-- A place right before a token. -/
theorem Place.ahead_past (p : Place) {l : Lexeme} (ls : List Lexeme) (ts : List Tree) (n : Nat)
    (hl : l.isTrivia = false) : (p.past (l :: ls) ts n).Ahead [] l ls :=
  ⟨rfl, nofun, hl⟩

theorem skip_past_token (p : Place) {l : Lexeme} (ls : List Lexeme) (ts : List Tree) (n : Nat)
    (hl : l.isTrivia = false) : (p.past (l :: ls) ts n).skip = p.past (l :: ls) ts n :=
  Place.IsSettled.skip_eq fun m hm => by
    cases hm
    exact hl

end Forward

end Grammar

/-! ### Written types -/

namespace Program.TypeRef

mutual

/-- The written types that can be read back. A second mark of nullable types would be read as
    an operator. -/
def IsWritable : TypeRef → Prop
  | missing => False
  | predefined keyword => ∃ word, keyword = some word ∧ Kind.reserved? word = some .predefinedType
  | named segments none => segments ≠ [] ∧ ∀ s ∈ segments, IsName s
  | named segments (some args) =>
    (segments ≠ [] ∧ ∀ s ∈ segments, IsName s) ∧ args ≠ [] ∧ AreWritable args
  | array element => element.IsWritable
  | nullable inner => inner.IsWritable ∧ inner.tree.kind ≠ .nullableType

def AreWritable : List TypeRef → Prop
  | [] => True
  | t :: ts => t.IsWritable ∧ AreWritable ts

end

/-- The lexemes of further segments of a dotted name. -/
def segmentLexemes (segments : List String) : List Lexeme :=
  segments.flatMap fun s => [⟨.dot, "."⟩, ⟨.id, s⟩]

theorem dotted_cons (s : String) (segments : List String) :
    dotted (s :: segments) = .token ⟨.id, s⟩ :: (segmentLexemes segments).map .token := by
  induction segments generalizing s with
  | nil => rfl
  | cons t ts ih =>
      have hmore : dotted (s :: t :: ts) = leaf .id s :: leaf .dot "." :: dotted (t :: ts) := rfl
      rw [hmore, ih]
      rfl

theorem leavesOf_dotted_cons (s : String) (segments : List String) :
    Tree.leavesOf (dotted (s :: segments)) = ⟨.id, s⟩ :: segmentLexemes segments := by
  rw [dotted_cons, Tree.leavesOf, Tree.leavesOf_map_token]
  rfl

end Program.TypeRef

namespace Program.TypeRef

theorem AreWritable.of_mem {args : List TypeRef} (h : AreWritable args) {t : TypeRef}
    (ht : t ∈ args) : t.IsWritable := by
  induction args with
  | nil => cases ht
  | cons u us ih =>
      rcases List.mem_cons.mp ht with rfl | ht
      · exact h.1
      · exact ih h.2 ht

end Program.TypeRef

namespace Grammar

open Script

/-- What would be read as a further part of a dotted name. -/
def continuesName (k : Kind) : Bool := k == .dot || k == .lt

/-- What would be read as a further part of a type. -/
def continuesType (k : Kind) : Bool := continuesName k || k == .bracketOpen || k == .question

section Types

variable {limit : Option Nat} {readers : Readers}

theorem isAtSegment_other {p : Place} (h : p.upcoming.head? ≠ some .dot) :
    isAtSegment.read limit readers p = some (false, p.skip) := by
  rw [isAtSegment, read_bind_of (isAt_read .dot p), beq_eq_false_iff_ne.mpr h]
  rfl

/-- The further segments of a dotted name are read. -/
theorem read_segments (segments : List String) {p : Place} {ls : List Lexeme} {n : Nat}
    (hrest : p.rest = TypeRef.segmentLexemes segments ++ ls) (hpending : p.pending = [])
    (hls : (kindsOf ls).head? ≠ some .dot) (hfuel : p.fuel = n + 2 * segments.length) :
    (whileTrue isAtSegment segment).read limit readers p
      = some ((), (p.past ls ((TypeRef.segmentLexemes segments).map .token) n).skip) := by
  induction segments generalizing p with
  | nil =>
      have hp : p = p.past ls [] n := by
        rw [Place.past, Place.flush, hpending, List.map_nil, List.append_nil, List.append_nil,
          ← show p.rest = ls from hrest, ← show p.fuel = n from hfuel, ← hpending]
      refine (whileTrue_stop (isAtSegment_other ?_)).trans ?_
      · rw [show p.upcoming = kindsOf p.rest from rfl, hrest]
        exact hls
      · conv => lhs; rw [hp]
        rfl
  | cons s segments ih =>
      have hahead : p.Ahead [] ⟨.dot, "."⟩ (⟨.id, s⟩ :: (TypeRef.segmentLexemes segments ++ ls)) :=
        ⟨hrest, List.forall_mem_nil _, rfl⟩
      have hup : p.upcoming = .dot :: .id :: kindsOf (TypeRef.segmentLexemes segments ++ ls) := by
        rw [show p.upcoming = kindsOf p.rest from rfl, hrest]
        rfl
      have hat : isAtSegment.read limit readers p = some (true, p.skip) := by
        rw [isAtSegment, read_bind_of (isAt_ahead hahead)]
        refine (nextIs_read .id p.skip).trans ?_
        rw [upcoming_skip, skip_skip, hup]
        rfl
      have hsegment : segment.read limit readers p.skip = some ((), p.past
          (TypeRef.segmentLexemes segments ++ ls) [.token ⟨.dot, "."⟩, .token ⟨.id, s⟩]
            (n + 2 * segments.length)) := by
        rw [segment, read_bind_of (take_ahead hahead (by rw [hfuel, List.length_cons]; rfl))]
        refine Eq.trans (expect_ahead (p.ahead_past (l := ⟨.id, s⟩) _ _ _ rfl) rfl rfl _) ?_
        rw [Place.past_past]
        rfl
      refine whileTrue_again hat hsegment ?_ ?_
      · rw [hrest]
        exact Nat.lt_succ_of_lt (Nat.lt_succ_self _)
      · refine (ih rfl rfl rfl).trans ?_
        rw [Place.past_past]
        rfl

theorem settles_typeMark (kind : Kind) : Settles limit readers (typeMark kind) :=
  settles_look.bind

variable {depth opened n : Nat} {ts : List Tree} {l : Lexeme} {ls : List Lexeme}

/-- A token is taken where nothing is set aside. -/
theorem take_clear :
    take.read limit readers ⟨l :: ls, [], ts, depth, opened, n + 1⟩
      = some ((), ⟨ls, [], ts ++ [.token l], depth, opened, n⟩) :=
  read_take_iff.mpr ⟨l, ls, n, rfl, rfl, by
    simp only [Place.taken, Place.flush, List.map_nil, List.append_nil]⟩

theorem typeMark_nullable {kind : Kind} (hkind : kind ≠ .nullableType) :
    (typeMark kind).read limit readers
        ⟨⟨.question, "?"⟩ :: ls, [], ts, depth, opened, n + 1⟩
      = some ((true, .nullableType),
        ⟨ls, [], [.node .nullableType (ts ++ [.token ⟨.question, "?"⟩])], depth, opened, n⟩) := by
  have hlook : look.read limit readers ⟨⟨.question, "?"⟩ :: ls, [], ts, depth, opened, n + 1⟩
      = some (some .question, ⟨⟨.question, "?"⟩ :: ls, [], ts, depth, opened, n + 1⟩) := rfl
  rw [typeMark, read_bind_of hlook]
  dsimp only
  rw [if_neg hkind, read_bind_of (enclose_read_iff.mpr ⟨_, take_clear, rfl⟩)]
  rfl

theorem typeMark_array (kind : Kind) :
    (typeMark kind).read limit readers
        ⟨⟨.bracketOpen, "["⟩ :: ⟨.bracketClose, "]"⟩ :: ls, [], ts, depth, opened, n + 2⟩
      = some ((true, .arrayType), ⟨ls, [], [.node .arrayType
        (ts ++ [.token ⟨.bracketOpen, "["⟩, .token ⟨.bracketClose, "]"⟩])], depth, opened, n⟩) := by
  let p : Place := ⟨⟨.bracketOpen, "["⟩ :: ⟨.bracketClose, "]"⟩ :: ls, [], ts, depth, opened, n + 2⟩
  have hlook : look.read limit readers p = some (some .bracketOpen, p) := rfl
  have hnext : (nextIs .bracketClose).read limit readers p = some (true, p) := by
    rw [nextIs_read]
    rfl
  have hmark : (take >>= fun _ => expect .bracketClose "`]`").read limit readers p
      = some ((), ⟨ls, [], ts ++ [.token ⟨.bracketOpen, "["⟩, .token ⟨.bracketClose, "]"⟩], depth,
        opened, n⟩) := by
    rw [read_bind_of take_clear, read_expect_iff]
    refine ⟨rfl, Eq.trans take_clear ?_⟩
    rw [List.append_assoc]
    rfl
  rw [typeMark, read_bind_of hlook]
  dsimp only
  rw [read_bind_of hnext, if_pos rfl, read_bind_of (enclose_read_iff.mpr ⟨_, hmark, rfl⟩)]
  rfl

theorem typeMark_stop {kind : Kind} {p : Place}
    (h : ∀ k, p.upcoming.head? = some k → continuesType k = false) :
    (typeMark kind).read limit readers p = some ((false, kind), p.skip) := by
  rw [typeMark, read_bind_of (look_read p)]
  split
  · next hhead => cases h _ hhead
  · next hhead => cases h _ hhead
  · rfl

/-- A written type is read as its tree; trivia behind it is set aside. -/
def ReadsType (readers : Readers) (t : TypeRef) : Prop :=
  ∀ (p : Place) (ls : List Lexeme) (n : Nat), p.rest = t.tree.leaves ++ ls →
    (∀ k, (kindsOf ls).head? = some k → continuesType k = false) →
    p.fuel = n + (kindsOf t.tree.leaves).length →
    readers .type p = some (some t.tree.kind, (p.past ls [t.tree] n).skip)

/-- The trees of type arguments in their brackets. -/
def argumentTrees (args : List TypeRef) : List Tree :=
  separated [leaf .comma ",", space] (TypeRef.trees args)

theorem leaves_generic (segments : List String) (args : List TypeRef) :
    (TypeRef.named segments (some args)).tree.leaves = Tree.leavesOf (TypeRef.dotted segments)
      ++ (⟨.lt, "<"⟩ :: (Tree.leavesOf (argumentTrees args) ++ [⟨.gt, ">"⟩])) := by
  have htree : (TypeRef.named segments (some args)).tree = .node .namedType
      (TypeRef.dotted segments ++ [.node .typeArgList
        (leaf .lt "<" :: argumentTrees args ++ [leaf .gt ">"])]) := rfl
  have harguments : Tree.leavesOf (leaf .lt "<" :: argumentTrees args ++ [leaf .gt ">"])
      = ⟨.lt, "<"⟩ :: (Tree.leavesOf (argumentTrees args) ++ [⟨.gt, ">"⟩]) := by
    rw [List.cons_append, Tree.leavesOf, Tree.leavesOf_append]
    rfl
  rw [htree, Tree.leaves, Tree.leavesOf_append, Tree.leavesOf, Tree.leaves, harguments,
    Tree.leavesOf, List.append_nil]

/-- An argument has fewer lexemes than the type. -/
theorem length_argument (segments : List String) {args : List TypeRef} {t : TypeRef}
    (ht : t ∈ args) :
    t.tree.leaves.length < (TypeRef.named segments (some args)).tree.leaves.length := by
  have hsum : ∀ us : List TypeRef, t ∈ us →
      t.tree.leaves.length ≤ (Tree.leavesOf (argumentTrees us)).length := by
    intro us
    induction us with
    | nil => exact fun h => nomatch h
    | cons u us ih =>
        intro h
        have hmore : ∃ ls, Tree.leavesOf (argumentTrees (u :: us)) = u.tree.leaves ++ ls ∧
            (us ≠ [] → (Tree.leavesOf (argumentTrees us)).length ≤ ls.length) := by
          cases us with
          | nil => exact ⟨[], rfl, fun h => absurd rfl h⟩
          | cons v vs =>
              refine ⟨⟨.comma, ","⟩ :: ⟨.whitespace, " "⟩ :: Tree.leavesOf (argumentTrees (v :: vs)),
                rfl, fun _ => ?_⟩
              exact Nat.le_add_right _ 2
        rcases hmore with ⟨ls, hls, hlength⟩
        rw [hls, List.length_append]
        rcases List.mem_cons.mp h with rfl | h
        · exact Nat.le_add_right _ _
        · exact Nat.le_trans (ih h) (Nat.le_trans (hlength (List.ne_nil_of_mem h)) (Nat.le_add_left _ _))
  rw [leaves_generic, List.length_append, List.length_cons, List.length_append]
  have := hsum args ht
  omega

theorem past_skip {p : Place} {trivia : List Lexeme} {ls : List Lexeme}
    (hrest : p.rest = trivia ++ ls) (htrivia : ∀ t ∈ trivia, t.isTrivia = true)
    (hls : ∀ l, ls.head? = some l → l.isTrivia = false) (ms : List Lexeme) (ts : List Tree) (n : Nat) :
    p.skip.past ms ts n = p.past ms (trivia.map .token ++ ts) n := by
  have hskip := skip_trivia htrivia hls
  rw [Place.skip, hrest, hskip.1, hskip.2]
  simp only [Place.past, Place.flush, List.map_append, List.append_assoc]

/-- A written type starts with a name or a keyword. -/
theorem starts_type {t : TypeRef} (ht : t.IsWritable) :
    ∃ l, t.tree.leaves.head? = some l ∧ (l.kind = .predefinedType ∨ l.kind = .id) := by
  match t with
  | .missing => exact absurd ht id
  | .predefined keyword =>
      rcases ht with ⟨word, rfl, _⟩
      exact ⟨_, rfl, .inl rfl⟩
  | .named segments none =>
      rcases List.exists_cons_of_ne_nil ht.1 with ⟨s, ss, rfl⟩
      refine ⟨⟨.id, s⟩, ?_, .inr rfl⟩
      rw [TypeRef.tree, Tree.leaves, TypeRef.leavesOf_dotted_cons]
      rfl
  | .named segments (some args) =>
      rcases List.exists_cons_of_ne_nil ht.1.1 with ⟨s, ss, rfl⟩
      refine ⟨⟨.id, s⟩, ?_, .inr rfl⟩
      rw [TypeRef.tree, Tree.leaves, Tree.leavesOf_append, TypeRef.leavesOf_dotted_cons]
      rfl
  | .array element =>
      rcases starts_type (t := element) ht with ⟨l, hhead, hl⟩
      refine ⟨l, ?_, hl⟩
      rw [TypeRef.tree, Tree.leaves, Tree.leavesOf, List.head?_append, hhead, Option.some_or]
  | .nullable inner =>
      rcases starts_type (t := inner) ht.1 with ⟨l, hhead, hl⟩
      refine ⟨l, ?_, hl⟩
      rw [TypeRef.tree, Tree.leaves, Tree.leavesOf, List.head?_append, hhead, Option.some_or]

theorem head_type {t : TypeRef} (ht : t.IsWritable) (ls : List Lexeme) :
    ∀ l, (t.tree.leaves ++ ls).head? = some l → l.isTrivia = false := by
  intro l hl
  rcases starts_type ht with ⟨m, hhead, hm⟩
  rw [List.head?_append, hhead, Option.some_or] at hl
  cases hl
  rcases hm with hm | hm
  · exact isTrivia_eq_false hm rfl
  · exact isTrivia_eq_false hm rfl

/-- A type is read behind trivia. -/
theorem ReadsType.behind (hsettles : ∀ p : Place, readers .type p.skip = readers .type p)
    {t : TypeRef} (ht : t.IsWritable) (hreads : ReadsType readers t) {p : Place}
    {trivia : List Lexeme} (htrivia : ∀ m ∈ trivia, m.isTrivia = true)
    (hrest : p.rest = trivia ++ (t.tree.leaves ++ ls))
    (hends : ∀ k, (kindsOf ls).head? = some k → continuesType k = false)
    (hfuel : p.fuel = n + (kindsOf t.tree.leaves).length) :
    readType.read limit readers p = some (some t.tree.kind,
      (p.past ls (trivia.map .token ++ [t.tree]) n).skip) := by
  have hskip := skip_trivia htrivia (head_type ht ls)
  rw [readType, read_call, ← hsettles,
    hreads p.skip ls n (by rw [Place.skip, hrest, hskip.2]) hends hfuel,
    past_skip hrest htrivia (head_type ht ls)]

/-- The arguments of a type are read up to the bracket that closes them. -/
theorem read_arguments (hsettles : ∀ p : Place, readers .type p.skip = readers .type p)
    (t : TypeRef) (args : List TypeRef) (hwritable : TypeRef.AreWritable (t :: args))
    (hargs : ∀ u ∈ t :: args, ReadsType readers u) {p : Place} (trivia : List Lexeme)
    (htrivia : ∀ m ∈ trivia, m.isTrivia = true)
    (hrest : p.rest = trivia ++ (Tree.leavesOf (argumentTrees (t :: args)) ++ ⟨.gt, ">"⟩ :: ls))
    (hfuel : p.fuel = n + (kindsOf (Tree.leavesOf (argumentTrees (t :: args)))).length) :
    (repeatWhile typeItem).read limit readers p = some ((),
      (p.past (⟨.gt, ">"⟩ :: ls) (trivia.map .token ++ argumentTrees (t :: args)) n).skip) := by
  have hitem : ∀ {p q : Place} {k : Kind}, readType.read limit readers p = some (some k, q.skip) →
      typeItem.read limit readers p = (eat .comma).read limit readers q := by
    intro p q k hread
    rw [typeItem, read_bind_of hread, settles_eat]
  induction args generalizing t p trivia with
  | nil =>
      have hone : argumentTrees [t] = [t.tree] := rfl
      rw [hone, Tree.leavesOf, Tree.leavesOf, List.append_nil] at hrest hfuel
      have hends : ∀ k, (kindsOf (⟨.gt, ">"⟩ :: ls)).head? = some k → continuesType k = false := by
        intro k hk
        cases hk
        rfl
      refine repeatWhile_stop ?_
      rw [hitem ((hargs t List.mem_cons_self).behind hsettles hwritable.1 htrivia hrest hends hfuel),
        hone]
      exact eat_other (p.ahead_past (l := ⟨.gt, ">"⟩) _ _ _ rfl) nofun
  | cons u us ih =>
      have hmore : argumentTrees (t :: u :: us)
          = t.tree :: leaf .comma "," :: space :: argumentTrees (u :: us) := rfl
      have hleaves : Tree.leavesOf (argumentTrees (t :: u :: us)) = t.tree.leaves ++
          (⟨.comma, ","⟩ :: ⟨.whitespace, " "⟩ :: Tree.leavesOf (argumentTrees (u :: us))) := by
        rw [hmore, Tree.leavesOf]
        rfl
      rw [hleaves, List.append_assoc] at hrest
      rw [hleaves, kindsOf_append, List.length_append] at hfuel
      have hends : ∀ k, (kindsOf ((⟨.comma, ","⟩ :: ⟨.whitespace, " "⟩ ::
          Tree.leavesOf (argumentTrees (u :: us))) ++ ⟨.gt, ">"⟩ :: ls)).head? = some k →
          continuesType k = false := by
        intro k hk
        cases hk
        rfl
      have hcount : p.fuel = (n + (kindsOf (Tree.leavesOf (argumentTrees (u :: us)))).length + 1)
          + (kindsOf t.tree.leaves).length := by
        rw [hfuel, kindsOf_cons rfl, kindsOf_cons_trivia rfl, List.length_cons]
        omega
      have hround : typeItem.read limit readers p = some (true, p.past (⟨.whitespace, " "⟩ ::
          (Tree.leavesOf (argumentTrees (u :: us)) ++ ⟨.gt, ">"⟩ :: ls))
          (trivia.map .token ++ [t.tree] ++ [.token ⟨.comma, ","⟩])
          (n + (kindsOf (Tree.leavesOf (argumentTrees (u :: us)))).length)) := by
        rw [hitem ((hargs t List.mem_cons_self).behind hsettles hwritable.1 htrivia hrest hends
          hcount)]
        refine (eat_ahead (p.ahead_past (l := ⟨.comma, ","⟩) _ _ _ rfl) rfl rfl).trans ?_
        rw [Place.past_past]
        rfl
      refine repeatWhile_again hround ?_ ?_
      · rw [hrest, Place.rest_past, List.length_append, List.length_append, List.length_append,
          List.length_cons, List.length_cons, List.length_cons, List.length_append]
        omega
      · refine (ih u hwritable.2 (fun v hv => hargs v (List.mem_cons_of_mem t hv))
          [⟨.whitespace, " "⟩] (List.forall_mem_singleton.mpr rfl) rfl rfl).trans ?_
        rw [Place.past_past, hmore]
        simp only [List.append_assoc, List.cons_append, List.nil_append]
        rfl

theorem settles_expect (k : Kind) (what : String) : Settles limit readers (expect k what) :=
  (settles_eat k).bind

theorem read_typeArguments (hsettles : ∀ p : Place, readers .type p.skip = readers .type p)
    (t : TypeRef) (args : List TypeRef) (hwritable : TypeRef.AreWritable (t :: args))
    (hargs : ∀ u ∈ t :: args, ReadsType readers u) {p : Place}
    (hrest : p.rest = ⟨.lt, "<"⟩ :: (Tree.leavesOf (argumentTrees (t :: args)) ++ ⟨.gt, ">"⟩ :: ls))
    (hfuel : p.fuel = n + (kindsOf (Tree.leavesOf (argumentTrees (t :: args)))).length + 2) :
    typeArguments.read limit readers p = some ((), p.past ls
      [.node .typeArgList (leaf .lt "<" :: argumentTrees (t :: args) ++ [leaf .gt ">"])] n) := by
  have hopen : take.read limit readers p.fresh = some ((), p.fresh.past
      (Tree.leavesOf (argumentTrees (t :: args)) ++ ⟨.gt, ">"⟩ :: ls) [.token ⟨.lt, "<"⟩]
      (n + 1 + (kindsOf (Tree.leavesOf (argumentTrees (t :: args)))).length)) :=
    take_of hrest (by rw [show p.fresh.fuel = p.fuel from rfl, hfuel]; omega)
  refine node_read_iff.mpr ⟨p.fresh.past ls
    (leaf .lt "<" :: argumentTrees (t :: args) ++ [leaf .gt ">"]) n, ?_, rfl⟩
  rw [read_bind_of hopen,
    read_bind_of (read_arguments hsettles t args hwritable hargs [] nofun rfl rfl),
    settles_expect, Place.past_past]
  refine (expect_ahead (p.fresh.ahead_past (l := ⟨.gt, ">"⟩) _ _ _ rfl) rfl rfl _).trans ?_
  rw [Place.past_past]
  rfl

/-- A dotted name without arguments is read. -/
theorem read_name (s : String) (segments : List String) {p : Place}
    (hrest : p.rest = ⟨.id, s⟩ :: (TypeRef.segmentLexemes segments ++ ls))
    (hends : ∀ k, (kindsOf ls).head? = some k → continuesName k = false)
    (hfuel : p.fuel = n + (2 * segments.length + 1)) :
    namedType.read limit readers p = some ((),
      (p.past ls [.node .namedType (TypeRef.dotted (s :: segments))] n).skip) := by
  have hname : take.read limit readers p.fresh = some ((), p.fresh.past
      (TypeRef.segmentLexemes segments ++ ls) [.token ⟨.id, s⟩] (n + 2 * segments.length)) :=
    take_of hrest hfuel
  have hdot : (kindsOf ls).head? ≠ some .dot := fun h => nomatch hends _ h
  have hlt : (kindsOf ls).head? ≠ some .lt := fun h => nomatch hends _ h
  refine node_read_iff.mpr ⟨(p.fresh.past ls (TypeRef.dotted (s :: segments)) n).skip, ?_, rfl⟩
  have hdotted : [.token ⟨.id, s⟩] ++ (TypeRef.segmentLexemes segments).map .token
      = TypeRef.dotted (s :: segments) := (TypeRef.dotted_cons s segments).symm
  rw [read_bind_of hname, read_bind_of (read_segments segments rfl rfl hdot rfl), Place.past_past,
    hdotted, read_bind_of (isAt_read .lt _), upcoming_skip, skip_skip,
    show (p.fresh.past ls _ n).upcoming = kindsOf ls from rfl, beq_eq_false_iff_ne.mpr hlt]
  rfl

theorem length_kindsOf_segments (segments : List String) :
    (kindsOf (TypeRef.segmentLexemes segments)).length = 2 * segments.length := by
  induction segments with
  | nil => rfl
  | cons s segments ih =>
      have hmore : TypeRef.segmentLexemes (s :: segments)
          = ⟨.dot, "."⟩ :: ⟨.id, s⟩ :: TypeRef.segmentLexemes segments := rfl
      rw [hmore, kindsOf_cons rfl, kindsOf_cons rfl, List.length_cons, List.length_cons, ih,
        List.length_cons]
      omega

/-- A dotted name with arguments is read. -/
theorem read_generic (hsettles : ∀ p : Place, readers .type p.skip = readers .type p)
    (s : String) (segments : List String) (t : TypeRef) (args : List TypeRef)
    (hwritable : TypeRef.AreWritable (t :: args))
    (hargs : ∀ u ∈ t :: args, ReadsType readers u) {p : Place}
    (hrest : p.rest = (TypeRef.named (s :: segments) (some (t :: args))).tree.leaves ++ ls)
    (hfuel : p.fuel = n
      + (kindsOf (TypeRef.named (s :: segments) (some (t :: args))).tree.leaves).length) :
    namedType.read limit readers p = some ((),
      p.past ls [(TypeRef.named (s :: segments) (some (t :: args))).tree] n) := by
  rw [leaves_generic, TypeRef.leavesOf_dotted_cons, List.cons_append] at hrest hfuel
  rw [kindsOf_cons rfl, kindsOf_append, kindsOf_cons rfl, kindsOf_append] at hfuel
  have hname : take.read limit readers p.fresh = some ((), p.fresh.past
      (TypeRef.segmentLexemes segments ++ (⟨.lt, "<"⟩ ::
        (Tree.leavesOf (argumentTrees (t :: args)) ++ ⟨.gt, ">"⟩ :: ls))) [.token ⟨.id, s⟩]
      (n + (kindsOf (Tree.leavesOf (argumentTrees (t :: args)))).length + 2
        + 2 * segments.length)) := by
    refine take_of ?_ ?_
    · rw [show p.fresh.rest = p.rest from rfl, hrest]
      simp only [List.cons_append, List.append_assoc, List.nil_append]
    · rw [show p.fresh.fuel = p.fuel from rfl, hfuel]
      simp only [List.length_cons, List.length_append, length_kindsOf_segments]
      have hgt : (kindsOf [⟨.gt, ">"⟩]).length = 1 := rfl
      omega
  have hdotted : [.token ⟨.id, s⟩] ++ (TypeRef.segmentLexemes segments).map .token
      = TypeRef.dotted (s :: segments) := (TypeRef.dotted_cons s segments).symm
  have hlt : (kindsOf (⟨.lt, "<"⟩ :: (Tree.leavesOf (argumentTrees (t :: args)) ++
      ⟨.gt, ">"⟩ :: ls))).head? ≠ some .dot := by
    rw [kindsOf_cons rfl]
    exact nofun
  refine node_read_iff.mpr ⟨p.fresh.past ls (TypeRef.dotted (s :: segments) ++ [.node .typeArgList
    (leaf .lt "<" :: argumentTrees (t :: args) ++ [leaf .gt ">"])]) n, ?_, rfl⟩
  rw [read_bind_of hname, read_bind_of (read_segments segments rfl rfl hlt rfl), Place.past_past,
    hdotted, skip_past_token _ _ _ _ rfl, read_bind_of (isAt_read .lt _),
    skip_past_token _ _ _ _ rfl]
  refine (read_typeArguments hsettles t args hwritable hargs rfl rfl).trans ?_
  rw [Place.past_past]

/-- A type from its first token on. -/
def typeCore : Script (Option Kind) := do
  match ← look with
  | some .predefinedType =>
    node .predefType take
    typeMarks .predefType
  | some .id =>
    namedType
    typeMarks .namedType
  | _ =>
    report .expectedType
    return none

theorem typeScript_eq : typeScript = perform .skipTrivia >>= fun _ => frame typeCore := rfl

theorem typeScript_read {p r : Place} {a : Option Kind} (hp : p.IsSettled)
    (h : typeCore.read limit readers p.fresh = some (a, r)) :
    typeScript.read limit readers p
      = some (a, { r with output := p.flush.output ++ r.output }) := by
  have hskip : (perform .skipTrivia).read limit readers p = some ((), p) := by
    rw [read_perform, Op.read, hp.skip_eq]
  rw [typeScript_eq, read_bind_of hskip, frame, Script.read,
    show Grouping.frame.enter p = p.fresh from rfl, h]
  rfl

/-- Where one mark is read, the loop over marks goes on behind it. -/
theorem typeMarks_again {kind outer : Kind} {p q s : Place} {r : Option Kind × Place}
    (hq : q.skip = p.skip) (hmark : (typeMark kind).read limit readers p = some ((true, outer), s))
    (hlength : s.rest.length < p.skip.rest.length)
    (h : (typeMarks outer).read limit readers s = some r) :
    (typeMarks kind).read limit readers q = some r := by
  refine loop_again ?_ ?_ h
  · rw [← settles_typeMark kind q, hq, settles_typeMark]
    exact hmark
  · rw [← hq] at hlength
    exact Nat.lt_of_lt_of_le hlength (List.dropWhile_suffix _).length_le

/-- What is read of a type before the marks that may follow it. -/
theorem read_typeCore (hsettles : ∀ p : Place, readers .type p.skip = readers .type p) {N : Nat}
    (hargs : ∀ u : TypeRef, u.IsWritable → u.tree.leaves.length < N → ReadsType readers u)
    (t : TypeRef) (ht : t.IsWritable) (hN : t.tree.leaves.length ≤ N) {p : Place}
    {ls : List Lexeme} {n : Nat} (hrest : p.rest = t.tree.leaves ++ ls)
    (hends : ∀ k, (kindsOf ls).head? = some k → continuesName k = false)
    (hfuel : p.fuel = n + (kindsOf t.tree.leaves).length) :
    ∃ q, q.skip = (p.fresh.past ls [t.tree] n).skip ∧ ∀ r,
      (typeMarks t.tree.kind).read limit readers q = some r →
        typeCore.read limit readers p.fresh = some r := by
  have hskip : p.fresh.skip = p.fresh := Place.IsSettled.skip_eq fun l hl => by
    rw [show p.fresh.rest = p.rest from rfl, hrest] at hl
    exact head_type ht ls l hl
  have hlook : ∀ {l : Lexeme} {ms : List Lexeme}, p.rest = l :: ms → l.isTrivia = false →
      look.read limit readers p.fresh = some (some l.kind, p.fresh) := by
    intro l ms hl htoken
    have hahead : p.fresh.Ahead [] l ms := ⟨hl, nofun, htoken⟩
    rw [look_ahead hahead, hskip]
  match t with
  | .missing => exact absurd ht id
  | .predefined keyword =>
      rcases ht with ⟨word, rfl, _⟩
      have hnode : (node .predefType take).read limit readers p.fresh = some ((),
          p.fresh.past ls [.node .predefType [.token ⟨.predefinedType, word⟩]] n) :=
        node_read_iff.mpr ⟨_, take_of hrest hfuel, rfl⟩
      refine ⟨_, rfl, fun r hr => ?_⟩
      rw [typeCore, read_bind_of (hlook hrest rfl)]
      dsimp only
      rw [read_bind_of hnode]
      exact hr
  | .named segments none =>
      rcases List.exists_cons_of_ne_nil ht.1 with ⟨s, ss, rfl⟩
      rw [TypeRef.tree, Tree.leaves, TypeRef.leavesOf_dotted_cons] at hrest hfuel
      rw [kindsOf_cons rfl, List.length_cons, length_kindsOf_segments] at hfuel
      refine ⟨_, skip_skip _, fun r hr => ?_⟩
      rw [typeCore, read_bind_of (hlook hrest rfl)]
      dsimp only
      rw [read_bind_of (read_name s ss (p := p.fresh) hrest hends hfuel)]
      exact hr
  | .named segments (some args) =>
      rcases List.exists_cons_of_ne_nil ht.1.1 with ⟨s, ss, rfl⟩
      rcases List.exists_cons_of_ne_nil ht.2.1 with ⟨u, us, rfl⟩
      have hreads : ∀ v ∈ u :: us, ReadsType readers v := fun v hv =>
        hargs v (TypeRef.AreWritable.of_mem ht.2.2 hv)
          (Nat.lt_of_lt_of_le (length_argument _ hv) hN)
      have hfirst : ∃ ms, p.rest = ⟨.id, s⟩ :: ms := by
        rw [hrest, TypeRef.tree, Tree.leaves, Tree.leavesOf_append, TypeRef.leavesOf_dotted_cons]
        exact ⟨_, rfl⟩
      rcases hfirst with ⟨ms, hms⟩
      refine ⟨_, rfl, fun r hr => ?_⟩
      rw [typeCore, read_bind_of (hlook hms rfl)]
      dsimp only
      rw [read_bind_of (read_generic hsettles s ss u us ht.2.2 hreads (p := p.fresh) hrest hfuel)]
      exact hr
  | .array element =>
      have hleaves : (TypeRef.array element).tree.leaves
          = element.tree.leaves ++ [⟨.bracketOpen, "["⟩, ⟨.bracketClose, "]"⟩] := by
        rw [TypeRef.tree, Tree.leaves, Tree.leavesOf]
        rfl
      rw [hleaves] at hN
      rw [hleaves, List.append_assoc] at hrest
      rw [hleaves, kindsOf_append, List.length_append] at hfuel
      rw [List.length_append] at hN
      rcases read_typeCore hsettles hargs element ht (by omega) hrest (fun k hk => by cases hk; rfl)
        (n := n + 2) (by rw [hfuel, Nat.add_right_comm]; rfl) with ⟨q, hq, hcore⟩
      refine ⟨p.fresh.past ls [(TypeRef.array element).tree] n, rfl, fun r hr => ?_⟩
      refine hcore r (typeMarks_again hq (typeMark_array _) ?_ hr)
      exact Nat.lt_succ_of_lt (Nat.lt_succ_self _)
  | .nullable inner =>
      have hleaves : (TypeRef.nullable inner).tree.leaves
          = inner.tree.leaves ++ [⟨.question, "?"⟩] := by
        rw [TypeRef.tree, Tree.leaves, Tree.leavesOf]
        rfl
      rw [hleaves] at hN
      rw [hleaves, List.append_assoc] at hrest
      rw [hleaves, kindsOf_append, List.length_append] at hfuel
      rw [List.length_append] at hN
      rcases read_typeCore hsettles hargs inner ht.1 (by omega) hrest (fun k hk => by cases hk; rfl)
        (n := n + 1) (by rw [hfuel, Nat.add_right_comm]; rfl) with ⟨q, hq, hcore⟩
      refine ⟨p.fresh.past ls [(TypeRef.nullable inner).tree] n, rfl, fun r hr => ?_⟩
      refine hcore r (typeMarks_again hq (typeMark_nullable ht.2) ?_ hr)
      exact Nat.lt_succ_self _

/-- A type is read as its tree where its arguments are. -/
theorem readsType_script (hsettles : ∀ p : Place, readers .type p.skip = readers .type p) {N : Nat}
    (hargs : ∀ u : TypeRef, u.IsWritable → u.tree.leaves.length < N → ReadsType readers u)
    {t : TypeRef} (ht : t.IsWritable) (hN : t.tree.leaves.length ≤ N) {p : Place}
    {ls : List Lexeme} {n : Nat} (hrest : p.rest = t.tree.leaves ++ ls)
    (hends : ∀ k, (kindsOf ls).head? = some k → continuesType k = false)
    (hfuel : p.fuel = n + (kindsOf t.tree.leaves).length) :
    typeScript.read limit readers p = some (some t.tree.kind, (p.past ls [t.tree] n).skip) := by
  have hname : ∀ k, (kindsOf ls).head? = some k → continuesName k = false := by
    intro k hk
    have h := hends k hk
    rw [continuesType, Bool.or_eq_false_iff, Bool.or_eq_false_iff] at h
    exact h.1.1
  rcases read_typeCore hsettles hargs t ht hN hrest hname hfuel with ⟨q, hq, hcore⟩
  have hstop : ∀ k, q.upcoming.head? = some k → continuesType k = false := by
    rw [← upcoming_skip, hq, upcoming_skip]
    exact hends
  have hmarks : (typeMarks t.tree.kind).read limit readers q = some (some t.tree.kind, q.skip) :=
    loop_stop (typeMark_stop hstop)
  have hsettled : p.IsSettled := fun l hl => head_type ht ls l (hrest ▸ hl)
  rw [typeScript_read hsettled (hcore _ hmarks), hq]
  rfl

end Types

theorem settles_type (limit : Option Nat) (m : Nat) (p : Place) :
    readProduction limit m .type p.skip = readProduction limit m .type p := by
  cases m with
  | zero => rfl
  | succ m =>
      have hscript : ∀ p, readProduction limit (m + 1) .type p
          = typeScript.read limit (readProduction limit m) p := fun _ => rfl
      rw [hscript, hscript, typeScript_eq, read_bind, read_bind, read_perform, read_perform, Op.read,
        Op.read, skip_skip]

/-- A written type is read as its tree. -/
theorem readsType_readProduction (limit : Option Nat) (m : Nat) {t : TypeRef} (ht : t.IsWritable)
    (hm : t.tree.leaves.length ≤ m) : ReadsType (readProduction limit m) t := by
  induction m generalizing t with
  | zero =>
      rcases starts_type ht with ⟨l, hhead, _⟩
      rw [List.length_eq_zero_iff.mp (Nat.le_zero.mp hm)] at hhead
      cases hhead
  | succ m ih =>
      intro p ls n hrest hends hfuel
      exact readsType_script (settles_type limit m) (fun u hu hlength => ih hu (by omega)) ht hm hrest
        hends hfuel

/-- A name before a brace is read as a type. -/
theorem readsNames_readProduction (limit : Option Nat) (m : Nat) :
    ReadsNames (readProduction limit (m + 1)) := by
  intro p l trivia ls n hrest hl htrivia hbrace hfuel
  rcases l with ⟨kind, name⟩
  cases show kind = .id from hl
  rcases Option.map_eq_some_iff.mp hbrace with ⟨brace, hhead, hkind⟩
  have hnext : (kindsOf (trivia ++ ls)).head? = some .braceOpen := by
    rcases List.head?_eq_some_iff.mp hhead with ⟨ms, rfl⟩
    rw [kindsOf_append, kindsOf_trivia htrivia, kindsOf_cons (isTrivia_eq_false hkind rfl), hkind]
    rfl
  have hskip : ∀ ts, (p.fresh.past (trivia ++ ls) ts n).skip = ⟨ls, trivia, ts, p.depth, p.opened, n⟩ := by
    intro ts
    have hsplit := skip_trivia htrivia fun m hm => by
      rw [hhead] at hm
      cases hm
      exact isTrivia_eq_false hkind rfl
    rw [Place.skip, Place.rest_past, hsplit.1, hsplit.2]
    rfl
  have hahead : p.fresh.Ahead [] ⟨.id, name⟩ (trivia ++ ls) := ⟨hrest, List.forall_mem_nil _, rfl⟩
  have hsettled : p.IsSettled := fun m hm => by
    rw [hrest] at hm
    cases hm
    rfl
  have hends : ∀ k, (kindsOf (trivia ++ ls)).head? = some k → continuesName k = false := by
    intro k hk
    rw [hnext] at hk
    cases hk
    rfl
  have hstop : ∀ k, (p.fresh.past (trivia ++ ls) [.node .namedType [.token ⟨.id, name⟩]] n).skip.upcoming.head?
      = some k → continuesType k = false := by
    intro k hk
    rw [upcoming_skip] at hk
    cases hnext.symm.trans hk
    rfl
  have hcore : typeCore.read limit (readProduction limit m) p.fresh = some (some .namedType,
      (p.fresh.past (trivia ++ ls) [.node .namedType [.token ⟨.id, name⟩]] n).skip) := by
    have hfresh : p.fresh.skip = p.fresh := hsettled.skip_eq (p := p.fresh)
    rw [typeCore, read_bind_of (look_ahead hahead), hfresh]
    dsimp only
    rw [read_bind_of (read_name name [] (p := p.fresh) hrest hends hfuel)]
    refine (loop_stop (typeMark_stop hstop)).trans ?_
    rw [skip_skip]
    rfl
  have hscript : readProduction limit (m + 1) .type p
      = typeScript.read limit (readProduction limit m) p := rfl
  rw [hscript, typeScript_read hsettled hcore, hskip]

end Grammar

end Nominal
