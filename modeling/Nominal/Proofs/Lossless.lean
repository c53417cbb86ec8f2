import Nominal.Proofs.Runs

/-!
# A Tree Holds Its Source

A tree gives back the source that it was made from, whatever is wrong with that source.
The reading of lexemes cuts the text and drops nothing, and the parser only ever moves a
lexeme from what is to come, over what is set aside, to what is collected. Groups change
how the collected trees are nested and leave alone the order of their leaves.

A run could still stop early. Only the outermost production decides when a file is over,
and it does so where no lexeme is left or where a limit was met. In the second case there
is no tree at all.

## Main definitions

* `State.material`: The lexemes that are collected, set aside, or still to come.

## Theorems

* `relation_material`: No run loses, doubles or moves a lexeme.
* `relation_met`, `relation_lost`: A lost run stays lost, by the limit that was met first.
* `exec_fileScript`: The run of a whole file ends with all lexemes collected.
* `textOf_lex`: The lexemes of a source cover it.
* `pos_of_mem_lex`: No lexeme of a source is empty.
* `parseWith_lossless`: The leaves of a tree are the lexemes of its source.
-/

namespace Nominal

namespace Grammar

open Syntax (Lexeme Tree)

/-- The lexemes that are collected, set aside, or still to come, in this order. -/
def State.material (s : State) : List Lexeme := Tree.leavesOf s.output ++ s.pending ++ s.rest

@[simp]
theorem material_skipTrivia (s : State) : s.skipTrivia.material = s.material := by
  simp only [State.material, State.skipTrivia, List.append_assoc, List.takeWhile_append_dropWhile]

@[simp]
theorem material_flush (s : State) : s.flush.material = s.material := by
  simp only [State.material, State.flush, Tree.leavesOf_append, Tree.leavesOf_map_token,
    List.append_nil]

/-- No operation loses, doubles or moves a lexeme. -/
theorem material_run {setting : Setting} {op : Op} {s t : State} {a : op.Answer}
    (h : op.run setting s = .ok a t) : t.material = s.material := by
  cases moves_run h with
  | stay ho hp hr => simp only [State.material, ho, hp, hr]
  | skip ho hp hr =>
      rw [← material_skipTrivia s]
      simp only [State.material, ho, hp, hr]
      rfl
  | keep ho hp hr =>
      rw [← material_skipTrivia s, ← material_flush s.skipTrivia]
      simp only [State.material, ho, hp, hr]
      rfl
  | take l ls hs ho hp hr =>
      rw [← material_flush s]
      simp only [State.material, ho, hp, hr, Tree.leavesOf_append, Tree.leavesOf, Tree.leaves,
        State.flush, hs, List.append_nil, List.append_assoc, List.singleton_append]

/-- What the body of a group has kept, the group keeps: its two ends nest the collected
    trees and leave alone the order of their leaves. -/
theorem material_finish {g : Grouping} {s t : State}
    (h : t.material = (g.begin s).material) : (g.finish s t).material = s.material := by
  cases g with
  | enclose kind => simpa only [Grouping.begin, Grouping.finish, State.material, Tree.leavesOf,
      Tree.leaves, List.append_nil] using h
  | node kind | frame =>
      rw [← material_flush s]
      simp only [Grouping.begin, State.material, State.flush, Tree.leavesOf, List.nil_append] at h
      simp only [Grouping.finish, State.material, State.flush, Tree.leavesOf_append, Tree.leavesOf,
        Tree.leaves, List.append_nil, List.append_assoc]
      rw [← h, List.append_assoc]

/-- No run loses, doubles or moves a lexeme. -/
theorem relation_material (setting : Setting) :
    Relation setting fun s t => t.material = s.material where
  refl _ := rfl
  trans hst htu := htu.trans hst
  op _ _ _ _ h := material_run h
  group _ _ _ h := material_finish h

theorem lost_reportAt (s : State) (offset : Nat) (d : Diagnostic) :
    (s.reportAt offset d).lost = s.lost := by
  unfold State.reportAt
  split <;> rfl

/-- Where a limit is met, some limit has been met first. -/
theorem isSome_or_met (lost : Option LimitError) (met : LimitError) :
    (lost <|> some met).isSome := by
  cases lost <;> rfl

theorem lost_spend {s : State} {limit : LimitError} (h : s.lost = some limit) :
    s.spend.lost = some limit := by
  unfold State.spend
  split
  · exact h
  · dsimp only
    rw [h]
    rfl
  · exact h

/-- An operation of a lost run leaves the limit that was met first. -/
theorem lost_run {setting : Setting} {op : Op} {s t : State} {a : op.Answer} {limit : LimitError}
    (h : op.run setting s = .ok a t) (hs : s.lost = some limit) : t.lost = some limit := by
  cases acts_run h with
  | take => exact lost_spend hs
  | report | semicolonBehind | semicolonAhead | unclosed =>
      rw [lost_reportAt]
      exact hs
  | tooDeep =>
      dsimp only
      rw [hs]
      rfl
  | _ => exact hs

/-- The limit that was met first stays the one. -/
theorem relation_met (setting : Setting) (limit : LimitError) :
    Relation setting fun s t => s.lost = some limit → t.lost = some limit where
  refl _ h := h
  trans hst htu h := htu (hst h)
  op _ _ _ _ h := lost_run h
  group g s t h := by
    cases g <;> exact h

/-- A lost run stays lost. -/
theorem relation_lost (setting : Setting) :
    Relation setting fun s t => s.lost.isSome → t.lost.isSome where
  refl _ h := h
  trans hst htu h := htu (hst h)
  op _ s t _ h hs := by
    rcases Option.isSome_iff_exists.mp hs with ⟨limit, hmet⟩
    rw [lost_run h hmet, Option.isSome_some]
  group g s t h := by
    cases g <;> exact h

/-- A round of items outside of braces is the last one only at the end of the file, or in a
    lost run. -/
theorem exec_item_last {setting : Setting} {productions : Productions} {s t : State}
    (h : (item false).exec setting productions s = .ok false t) :
    t.rest = [] ∨ t.lost.isSome := by
  rw [item, exec_bind, exec_atEnd, Outcome.andThen_ok] at h
  by_cases hover : (s.skipTrivia.rest.isEmpty || s.skipTrivia.lost.isSome) = true
  · rw [if_pos hover] at h
    cases h
    rw [Bool.or_eq_true, List.isEmpty_iff] at hover
    exact hover
  · -- Every other branch reads something and answers that there may be more.
    rw [if_neg hover, exec_bind] at h
    rcases Outcome.andThen_eq_ok h with ⟨kind, u, _, hbranch⟩
    split at hbranch
    · exact absurd (exec_then_answer hbranch) Bool.false_ne_true
    · exact absurd (exec_then_answer hbranch) Bool.false_ne_true
    · exact absurd (exec_then_answer hbranch) Bool.false_ne_true
    · exact absurd (exec_then_answer hbranch) Bool.false_ne_true
    · simp only [Bool.false_and, Bool.false_eq_true, if_false] at hbranch
      split at hbranch
      · exact absurd (exec_then_answer hbranch) Bool.false_ne_true
      · exact absurd (exec_then_answer hbranch) Bool.false_ne_true
    · exact absurd (exec_then_answer hbranch) Bool.false_ne_true

/-- The run of a whole file ends with all lexemes collected, unless a limit was met. -/
theorem exec_fileScript {setting : Setting} {n : Nat} {s t : State} {u : Unit}
    (h : fileScript.exec setting (runProduction setting n) s = .ok u t) (hlost : t.lost = none) :
    Tree.leavesOf t.output = s.material := by
  rw [fileScript, exec_bind] at h
  rcases Outcome.andThen_eq_ok h with ⟨_, r, hitems, hkeep⟩
  rw [exec_call] at hitems
  rw [exec_perform] at hkeep
  cases hkeep
  have hmaterial := (relation_material setting).runProduction hitems
  cases n with
  | zero => cases hitems
  | succ n =>
      rcases exec_repeatWhile_last hitems with ⟨q, hround⟩
      rcases exec_item_last hround with hrest | hmet
      · -- Nothing is left, so keeping the trivia collects all that was set aside.
        have hkept := material_flush r.skipTrivia
        rw [material_skipTrivia, hmaterial] at hkept
        rw [← hkept]
        simp only [State.material, State.flush, State.skipTrivia, hrest, List.dropWhile_nil,
          List.append_nil]
      · rw [Option.isSome_iff_exists] at hmet
        rcases hmet with ⟨limit, hmet⟩
        cases hlost.symm.trans hmet

end Grammar

namespace Syntax

/-- The pieces of a text cover it if there may be enough of them. -/
theorem chars_piecesUpTo {n : Nat} {text : List Char} (h : text.length ≤ n) :
    (piecesUpTo n text).flatMap Piece.chars = text := by
  induction n generalizing text with
  | zero =>
      rw [List.length_eq_zero_iff.mp (Nat.le_zero.mp h)]
      rfl
  | succ n ih =>
      cases text with
      | nil => rfl
      | cons c cs =>
          rw [List.length_cons] at h
          have hcut := Piece.length_cut c cs
          rw [piecesUpTo, List.flatMap_cons, ih (by omega), Piece.cut_append]

/-- Joining rejected pieces changes no text. -/
theorem textOf_coalesce (ps : List Piece) :
    Lexeme.textOf (coalesce ps) = String.ofList (ps.flatMap Piece.chars) := by
  induction ps with
  | nil => rfl
  | cons p ps ih =>
      rw [List.flatMap_cons, String.ofList_append, ← ih]
      cases p with
      | matched lexeme => rw [Piece.chars, String.ofList_toList]; rfl
      | rejected text =>
          simp only [coalesce, Piece.chars]
          split
          · next more ls hls => rw [hls]; simp only [Lexeme.textOf, String.append_assoc]
          · rfl

/-- The lexemes of a source cover it. -/
theorem textOf_lex (source : String) : Lexeme.textOf (lex source) = source := by
  rw [lex, textOf_coalesce, pieces, chars_piecesUpTo (Nat.le_refl _), String.ofList_toList]

theorem chars_cut_ne_nil (c : Char) (cs : List Char) : (Piece.cut c cs).1.chars ≠ [] := by
  intro hnil
  have hlength := congrArg List.length (Piece.cut_append c cs)
  have hrest := Piece.length_cut c cs
  rw [hnil, List.nil_append, List.length_cons] at hlength
  omega

theorem chars_ne_nil_of_mem {n : Nat} {text : List Char} :
    ∀ p ∈ piecesUpTo n text, p.chars ≠ [] := by
  induction n generalizing text with
  | zero => exact nofun
  | succ n ih =>
      cases text with
      | nil => exact nofun
      | cons c cs =>
          rw [piecesUpTo, List.forall_mem_cons]
          exact ⟨chars_cut_ne_nil c cs, ih⟩

theorem pos_of_mem_coalesce {ps : List Piece} (h : ∀ p ∈ ps, p.chars ≠ []) :
    ∀ l ∈ coalesce ps, 0 < l.width := by
  have hpos : ∀ text : String, text ≠ "" → 0 < text.utf8ByteSize := by
    intro text htext
    rw [Nat.pos_iff_ne_zero]
    exact fun hzero => htext (String.utf8ByteSize_eq_zero_iff.mp hzero)
  induction ps with
  | nil => exact nofun
  | cons p ps ih =>
      rw [List.forall_mem_cons] at h
      have hrest := ih h.2
      cases p with
      | matched lexeme =>
          rw [coalesce, List.forall_mem_cons]
          refine ⟨hpos _ fun hempty => h.1 ?_, hrest⟩
          rw [Piece.chars, hempty]
          rfl
      | rejected text =>
          have hne : 0 < (String.ofList text).utf8ByteSize := by
            refine hpos _ fun hempty => h.1 ?_
            rw [Piece.chars, ← String.toList_ofList (l := text), hempty]
            rfl
          rw [coalesce]
          split
          · next more ls hls =>
              rw [hls, List.forall_mem_cons] at hrest
              rw [List.forall_mem_cons]
              refine ⟨?_, hrest.2⟩
              rw [Lexeme.width, String.utf8ByteSize_append]
              omega
          · rw [List.forall_mem_cons]
            exact ⟨hne, hrest⟩

/-- No lexeme of a source is empty. -/
theorem pos_of_mem_lex (source : String) : ∀ l ∈ lex source, 0 < l.width :=
  pos_of_mem_coalesce chars_ne_nil_of_mem

end Syntax

namespace Grammar

open Syntax (Lexeme Tree)

/-- The leaves of the tree of some lexemes are these lexemes. -/
theorem leaves_parseLexemes {limits : Limits} {lexemes : List Lexeme} {parsed : Parsed}
    (h : parseLexemes limits lexemes = .ok parsed) : parsed.tree.leaves = lexemes := by
  rw [parseLexemes] at h
  split at h
  · next u t hrun =>
      rw [State.result] at h
      split at h
      · cases h
      · next hlost =>
          cases h
          exact exec_fileScript hrun hlost
  · cases h
  · cases h

/-- The leaves of a tree are the lexemes of its source, each once and in order, and so its
    text is the source. This holds under all limits and for sources with any mistakes. -/
theorem parseWith_lossless {limits : Limits} {source : String} {parsed : Parsed}
    (h : parseWith limits source = .ok parsed) :
    parsed.tree.leaves = Syntax.lex source ∧ parsed.tree.text = source := by
  have hleaves : parsed.tree.leaves = Syntax.lex source := leaves_parseLexemes h
  refine ⟨hleaves, ?_⟩
  rw [Tree.text, hleaves, Syntax.textOf_lex]

/-- A source that ends in the middle of an expression has a tree all the same. -/
theorem parseWith_lossless_unfinished :
    ∃ parsed, parseWith defaultLimits "x +" = .ok parsed ∧
      parsed.tree.leaves = Syntax.lex "x +" ∧ parsed.tree.text = "x +" := by
  have hok : (parseWith defaultLimits "x +").isOk = true := by decide +kernel
  cases hparse : parseWith defaultLimits "x +" with
  | ok parsed => exact ⟨parsed, rfl, parseWith_lossless hparse⟩
  | error failure =>
      rw [hparse] at hok
      cases hok

end Grammar

end Nominal
