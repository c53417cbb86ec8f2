import Mathlib.Data.List.Chain
import Nominal.Proofs.Positioned
import Nominal.Proofs.Relexed

/-!
# Lexemes Tile a Source

Reading a text has two steps. The first is a scan. From where it stands it takes the longest
text that a pattern matches, or, if none matches anything, as much as could be read before no
pattern went on. The second step joins pieces that were rejected in a row.

What comes out is described from both ends. Along the text, lexemes follow each other without
a gap, so each of them starts and ends between two characters. Along the pieces, a match is a
lexeme of its own, and rejected pieces with none next to them are one lexeme of garbage. No
lexeme is empty, so no two of them start at the same place, and garbage can be told by what
it covers.

## Main definitions

* `Span.Tiles`: Spans that cover a stretch one behind the other.
* `IsScan`: The pieces that a text is scanned into.
* `IsGathered`: Lexemes of pieces, one for each match and one for each run of rejected pieces.
* `IsRejectedRun`: A span that rejected pieces in a row cover, with no others next to them.

## Theorems

* `isScan_pieces`: A text is cut into the longest matches and into what no pattern reads.
* `isGathered_coalesce`: The lexemes of pieces are gathered from them.
* `lex_tiles`: Lexemes cover the source one behind the other, and garbage is what a run of
  rejected pieces covers.
-/

namespace Nominal

namespace Text

/-- Spans that cover the stretch between two offsets one behind the other, none without extent. -/
def Span.Tiles (start : Nat) : List Span → Nat → Prop
  | [], stop => start = stop
  | s :: ss, stop => s.start = start ∧ s.start < s.stop ∧ Tiles s.stop ss stop

end Text

namespace Syntax

open Text (Span)
open String (utf8Len)

/-! ### Scanning -/

/-- Some pattern matches a text, which is of the kind `k` then. -/
def IsMatch (text : List Char) (k : Kind) : Prop :=
  ∃ q, Pattern.run .start text = some q ∧ q.kind? (String.ofList text) = some k

/-- The pieces that a text is scanned into. A match is the longest one. Where no pattern matches
    anything, the piece is as long as a pattern could be read, and one character at least. -/
inductive IsScan : List Char → List Piece → Prop where
  | nil : IsScan [] []
  | matched {word rest : List Char} {k : Kind} {ps : List Piece} (hmatch : IsMatch word k)
    (hlongest : ∀ more, more ≠ [] → more <+: rest → ∀ j, ¬ IsMatch (word ++ more) j)
    (hrest : IsScan rest ps) : IsScan (word ++ rest) (.matched ⟨k, String.ofList word⟩ :: ps)
  | rejected {word rest : List Char} {ps : List Piece} (hsome : word ≠ [])
    (hnone : ∀ text, text <+: word ++ rest → ∀ k, ¬ IsMatch text k)
    (hread : word.length = 1 ∨ (Pattern.run .start word).isSome)
    (hover : ∀ c, rest.head? = some c → Pattern.run .start (word ++ [c]) = none)
    (hrest : IsScan rest ps) : IsScan (word ++ rest) (.rejected word :: ps)

namespace Pattern

/-- What has been read when there is no step left. -/
theorem reach_split (p : Pattern) (cs : List Char) :
    ∃ xs ys q, cs = xs ++ ys ∧ xs.length = (reach p cs).length ∧ p.run xs = some q ∧
      ∀ c, ys.head? = some c → q.step c = none := by
  induction cs generalizing p with
  | nil => exact ⟨[], [], p, rfl, rfl, rfl, fun c hc => nomatch hc⟩
  | cons c cs ih =>
      cases hstep : p.step c with
      | none =>
          refine ⟨[], c :: cs, p, rfl, ?_, rfl, fun d hd => ?_⟩
          · rw [reach, hstep]
            rfl
          · cases hd
            exact hstep
      | some r =>
          rcases ih r with ⟨xs, ys, q, rfl, hlength, hrun, hstops⟩
          refine ⟨c :: xs, ys, q, rfl, ?_, ?_, hstops⟩
          · -- How much is read does not depend on what has been matched on the way.
            rw [reach, hstep, List.length_cons, hlength]
            cases haccepted : (reach r (xs ++ ys)).accepted <;> simp only [haccepted]
          · rw [run, hstep]
            exact hrun

/-- Where nothing is matched, no state on the way matches. -/
theorem isFinal_of_run {p q : Pattern} {xs ys : List Char}
    (h : (reach p (xs ++ ys)).accepted = none) (hrun : p.run xs = some q) : q.isFinal = false := by
  induction xs generalizing p with
  | nil =>
      cases hrun
      exact isFinal_of_rejects h
  | cons x xs ih =>
      rcases Option.bind_eq_some_iff.mp hrun with ⟨r, hstep, hrun⟩
      exact ih ((rejects_cons (isFinal_of_rejects h)).mp h r hstep) hrun

end Pattern

/-- Where nothing is matched, no text from there on is a match. -/
theorem not_isMatch {cs text : List Char} (h : (reach .start cs).accepted = none)
    (htext : text <+: cs) (k : Kind) : ¬ IsMatch text k := by
  rintro ⟨q, hrun, hkind⟩
  rcases htext with ⟨rest, rfl⟩
  have hfinal := Pattern.isSome_kind? q (String.ofList text)
  rw [Pattern.isFinal_of_run h hrun, hkind] at hfinal
  cases hfinal

/-- What is carried on behind a match that stops is no match. -/
theorem not_isMatch_append {word rest more : List Char} {q : Pattern}
    (hrun : Pattern.run .start word = some q) (hstops : q.Stops rest) (hmore : more ≠ [])
    (hstarts : more <+: rest) (k : Kind) : ¬ IsMatch (word ++ more) k := by
  rintro ⟨r, hmatch, hkind⟩
  rcases hstarts with ⟨rest, rfl⟩
  rw [Pattern.run_append, hrun, Option.bind_some] at hmatch
  cases more with
  | nil => exact hmore rfl
  | cons d more =>
      -- The first further step leads to a state from which nothing is matched.
      rcases Option.bind_eq_some_iff.mp hmatch with ⟨p, hstep, hmatch⟩
      have hfinal := Pattern.isSome_kind? r (String.ofList (word ++ d :: more))
      rw [Pattern.isFinal_of_run (hstops.rejects hstep) hmatch, hkind] at hfinal
      cases hfinal

/-- Where nothing is matched, what is cut off is as long as a pattern could be read. -/
theorem cut_rejected {c : Char} {cs : List Char} (h : (reach .start (c :: cs)).accepted = none) :
    ∃ xs ys, cs = xs ++ ys ∧ Piece.cut c cs = (.rejected (c :: xs), ys) ∧
      ((c :: xs).length = 1 ∨ (Pattern.run .start (c :: xs)).isSome) ∧
      ∀ d, ys.head? = some d → Pattern.run .start (c :: xs ++ [d]) = none := by
  rcases Pattern.reach_split .start (c :: cs) with ⟨word, ys, q, hsplit, hlength, hrun, hstops⟩
  have hcut : Piece.cut c cs = (.rejected ((c :: cs).take (max 1 word.length)),
      (c :: cs).drop (max 1 word.length)) := by
    simp only [Piece.cut, h, hlength]
  cases word with
  | nil =>
      -- No pattern starts with the character, which is rejected alone.
      cases hrun
      rw [List.nil_append] at hsplit
      subst hsplit
      have hstep : Pattern.step .start c = none := hstops c rfl
      refine ⟨[], cs, rfl, hcut, .inl rfl, fun d _ => ?_⟩
      rw [List.cons_append, Pattern.run, hstep, Option.bind_none]
  | cons x xs =>
      rw [List.cons_append, List.cons.injEq] at hsplit
      rcases hsplit with ⟨rfl, rfl⟩
      have hmax : max 1 (c :: xs).length = (c :: xs).length :=
        Nat.max_eq_right (Nat.succ_le_succ (Nat.zero_le xs.length))
      rw [hmax, ← List.cons_append, List.take_left' rfl, List.drop_left' rfl] at hcut
      refine ⟨xs, ys, rfl, hcut, .inr (Option.isSome_of_eq_some hrun), fun d hd => ?_⟩
      rw [Pattern.run_append, hrun, Option.bind_some, Pattern.run, hstops d hd, Option.bind_none]

/-- A text is cut into the longest matches and into what no pattern reads. -/
theorem isScan_pieces (cs : List Char) : IsScan cs (pieces cs) := by
  -- Induction on the length of the text, since a piece may have any number of characters.
  induction hn : cs.length using Nat.strongRecOn generalizing cs with
  | ind n ih =>
    subst hn
    cases cs with
    | nil => exact .nil
    | cons c cs =>
      have hbehind : ∀ {xs ys : List Char}, cs = xs ++ ys → IsScan ys (pieces ys) := by
        rintro xs ys rfl
        refine ih ys.length ?_ ys rfl
        rw [List.length_cons, List.length_append]
        omega
      cases h : (reach .start (c :: cs)).accepted with
      | none =>
          rcases cut_rejected h with ⟨xs, ys, hsplit, hcut, hread, hover⟩
          rw [pieces_cons, hcut, hsplit, ← List.cons_append]
          refine .rejected (List.cons_ne_nil c xs) (fun text htext k => ?_) hread hover
            (hbehind hsplit)
          rw [List.cons_append, ← hsplit] at htext
          exact not_isMatch h htext k
      | some r =>
          rcases Piece.split_accepted h with ⟨xs, ys, q, k, hsplit, hrun, hstops, hkind⟩
          rw [pieces_cons, hsplit, Piece.cut_matched hrun hstops hkind, ← List.cons_append]
          exact .matched ⟨q, hrun, hkind⟩ (fun more => not_isMatch_append hrun hstops)
            (hbehind hsplit)

/-- What a pattern matches is no garbage. -/
theorem IsMatch.ne_garbage {text : List Char} {k : Kind} (h : IsMatch text k) : k ≠ .garbage := by
  rintro rfl
  rcases h with ⟨q, hrun, hkind⟩
  cases q with
  | word =>
      have hword : (Kind.reserved? (String.ofList text)).getD .id = .garbage :=
        Option.some.inj hkind
      cases hreserved : Kind.reserved? (String.ofList text) with
      | none =>
          rw [hreserved] at hword
          cases hword
      | some j =>
          rw [hreserved] at hword
          cases hword
          have hkeywords : Kind.garbage ∉ Kind.keywords := by decide
          rcases Pattern.reserved_cases hreserved with hpredefined | ⟨hmem, _⟩
          · cases hpredefined
          · exact hkeywords hmem
  | operator j =>
      cases hkind
      have hspelled := Pattern.isSpelled_of_run hrun
      rw [Pattern.IsSpelled] at hspelled
      cases hspelled
  | _ => cases hkind

/-! ### Gathering -/

/-- Whether a piece is a text that no pattern matches. -/
def Piece.isRejected : Piece → Bool
  | .matched _ => false
  | .rejected _ => true

/-- Lexemes of pieces, a lexeme for each match and one for each run of rejected pieces. -/
inductive IsGathered : List Piece → List Lexeme → Prop where
  | nil : IsGathered [] []
  | matched {l : Lexeme} {ps : List Piece} {ls : List Lexeme} (hl : l.kind ≠ .garbage)
    (h : IsGathered ps ls) : IsGathered (.matched l :: ps) (l :: ls)
  | rejected {run behind : List Piece} {ls : List Lexeme} (hsome : run ≠ [])
    (hrun : ∀ p ∈ run, p.isRejected = true)
    (hbehind : ∀ p, behind.head? = some p → p.isRejected = false) (h : IsGathered behind ls) :
    IsGathered (run ++ behind) (⟨.garbage, String.ofList (run.flatMap Piece.chars)⟩ :: ls)

variable {ps before run behind : List Piece} {ls front back : List Lexeme}

/-- Pieces that start with a match start with no garbage. -/
theorem IsGathered.head (h : IsGathered ps ls)
    (hps : ∀ p, ps.head? = some p → p.isRejected = false) :
    ∀ l, ls.head? = some l → l.kind ≠ .garbage := by
  intro l hl
  cases h with
  | nil => cases hl
  | matched hkind h =>
      cases hl
      exact hkind
  | @rejected run behind _ hsome hrun _ _ =>
      rcases List.exists_cons_of_ne_nil hsome with ⟨p, more, rfl⟩
      cases (hrun p List.mem_cons_self).symm.trans (hps p rfl)

/-- What is rejected before gathered lexemes is joined with garbage that they start with. -/
theorem IsGathered.reject (h : IsGathered ps ls) (text : List Char) :
    IsGathered (.rejected text :: ps) (joined text ls) := by
  have halone : (∀ p, ps.head? = some p → p.isRejected = false) →
      IsGathered (.rejected text :: ps) (⟨.garbage, String.ofList text⟩ :: ls) := by
    intro hhead
    have hgathered := IsGathered.rejected (List.cons_ne_nil (.rejected text) [])
      (List.forall_mem_singleton.mpr rfl) hhead h
    rwa [List.singleton_append, List.flatMap_singleton] at hgathered
  cases h with
  | nil => exact halone fun p hp => nomatch hp
  | @matched l ps ls hl h =>
      have hplain : joined text (l :: ls) = ⟨.garbage, String.ofList text⟩ :: l :: ls := by
        unfold joined
        split
        · next hgarbage =>
            cases hgarbage
            exact absurd rfl hl
        · rfl
      rw [hplain]
      refine halone fun p hp => ?_
      cases hp
      rfl
  | @rejected run behind ls hsome hrun hbehind h =>
      have hlonger : ∀ p ∈ .rejected text :: run, p.isRejected = true :=
        List.forall_mem_cons.mpr ⟨rfl, hrun⟩
      have hgathered := IsGathered.rejected (List.cons_ne_nil _ _) hlonger hbehind h
      rwa [List.flatMap_cons, String.ofList_append] at hgathered

/-- The lexemes of pieces are gathered from them. -/
theorem isGathered_coalesce (hps : ∀ l, .matched l ∈ ps → l.kind ≠ .garbage) :
    IsGathered ps (coalesce ps) := by
  -- Pieces are joined from the last one on, so a run becomes longer at its front.
  induction ps with
  | nil => exact .nil
  | cons p ps ih =>
      have hrest := ih fun l hl => hps l (List.mem_cons_of_mem p hl)
      cases p with
      | matched l => exact .matched (hps l List.mem_cons_self) hrest
      | rejected text =>
          rw [coalesce_rejected]
          exact hrest.reject text

/-- No garbage stands behind garbage. -/
theorem IsGathered.isChain (h : IsGathered ps ls) :
    ls.IsChain fun l m => ¬(l.kind = .garbage ∧ m.kind = .garbage) := by
  induction h with
  | nil => exact .nil
  | matched hl _ ih => exact ih.cons fun m _ hboth => hl hboth.1
  | rejected _ _ hbehind h ih => exact ih.cons fun m hm hboth => h.head hbehind m hm hboth.2

/-- Gathered lexemes cover the characters of the pieces. -/
theorem IsGathered.textOf (h : IsGathered ps ls) :
    Lexeme.textOf ls = String.ofList (ps.flatMap Piece.chars) := by
  induction h with
  | nil => rfl
  | matched _ _ ih =>
      rw [Lexeme.textOf, ih, List.flatMap_cons, Piece.chars, String.ofList_append,
        String.ofList_toList]
  | rejected _ _ _ _ ih => rw [Lexeme.textOf, ih, List.flatMap_append, String.ofList_append]

/-- The number of bytes that some pieces cover. -/
def Piece.widthOf (ps : List Piece) : Nat := utf8Len (ps.flatMap Piece.chars)

theorem IsGathered.widthOf (h : IsGathered ps ls) : Lexeme.widthOf ls = Piece.widthOf ps := by
  rw [Lexeme.widthOf_eq, h.textOf, String.utf8ByteSize_ofList, Piece.widthOf]

/-! ### Runs of rejected pieces -/

/-- Rejected pieces in a row, with none next to them. -/
structure IsRun (before run behind : List Piece) : Prop where
  ne_nil : run ≠ []
  rejected : ∀ p ∈ run, p.isRejected = true
  before : ∀ p, before.getLast? = some p → p.isRejected = false
  behind : ∀ p, behind.head? = some p → p.isRejected = false

/-- A span that rejected pieces in a row cover, with no others next to them. -/
def IsRejectedRun (ps : List Piece) (s : Span) : Prop :=
  ∃ before run behind, ps = before ++ (run ++ behind) ∧ IsRun before run behind ∧
    s = Span.ofWidth (Piece.widthOf before) (Piece.widthOf run)

/-- A run stays one where no rejected piece is put right before it. -/
theorem IsRun.prepend {more : List Piece} (h : IsRun before run behind)
    (hmore : (∀ p, (before ++ (run ++ behind)).head? = some p → p.isRejected = false) ∨
      ∀ p, more.getLast? = some p → p.isRejected = false) :
    IsRun (more ++ before) run behind := by
  refine ⟨h.ne_nil, h.rejected, fun p hp => ?_, h.behind⟩
  cases before with
  | nil =>
      -- What has been put in front ends right before the run.
      rw [List.append_nil] at hp
      rcases hmore with hmore | hmore
      · rcases List.exists_cons_of_ne_nil h.ne_nil with ⟨q, rest, rfl⟩
        cases (h.rejected q List.mem_cons_self).symm.trans (hmore q rfl)
      · exact hmore p hp
  | cons q before =>
      rw [List.getLast?_append_of_ne_nil _ (List.cons_ne_nil q before)] at hp
      exact h.before p hp

/-- What garbage has been gathered from. -/
theorem IsGathered.split {l : Lexeme} (h : IsGathered ps ls) (hls : ls = front ++ l :: back)
    (hl : l.kind = .garbage) :
    ∃ before run behind, ps = before ++ (run ++ behind) ∧ IsRun before run behind ∧
      IsGathered before front ∧ l.text = String.ofList (run.flatMap Piece.chars) := by
  induction h generalizing front with
  | nil => cases front <;> cases hls
  | @matched m ps ls hm h ih =>
      cases front with
      | nil =>
          cases hls
          exact absurd hl hm
      | cons x front =>
          cases hls
          rcases ih rfl with ⟨before, run, behind, rfl, hrun, hbefore, htext⟩
          have hlast : ∀ p, [Piece.matched m].getLast? = some p → p.isRejected = false := by
            rintro p ⟨⟩
            rfl
          exact ⟨.matched m :: before, run, behind, rfl, hrun.prepend (.inr hlast),
            .matched hm hbefore, htext⟩
  | @rejected first rest ls hsome hfirst hrest h ih =>
      cases front with
      | nil =>
          cases hls
          exact ⟨[], first, rest, rfl, ⟨hsome, hfirst, (fun p hp => nomatch hp), hrest⟩, .nil, rfl⟩
      | cons x front =>
          cases hls
          rcases ih rfl with ⟨before, run, behind, rfl, hrun, hbefore, htext⟩
          refine ⟨first ++ before, run, behind, (List.append_assoc ..).symm,
            hrun.prepend (.inl hrest), .rejected hsome hfirst (fun p hp => hrest p ?_) hbefore, htext⟩
          rw [List.head?_append, hp, Option.some_or]

/-- A run that stands before gathered lexemes is garbage before them. -/
theorem coalesce_run (hsome : run ≠ []) (hrun : ∀ p ∈ run, p.isRejected = true)
    (hhead : ∀ l, (coalesce behind).head? = some l → l.kind ≠ .garbage) :
    coalesce (run ++ behind) =
      ⟨.garbage, String.ofList (run.flatMap Piece.chars)⟩ :: coalesce behind := by
  induction run with
  | nil => exact absurd rfl hsome
  | cons p run ih =>
      rw [List.forall_mem_cons] at hrun
      cases p with
      | matched l => cases hrun.1
      | rejected text =>
          rw [List.cons_append, coalesce_rejected]
          by_cases hnil : run = []
          · -- The last piece of the run is not joined with what stands behind it.
            rw [hnil, List.nil_append, List.flatMap_singleton, Piece.chars]
            unfold joined
            split
            · next more ls hls => exact absurd rfl (hhead _ (List.head?_eq_some_iff.mpr ⟨ls, hls⟩))
            · rfl
          · rw [ih hnil hrun.2, List.flatMap_cons, String.ofList_append]
            rfl

/-- There is one way to gather lexemes from pieces. -/
theorem IsGathered.coalesce_eq (h : IsGathered ps ls) : coalesce ps = ls := by
  induction h with
  | nil => rfl
  | matched _ _ ih => rw [coalesce, ih]
  | rejected hsome hrun hbehind h ih =>
      rw [coalesce_run hsome hrun (ih.symm ▸ h.head hbehind), ih]

/-- Behind a match, pieces are gathered as they are alone. -/
theorem IsGathered.append (h : IsGathered before front)
    (hlast : ∀ p, before.getLast? = some p → p.isRejected = false) (hps : IsGathered ps ls) :
    IsGathered (before ++ ps) (front ++ ls) := by
  induction h with
  | nil => exact hps
  | @matched l before front hl _ ih =>
      refine .matched hl (ih fun p hp => hlast p ?_)
      rw [List.getLast?_cons, hp, Option.getD_some]
  | @rejected run behind _ hsome hrun hbehind h ih =>
      -- A run that ends before a match has this match behind it.
      cases behind with
      | nil =>
          rw [List.append_nil] at hlast
          have hend := hlast _ (List.getLast?_eq_getLast_of_ne_nil hsome)
          cases (hrun _ (List.getLast_mem hsome)).symm.trans hend
      | cons q behind =>
          have hgathered := ih fun p hp => hlast p (by
            rw [List.getLast?_append_of_ne_nil _ (List.cons_ne_nil q behind), hp])
          rw [List.append_assoc]
          exact .rejected hsome hrun hbehind hgathered

/-- A run becomes garbage, with the lexemes of the other pieces around it. -/
theorem IsRun.coalesce_eq (h : IsRun before run behind)
    (hps : ∀ l, .matched l ∈ before ++ (run ++ behind) → l.kind ≠ .garbage) :
    coalesce (before ++ (run ++ behind)) = coalesce before ++
      ⟨.garbage, String.ofList (run.flatMap Piece.chars)⟩ :: coalesce behind := by
  have hbefore : IsGathered before (coalesce before) :=
    isGathered_coalesce fun l hl => hps l (List.mem_append_left _ hl)
  have hbehind : IsGathered behind (coalesce behind) :=
    isGathered_coalesce fun l hl => hps l (List.mem_append_right _ (List.mem_append_right _ hl))
  exact (hbefore.append h.before (.rejected h.ne_nil h.rejected h.behind hbehind)).coalesce_eq

/-- A rejected run is one lexeme of garbage. -/
theorem IsRejectedRun.split {s : Span} (h : IsRejectedRun ps s)
    (hps : ∀ l, .matched l ∈ ps → l.kind ≠ .garbage) :
    ∃ front l back, coalesce ps = front ++ l :: back ∧ l.kind = .garbage ∧
      s = Span.ofWidth (Lexeme.widthOf front) l.width := by
  rcases h with ⟨before, run, behind, rfl, hrun, rfl⟩
  have hbefore : IsGathered before (coalesce before) :=
    isGathered_coalesce fun l hl => hps l (List.mem_append_left _ hl)
  refine ⟨coalesce before, ⟨.garbage, String.ofList (run.flatMap Piece.chars)⟩, coalesce behind,
    hrun.coalesce_eq hps, rfl, ?_⟩
  rw [hbefore.widthOf, Lexeme.width, String.utf8ByteSize_ofList]
  rfl

/-- Garbage covers a rejected run. -/
theorem IsGathered.isRejectedRun {l : Lexeme} (h : IsGathered ps (front ++ l :: back))
    (hl : l.kind = .garbage) :
    IsRejectedRun ps (Span.ofWidth (Lexeme.widthOf front) l.width) := by
  rcases h.split rfl hl with ⟨before, run, behind, hsplit, hrun, hbefore, htext⟩
  refine ⟨before, run, behind, hsplit, hrun, ?_⟩
  rw [hbefore.widthOf, Lexeme.width, htext, String.utf8ByteSize_ofList]
  rfl

/-! ### Places -/

/-- Where a lexeme of a list is placed. -/
theorem mem_placed {start : Nat} {l : Lexeme} {s : Span} :
    (l, s) ∈ Lexeme.placed start ls ↔ ∃ front back, ls = front ++ l :: back ∧
      s = Span.ofWidth (start + Lexeme.widthOf front) l.width := by
  induction ls generalizing start with
  | nil =>
      constructor
      · exact nofun
      · rintro ⟨front, back, hsplit, _⟩
        cases front <;> cases hsplit
  | cons m ls ih =>
      rw [Lexeme.placed, List.mem_cons, ih]
      constructor
      · rintro (heq | ⟨front, back, rfl, rfl⟩)
        · cases heq
          exact ⟨[], ls, rfl, rfl⟩
        · exact ⟨m :: front, back, rfl, by rw [Lexeme.widthOf, Nat.add_assoc]⟩
      · rintro ⟨front, back, hsplit, rfl⟩
        cases front with
        | nil =>
            cases hsplit
            exact .inl rfl
        | cons x front =>
            cases hsplit
            exact .inr ⟨front, back, rfl, by rw [Lexeme.widthOf, Nat.add_assoc]⟩

/-- Lexemes that are not empty cover a stretch one behind the other. -/
theorem tiles_placed (hpos : ∀ l ∈ ls, 0 < l.width) (start : Nat) :
    Span.Tiles start ((Lexeme.placed start ls).map Prod.snd) (start + Lexeme.widthOf ls) := by
  induction ls generalizing start with
  | nil => rfl
  | cons l ls ih =>
      rw [List.forall_mem_cons] at hpos
      refine ⟨rfl, Nat.lt_add_of_pos_right hpos.1, ?_⟩
      rw [Lexeme.widthOf, ← Nat.add_assoc]
      exact ih hpos.2 (start + l.width)

/-- Lexemes that are not empty start at different places. -/
theorem eq_of_widthOf_eq {front' back' : List Lexeme} {l l' : Lexeme}
    (hpos : ∀ x ∈ front ++ l :: back, 0 < x.width)
    (hsplit : front ++ l :: back = front' ++ l' :: back')
    (hwidth : Lexeme.widthOf front = Lexeme.widthOf front') : l = l' := by
  induction front generalizing front' with
  | nil =>
      cases front' with
      | nil => exact (List.cons.inj hsplit).1
      | cons x front' =>
          -- Then `l` stands before `l'` and has some width.
          cases hsplit
          have hx := hpos l List.mem_cons_self
          rw [Lexeme.widthOf, Lexeme.widthOf] at hwidth
          omega
  | cons x front ih =>
      rw [List.cons_append, List.forall_mem_cons] at hpos
      cases front' with
      | nil =>
          cases hsplit
          rw [Lexeme.widthOf, Lexeme.widthOf] at hwidth
          omega
      | cons y front' =>
          rw [List.cons_append, List.cons_append, List.cons.injEq] at hsplit
          rcases hsplit with ⟨rfl, hsplit⟩
          rw [Lexeme.widthOf, Lexeme.widthOf] at hwidth
          exact ih hpos.2 hsplit (Nat.add_left_cancel hwidth)

/-- Lexemes end between two characters. -/
theorem isValid_widthOf (front back : List Lexeme) :
    (⟨Lexeme.widthOf front⟩ : String.Pos.Raw).IsValid (Lexeme.textOf (front ++ back)) := by
  rw [Text.Position.isValid_iff]
  refine ⟨charsOf front, charsOf back, ?_, ?_⟩
  · rw [toList_textOf, charsOf_append]
  · rw [Lexeme.widthOf_eq, ← toList_textOf, String.utf8Len_toList]

theorem isValid_of_mem_placed {t : Lexeme × Span} (ht : t ∈ Lexeme.placed 0 ls) :
    (⟨t.2.start⟩ : String.Pos.Raw).IsValid (Lexeme.textOf ls) ∧
      (⟨t.2.stop⟩ : String.Pos.Raw).IsValid (Lexeme.textOf ls) := by
  rcases t with ⟨l, s⟩
  rcases mem_placed.mp ht with ⟨front, back, rfl, rfl⟩
  have hstop := isValid_widthOf (front ++ [l]) back
  rw [List.append_assoc, List.singleton_append, Lexeme.widthOf_append, Lexeme.widthOf,
    Lexeme.widthOf, Nat.add_zero] at hstop
  rw [Nat.zero_add]
  exact ⟨isValid_widthOf front (l :: back), hstop⟩

/-! ### The lexemes of a source -/

/-- No matched piece of a text is garbage. -/
theorem IsScan.ne_garbage {cs : List Char} (h : IsScan cs ps) :
    ∀ l, .matched l ∈ ps → l.kind ≠ .garbage := by
  induction h with
  | nil => exact nofun
  | matched hmatch _ _ ih =>
      intro l hl
      rcases List.mem_cons.mp hl with hl | hl
      · cases hl
        exact hmatch.ne_garbage
      · exact ih l hl
  | rejected _ _ _ _ _ ih =>
      intro l hl
      rcases List.mem_cons.mp hl with hl | hl
      · cases hl
      · exact ih l hl

/-- The lexemes of a source cover it one behind the other from its first to its last byte, none of
    them empty, and each starts and ends between two characters. Garbage never stands behind
    garbage: it is exactly what rejected pieces in a row cover, as many as there are. -/
theorem lex_tiles (source : String) :
    Span.Tiles 0 ((Lexeme.placed 0 (lex source)).map Prod.snd) source.utf8ByteSize ∧
      (∀ t ∈ Lexeme.placed 0 (lex source), (⟨t.2.start⟩ : String.Pos.Raw).IsValid source ∧
        (⟨t.2.stop⟩ : String.Pos.Raw).IsValid source) ∧
      (lex source).IsChain (fun l m => ¬(l.kind = .garbage ∧ m.kind = .garbage)) ∧
      IsScan source.toList (pieces source.toList) ∧
      (∀ t ∈ Lexeme.placed 0 (lex source),
        t.1.kind = .garbage ↔ IsRejectedRun (pieces source.toList) t.2) ∧
      ∀ s, IsRejectedRun (pieces source.toList) s →
        ∃ t ∈ Lexeme.placed 0 (lex source), t.2 = s := by
  have hscan := isScan_pieces source.toList
  have hgathered : IsGathered (pieces source.toList) (lex source) :=
    isGathered_coalesce hscan.ne_garbage
  have hpos := pos_of_mem_lex source
  refine ⟨?_, fun t ht => ?_, hgathered.isChain, hscan, ?_, fun s hs => ?_⟩
  · have htiles := tiles_placed hpos 0
    rwa [Nat.zero_add, Lexeme.widthOf_eq, textOf_lex] at htiles
  · have hvalid := isValid_of_mem_placed ht
    rwa [textOf_lex] at hvalid
  · rintro ⟨l, s⟩ ht
    rcases mem_placed.mp ht with ⟨front, back, hsplit, hs⟩
    rw [Nat.zero_add] at hs
    constructor
    · intro hl
      rw [hsplit] at hgathered
      exact hs ▸ hgathered.isRejectedRun hl
    · intro hrun
      -- The run becomes a lexeme that starts where this one does, so it is this one.
      rcases hrun.split hscan.ne_garbage with ⟨front', l', back', hsplit', hl', hs'⟩
      have hstart := congrArg Span.start (hs.symm.trans hs')
      rw [eq_of_widthOf_eq (hsplit ▸ hpos) (hsplit.symm.trans hsplit') hstart]
      exact hl'
  · rcases hs.split hscan.ne_garbage with ⟨front, l, back, hsplit, _, hplace⟩
    refine ⟨(l, s), mem_placed.mpr ⟨front, back, hsplit, ?_⟩, rfl⟩
    rw [hplace, Nat.zero_add]

/-- Two characters that no pattern reads and a string that is never closed are one lexeme. -/
example : Lexeme.placed 0 (lex "x §é\"y") =
    [(⟨.id, "x"⟩, ⟨0, 1⟩), (⟨.whitespace, " "⟩, ⟨1, 2⟩), (⟨.garbage, "§é\"y"⟩, ⟨2, 8⟩)] := by
  decide +kernel

end Syntax

end Nominal
