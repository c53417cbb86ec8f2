import Nominal.Proofs.Cuts
import Nominal.Proofs.Splice
import Nominal.Proofs.Lossless

/-!
# The Lexemes of an Altered Text

The text of lexemes that an extraction has put more lexemes between is cut into just these
lexemes. What is put in must be read whole for this: a name ends where no letter follows, a
blank where no blank does. And the lexemes that were there before must be read as before,
although the text behind them has changed.

## Main definitions

* `Lexeme.IsInset`: A lexeme that is read whole before a character.
* `AreInset`: Lexemes that are read one after another.
* `Edit.IsInset`: What an extraction adds can be put into a text.

## Theorems

* `lexemes_append`: Lexemes that can be put into a text are cut off one by one.
* `lex_spliced`: The text of spliced lexemes is cut into these lexemes.
-/

namespace Nominal

open Syntax

namespace Syntax

/-- A lexeme that is read whole where `next` is the next character, and that ends no comment and
    no verbatim string. -/
def Lexeme.IsInset (l : Lexeme) (next : Option Char) : Prop :=
  ∃ q, Pattern.run .start l.text.toList = some q ∧ q.kind? l.text = some l.kind ∧
    (∀ d, next = some d → q.step d = none) ∧ ∀ d ∈ l.text.toList, isPlain d = true

/-- The characters of some lexemes. -/
def charsOf (ls : List Lexeme) : List Char := ls.flatMap fun l => l.text.toList

theorem charsOf_cons (l : Lexeme) (ls : List Lexeme) :
    charsOf (l :: ls) = l.text.toList ++ charsOf ls := List.flatMap_cons

theorem charsOf_append (ls ms : List Lexeme) : charsOf (ls ++ ms) = charsOf ls ++ charsOf ms :=
  List.flatMap_append

theorem toList_textOf (ls : List Lexeme) : (Lexeme.textOf ls).toList = charsOf ls := by
  induction ls with
  | nil => rfl
  | cons l ls ih => rw [Lexeme.textOf, String.toList_append, ih, charsOf_cons]

/-- Lexemes that are read one after another where `next` is the character behind them. -/
def AreInset : List Lexeme → Option Char → Prop
  | [], _ => True
  | l :: ls, next => l.IsInset ((charsOf ls).head?.or next) ∧ AreInset ls next

theorem areInset_append {ls ms : List Lexeme} {next : Option Char}
    (hls : AreInset ls ((charsOf ms).head?.or next)) (hms : AreInset ms next) :
    AreInset (ls ++ ms) next := by
  induction ls with
  | nil => exact hms
  | cons l ls ih =>
      have hnext : (charsOf (ls ++ ms)).head?.or next
          = (charsOf ls).head?.or ((charsOf ms).head?.or next) := by
        rw [charsOf_append, List.head?_append, Option.or_assoc]
      exact ⟨hnext ▸ hls.1, ih hls.2⟩

theorem AreInset.plain {ls : List Lexeme} {next : Option Char} (h : AreInset ls next) :
    ∀ d ∈ charsOf ls, isPlain d = true := by
  induction ls with
  | nil => exact nofun
  | cons l ls ih =>
      intro d hd
      rw [charsOf_cons, List.mem_append] at hd
      rcases hd with hd | hd
      · rcases h.1 with ⟨q, _, _, _, hplain⟩
        exact hplain d hd
      · exact ih h.2 d hd

/-- A match that is not carried on is the first lexeme. -/
theorem lexemes_matched {c : Char} {xs ys : List Char} {q : Pattern} {k : Kind}
    (hrun : Pattern.run .start (c :: xs) = some q) (hstops : q.Stops ys)
    (hkind : q.kind? (String.ofList (c :: xs)) = some k) :
    lexemes (c :: (xs ++ ys)) = ⟨k, String.ofList (c :: xs)⟩ :: lexemes ys := by
  rw [lexemes, pieces_cons, Piece.cut_matched hrun hstops hkind]
  rfl

/-- Lexemes that can be put into a text are cut off one by one. -/
theorem lexemes_append {ls : List Lexeme} {cs : List Char} (h : AreInset ls cs.head?) :
    lexemes (charsOf ls ++ cs) = ls ++ lexemes cs := by
  induction ls with
  | nil => rfl
  | cons l ls ih =>
      rcases h.1 with ⟨q, hrun, hkind, hstep, _⟩
      have hfinal : q.isFinal = true := by
        rw [← Pattern.isSome_kind? q l.text, hkind]
        rfl
      have hstops : q.Stops (charsOf ls ++ cs) :=
        Pattern.stops_of_step hfinal fun d hd => hstep d (by rw [← hd, List.head?_append])
      cases htext : l.text.toList with
      | nil =>
          rw [htext] at hrun
          cases hrun
          cases hkind
      | cons c xs =>
          have hword : String.ofList (c :: xs) = l.text := by rw [← htext, String.ofList_toList]
          rw [charsOf_cons, htext, List.append_assoc, List.cons_append,
            lexemes_matched (htext ▸ hrun) hstops (hword ▸ hkind), ih h.2, hword]
          rfl

/-! ### States behind a lexeme -/

namespace Pattern

/-- What has been read of an operator is its spelling so far. -/
def IsSpelled (p : Pattern) (cs : List Char) : Prop :=
  match p with
  | .start => cs = []
  | .operator k => k.spelling? = some (String.ofList cs)
  | .half k second => k.spelling? = some (String.ofList (cs ++ [second]))
  | _ => True

theorem isSpelled_step {p q : Pattern} {cs : List Char} {c : Char} (hp : p.IsSpelled cs)
    (h : p.step c = some q) : q.IsSpelled (cs ++ [c]) := by
  cases p with
  | start =>
      rw [show cs = [] from hp]
      simp only [step, first] at h
      repeat' split at h
      all_goals cases h <;> trivial
  | operator k =>
      have hcs : ∀ {s : String}, some s = some (String.ofList cs) → cs = s.toList := fun hs => by
        rw [Option.some.inj hs, String.toList_ofList]
      simp only [step, extend] at h
      split at h
      all_goals cases h <;> first | trivial | (rw [hcs hp]; rfl)
  | half k second =>
      simp only [step] at h
      split at h
      · next hc =>
          cases h
          rw [eq_of_beq hc]
          exact hp
      · cases h
  | _ =>
      simp only [step, afterDigit, quoted] at h
      repeat' split at h
      all_goals cases h <;> trivial

theorem isSpelled_run {p q : Pattern} {cs ds : List Char} (hp : p.IsSpelled cs)
    (h : p.run ds = some q) : q.IsSpelled (cs ++ ds) := by
  induction ds generalizing p cs with
  | nil =>
      cases h
      rw [List.append_nil]
      exact hp
  | cons d ds ih =>
      rcases Option.bind_eq_some_iff.mp h with ⟨r, hstep, hrun⟩
      have hmore := ih (isSpelled_step hp hstep) hrun
      rwa [List.append_assoc] at hmore

theorem isSpelled_of_run {q : Pattern} {cs : List Char} (h : Pattern.run .start cs = some q) :
    q.IsSpelled cs := by
  have hstart : Pattern.IsSpelled .start [] := rfl
  exact isSpelled_run hstart h

theorem reserved_cases {text : String} {k : Kind} (h : Kind.reserved? text = some k) :
    k = .predefinedType ∨ (k ∈ Kind.keywords ∧ k.spelling? = some text) := by
  rw [Kind.reserved?] at h
  split at h
  · cases h
    exact .inl rfl
  · have hspelling := List.find?_some h
    exact .inr ⟨List.mem_of_find?_eq_some h, of_decide_eq_true hspelling⟩

/-- A lexeme of a kind with one spelling is spelled like that. -/
theorem text_of_spelling {q : Pattern} {text s : String} {k : Kind}
    (hrun : Pattern.run .start text.toList = some q) (hkind : q.kind? text = some k)
    (hs : k.spelling? = some s) : text = s := by
  cases q with
  | word =>
      have hword : (Kind.reserved? text).getD .id = k := Option.some.inj hkind
      cases hreserved : Kind.reserved? text with
      | none =>
          rw [hreserved] at hword
          cases hword
          cases hs
      | some j =>
          rw [hreserved] at hword
          cases hword
          rcases reserved_cases hreserved with rfl | ⟨_, htext⟩
          · cases hs
          · exact Option.some.inj (htext.symm.trans hs)
  | operator j =>
      cases hkind
      have hspelled := isSpelled_of_run hrun
      rw [IsSpelled, String.ofList_toList] at hspelled
      exact Option.some.inj (hspelled.symm.trans hs)
  | _ =>
      cases hkind
      try cases hs

/-- How trivia ends. -/
theorem state_of_trivia {q : Pattern} {text : String} {k : Kind}
    (hrun : Pattern.run .start text.toList = some q) (hkind : q.kind? text = some k)
    (hk : k.isTrivia = true) : q = .blank ∨ q = .lineEnd ∨ q = .blockEnd ∨ q = .lineComment := by
  cases q with
  | word =>
      have hword : (Kind.reserved? text).getD .id = k := Option.some.inj hkind
      cases hreserved : Kind.reserved? text with
      | none =>
          rw [hreserved] at hword
          cases hword
          cases hk
      | some j =>
          rw [hreserved] at hword
          cases hword
          rcases reserved_cases hreserved with rfl | ⟨hmem, _⟩
          · cases hk
          · have hkeywords : ∀ k ∈ Kind.keywords, k.isTrivia = false := by decide
            cases hk.symm.trans (hkeywords _ hmem)
  | operator j =>
      cases hkind
      have hspelled := isSpelled_of_run hrun
      rw [IsSpelled] at hspelled
      cases k with
      | whitespace | newline | lineComment | blockComment => cases hspelled
      | _ => cases hk
  | blank => exact .inl rfl
  | lineEnd => exact .inr (.inl rfl)
  | blockEnd => exact .inr (.inr (.inl rfl))
  | lineComment => exact .inr (.inr (.inr rfl))
  | _ =>
      cases hkind
      try cases hk

/-- Blanks, line ends and comments in stars end in a character that something may be put
    behind. -/
theorem breaks_of_step {p q : Pattern} {c : Char} (h : p.step c = some q)
    (hq : q = .blank ∨ q = .lineEnd ∨ q = .blockEnd) : breaks c = true := by
  have heither : ∀ {a b : Char}, (c == a || c == b) = true → breaks a = true → breaks b = true →
      breaks c = true := by
    intro a b hc ha hb
    rcases Bool.or_eq_true_iff.mp hc with hc | hc
    · rw [eq_of_beq hc]
      exact ha
    · rw [eq_of_beq hc]
      exact hb
  cases p with
  | blank =>
      simp only [step] at h
      split at h
      · next hc => exact heither hc rfl rfl
      · cases h
  | carriageReturn =>
      simp only [step] at h
      split at h
      · next hc =>
          rw [eq_of_beq hc]
          rfl
      · cases h
  | blockStar =>
      simp only [step] at h
      split at h
      · next hc =>
          rw [eq_of_beq hc]
          rfl
      · cases h
        rcases hq with hq | hq | hq <;> cases hq
  | _ =>
      -- The other states lead to a blank or to the end of a line only at once, from the start.
      simp only [step, first, extend, afterDigit, quoted] at h
      repeat' split at h
      all_goals cases h
      all_goals first | rfl | (rcases hq with hq | hq | hq <;> cases hq)

end Pattern

/-! ### Lexemes to put into a text -/

/-- Whether a character may stand behind a blank that something else is to be told from. -/
def isBlank (c : Char) : Bool := c == ' ' || c == '\t'

theorem plain_word {c : Char} (h : continuesWord c = true) : isPlain c = true := by
  refine Bool.and_eq_true_iff.mpr ⟨bne_iff_ne.mpr ?_, bne_iff_ne.mpr ?_⟩
  · rintro rfl
    exact absurd h (by decide)
  · rintro rfl
    exact absurd h (by decide)

theorem continuesWord_of_starts {c : Char} (h : startsWord c = true) : continuesWord c = true := by
  rw [continuesWord, Char.isAlphanum]
  rcases Bool.or_eq_true_iff.mp h with h | h
  · rw [h, Bool.true_or, Bool.true_or]
  · rw [h, Bool.or_true]

theorem blank_of_starts {c : Char} (h : startsWord c = true) : isBlank c = false := by
  cases hblank : isBlank c with
  | false => rfl
  | true =>
      rcases Bool.or_eq_true_iff.mp hblank with hblank | hblank
      · rw [eq_of_beq hblank] at h
        cases h
      · rw [eq_of_beq hblank] at h
        cases h

/-- A word ends where no letter follows. -/
theorem isInset_word {k : Kind} {text : String} {c : Char} {cs : List Char} {next : Option Char}
    (htext : text.toList = c :: cs) (hc : startsWord c = true)
    (hcs : ∀ d ∈ cs, continuesWord d = true) (hk : (Kind.reserved? text).getD .id = k)
    (hnext : ∀ d, next = some d → continuesWord d = false) : Lexeme.IsInset ⟨k, text⟩ next := by
  have hword : ∀ ds : List Char, (∀ d ∈ ds, continuesWord d = true) →
      Pattern.run .word ds = some .word := by
    intro ds hds
    induction ds with
    | nil => rfl
    | cons d ds ih =>
        rw [List.forall_mem_cons] at hds
        rw [Pattern.run, Pattern.step, if_pos hds.1]
        exact ih hds.2
  refine ⟨.word, ?_, congrArg some hk, fun d hd => ?_, fun d hd => ?_⟩
  · have hfirst : Pattern.step .start c = some .word := if_pos hc
    rw [htext, Pattern.run, hfirst]
    exact hword cs hcs
  · rw [Pattern.step, if_neg (by rw [hnext d hd]; exact Bool.false_ne_true)]
  · rw [htext] at hd
    rcases List.mem_cons.mp hd with rfl | hd
    · exact plain_word (continuesWord_of_starts hc)
    · exact plain_word (hcs d hd)

theorem isInset_name {name : String} (h : IsName name) {next : Option Char}
    (hnext : ∀ d, next = some d → continuesWord d = false) : Lexeme.IsInset ⟨.id, name⟩ next := by
  rcases h with ⟨c, cs, htext, hc, hcs, hreserved⟩
  exact isInset_word htext hc hcs (by rw [hreserved]; rfl) hnext

/-- The names of built-in types are words. -/
theorem chars_predefined {word : String} (h : Kind.reserved? word = some .predefinedType) :
    ∃ c cs, word.toList = c :: cs ∧ startsWord c = true ∧ ∀ d ∈ cs, continuesWord d = true := by
  have hword : ∀ w ∈ Kind.predefinedTypes, (w.toList.head?.any startsWord &&
      w.toList.tail.all continuesWord) = true := by decide
  have hmem : word ∈ Kind.predefinedTypes := by
    by_cases hcontains : Kind.predefinedTypes.contains word = true
    · exact List.contains_iff_mem.mp hcontains
    · rw [Kind.reserved?, if_neg hcontains] at h
      have hkeywords : ∀ k ∈ Kind.keywords, k ≠ .predefinedType := by decide
      exact absurd rfl (hkeywords _ (List.mem_of_find?_eq_some h))
  rcases Bool.and_eq_true_iff.mp (hword word hmem) with ⟨hstart, htail⟩
  cases htext : word.toList with
  | nil =>
      rw [htext] at hstart
      cases hstart
  | cons c cs =>
      rw [htext] at hstart htail
      exact ⟨c, cs, rfl, hstart, List.all_eq_true.mp htail⟩

theorem isInset_predefined {word : String} (h : Kind.reserved? word = some .predefinedType)
    {next : Option Char} (hnext : ∀ d, next = some d → continuesWord d = false) :
    Lexeme.IsInset ⟨.predefinedType, word⟩ next := by
  rcases chars_predefined h with ⟨c, cs, htext, hc, hcs⟩
  exact isInset_word htext hc hcs (by rw [h]; rfl) hnext

/-- Blanks are read as one. -/
theorem run_blanks {c : Char} {cs : List Char} (hc : isBlank c = true)
    (hcs : ∀ d ∈ cs, isBlank d = true) : Pattern.run .start (c :: cs) = some .blank := by
  have hfirst : Pattern.step .start c = some .blank := by
    rcases Bool.or_eq_true_iff.mp hc with hc | hc
    · rw [eq_of_beq hc]
      rfl
    · rw [eq_of_beq hc]
      rfl
  rw [Pattern.run, hfirst, Option.bind_some]
  clear hfirst
  induction cs with
  | nil => rfl
  | cons d ds ih =>
      rw [List.forall_mem_cons] at hcs
      have hnext : Pattern.step .blank d = some .blank := if_pos hcs.1
      rw [Pattern.run, hnext]
      exact ih hcs.2

theorem step_blank {d : Char} (hd : isBlank d = false) : Pattern.step .blank d = none := by
  have hother : ¬(d == ' ' || d == '\t') = true := fun hblank => nomatch hd.symm.trans hblank
  exact if_neg hother

/-- A blank ends where no blank follows. -/
theorem isInset_blank {text : String} (hsome : text ≠ "") (htext : ∀ c ∈ text.toList, isBlank c = true)
    {next : Option Char} (hnext : ∀ d, next = some d → isBlank d = false) :
    Lexeme.IsInset ⟨.whitespace, text⟩ next := by
  refine ⟨.blank, ?_, rfl, fun d hd => step_blank (hnext d hd), fun d hd => ?_⟩
  · cases hlist : text.toList with
    | nil => exact absurd (String.toList_eq_nil_iff.mp hlist) hsome
    | cons c cs =>
        rw [hlist, List.forall_mem_cons] at htext
        exact run_blanks htext.1 htext.2
  · rcases Bool.or_eq_true_iff.mp (htext d hd) with hd | hd
    · rw [eq_of_beq hd]
      rfl
    · rw [eq_of_beq hd]
      rfl

theorem isInset_space {next : Option Char} (hnext : ∀ d, next = some d → isBlank d = false) :
    Lexeme.IsInset ⟨.whitespace, " "⟩ next := by
  have htext : ∀ c ∈ (" " : String).toList, isBlank c = true := List.forall_mem_singleton.mpr rfl
  exact isInset_blank (by decide) htext hnext

/-- An operator that can be read, behind which nothing carries on. -/
theorem isInset_operator {k : Kind} {text : String} {next : Option Char}
    (hrun : Pattern.run .start text.toList = some (.operator k))
    (hplain : ∀ d ∈ text.toList, isPlain d = true)
    (hnext : ∀ d, next = some d → Pattern.extend k d = none) : Lexeme.IsInset ⟨k, text⟩ next :=
  ⟨.operator k, hrun, rfl, hnext, hplain⟩

end Syntax

/-! ### Spliced lexemes -/

/-- What an extraction adds can be put into a text. -/
structure Edit.IsInset (e : Edit) : Prop where
  name : IsName e.name
  added : ∀ next, AreInset e.addedLexemes next

theorem starts_name {name : String} (h : IsName name) :
    ∃ c cs, name.toList = c :: cs ∧ isBlank c = false := by
  rcases h with ⟨c, cs, hname, hc, _⟩
  exact ⟨c, cs, hname, blank_of_starts hc⟩

theorem areInset_nameLexemes {e : Edit} (he : e.IsInset) {next : Option Char}
    (hnext : ∀ d, next = some d → continuesWord d = false) : AreInset e.nameLexemes next := by
  rcases starts_name he.name with ⟨c, cs, hname, hc⟩
  refine ⟨isInset_space fun d hd => ?_, isInset_name he.name hnext, trivial⟩
  rw [charsOf_cons, hname] at hd
  cases hd
  exact hc

theorem areInset_assignLexemes {name : String} (hname : IsName name) {next : Option Char}
    (hnext : ∀ d, next = some d → isBlank d = false) : AreInset (Edit.assignLexemes name) next := by
  refine ⟨isInset_name hname ?_, isInset_space ?_, isInset_operator rfl ?_ ?_, isInset_space hnext,
    trivial⟩
  · rintro d ⟨⟩
    rfl
  · rintro d ⟨⟩
    rfl
  · exact List.forall_mem_singleton.mpr rfl
  · rintro d ⟨⟩
    rfl

/-- Lexemes before and after an extraction, where the name of a member stands right before it. -/
inductive Inserted (e : Edit) : List Lexeme → List Lexeme → Prop where
  | nil : Inserted e [] []
  | cons (l : Lexeme) {ls ms : List Lexeme} : Inserted e ls ms → Inserted e (l :: ls) (l :: ms)
  | name {l : Lexeme} {ls ms : List Lexeme} : l.kind = .kwNew → Inserted e ls ms →
    Inserted e (l :: ls) (l :: (e.nameLexemes ++ ms))
  | assign {l next : Lexeme} {ls ms : List Lexeme} {name : String} :
    l.kind = .braceOpen ∨ l.kind = .comma ∨ l.kind.isTrivia = true → next.isTrivia = false →
    IsName name → Inserted e (next :: ls) ms →
    Inserted e (l :: next :: ls) (l :: (Edit.assignLexemes name ++ ms))
  | declare {l : Lexeme} {ls ms : List Lexeme} : l.kind = .braceClose → Inserted e ls ms →
    Inserted e (l :: ls) (l :: (e.addedLexemes ++ ms))

variable {e : Edit}

theorem inserted_trivia {next : Lexeme} {ls ms : List Lexeme} {name : String}
    (hnext : next.isTrivia = false) (hname : IsName name) (h : Inserted e (next :: ls) ms)
    (trivia : List Lexeme) (htrivia : ∀ t ∈ trivia, t.isTrivia = true) {l : Lexeme}
    (hl : l.kind = .braceOpen ∨ l.kind = .comma ∨ l.kind.isTrivia = true) :
    Inserted e (l :: (trivia ++ next :: ls)) (l :: (trivia ++ (Edit.assignLexemes name ++ ms))) := by
  induction trivia generalizing l with
  | nil => exact .assign hl hnext hname h
  | cons t trivia ih =>
      rw [List.forall_mem_cons] at htrivia
      exact .cons l (ih htrivia.2 (.inr (.inr htrivia.1)))

theorem Spliced.inserted {ls ms : List Lexeme} (h : Spliced e ls ms) : Inserted e ls ms := by
  induction h with
  | nil => exact .nil
  | cons l _ ih => exact .cons l ih
  | name hl _ ih => exact .name hl ih
  | assign hl htrivia hnext hname _ ih =>
      refine inserted_trivia hnext hname ih _ htrivia ?_
      rcases hl with hl | hl
      · exact .inl hl
      · exact .inr (.inl hl)
  | declare hl _ ih => exact .declare hl ih

namespace Syntax

section Matched

variable {c : Char} {xs ys : List Char} {q : Pattern} {k : Kind}
variable (hrun : Pattern.run .start (c :: xs) = some q)
variable (hkind : q.kind? (String.ofList (c :: xs)) = some k)

include hrun hkind

/-- A lexeme is read as before where something is put behind it. -/
theorem lexemes_behind {more ms : List Lexeme} (hms : lexemes (charsOf ms) = ms)
    (hwide : Widened ys (charsOf ms)) (hmore : AreInset more (charsOf ms).head?)
    (hstep : ∀ d, (charsOf more ++ charsOf ms).head? = some d → q.step d = none)
    (hlast : ∃ ds d, c :: xs = ds ++ [d] ∧ breaks d = true) :
    lexemes (charsOf (⟨k, String.ofList (c :: xs)⟩ :: (more ++ ms)))
        = ⟨k, String.ofList (c :: xs)⟩ :: (more ++ ms) ∧
      Widened (c :: (xs ++ ys)) (charsOf (⟨k, String.ofList (c :: xs)⟩ :: (more ++ ms))) := by
  have hfinal : q.isFinal = true := by
    rw [← Pattern.isSome_kind? q _, hkind]
    rfl
  rw [charsOf_cons, String.toList_ofList, charsOf_append, List.cons_append]
  constructor
  · rw [lexemes_matched hrun (Pattern.stops_of_step hfinal hstep) hkind, lexemes_append hmore, hms]
  · rcases hlast with ⟨ds, d, hsplit, hbreaks⟩
    rw [← List.cons_append, ← List.cons_append, hsplit, List.append_assoc, List.append_assoc,
      List.singleton_append, List.singleton_append]
    exact .prepend ds (.inset hbreaks hmore.plain hwide)

/-- A lexeme is read as before where the text behind it is widened. -/
theorem lexemes_kept {ms : List Lexeme} (hstops : q.Stops ys) (hms : lexemes (charsOf ms) = ms)
    (hwide : Widened ys (charsOf ms)) :
    lexemes (charsOf (⟨k, String.ofList (c :: xs)⟩ :: ms)) = ⟨k, String.ofList (c :: xs)⟩ :: ms ∧
      Widened (c :: (xs ++ ys)) (charsOf (⟨k, String.ofList (c :: xs)⟩ :: ms)) := by
  rw [charsOf_cons, String.toList_ofList, List.cons_append]
  constructor
  · rw [lexemes_matched hrun (Pattern.stops_widened hwide hstops) hkind, hms]
  · exact .cons c (.prepend xs hwide)

end Matched

/-- Garbage before lexemes is joined with garbage that they start with. -/
def joined (text : List Char) : List Lexeme → List Lexeme
  | ⟨.garbage, more⟩ :: ls => ⟨.garbage, String.ofList text ++ more⟩ :: ls
  | ls => ⟨.garbage, String.ofList text⟩ :: ls

theorem coalesce_rejected (text : List Char) (ps : List Piece) :
    coalesce (.rejected text :: ps) = joined text (coalesce ps) := by
  rw [coalesce]
  rfl

theorem charsOf_joined (text : List Char) (ls : List Lexeme) :
    charsOf (joined text ls) = text ++ charsOf ls := by
  unfold joined
  split
  · rw [charsOf_cons, String.toList_append, String.toList_ofList, List.append_assoc, charsOf_cons]
  · rw [charsOf_cons, String.toList_ofList]

/-- Nothing is put behind garbage. -/
theorem inserted_joined {text : List Char} {ls ms : List Lexeme} (h : Inserted e (joined text ls) ms) :
    ∃ ns, ms = joined text ns ∧ Inserted e ls ns := by
  have hcons : ∀ {word : String} {ks ms : List Lexeme}, Inserted e (⟨.garbage, word⟩ :: ks) ms →
      ∃ ns, ms = ⟨.garbage, word⟩ :: ns ∧ Inserted e ks ns := by
    intro word ks ms h
    cases h with
    | cons _ h => exact ⟨_, rfl, h⟩
    | name hl => cases hl
    | assign hl =>
        rcases hl with hl | hl | hl
        · cases hl
        · cases hl
        · cases hl
    | declare hl => cases hl
  have hhead : ∀ {ls ns : List Lexeme}, Inserted e ls ns → ns.head? = ls.head? := fun h => by
    cases h <;> rfl
  unfold joined at h
  split at h
  · rcases hcons h with ⟨ns, rfl, hns⟩
    exact ⟨_, rfl, .cons _ hns⟩
  · next hother =>
      rcases hcons h with ⟨ns, rfl, hns⟩
      refine ⟨ns, ?_, hns⟩
      unfold joined
      split
      · next more ms =>
          rcases List.head?_eq_some_iff.mp (hhead hns).symm with ⟨ks, hks⟩
          exact absurd hks (hother more ks)
      · rfl

/-- How a lexeme ends that a name may be put behind. -/
theorem last_of_run {p q : Pattern} {cs : List Char} {d : Char}
    (h : p.run (cs ++ [d]) = some q) : ∃ r : Pattern, r.step d = some q := by
  rw [Pattern.run_append] at h
  rcases Option.bind_eq_some_iff.mp h with ⟨r, _, hr⟩
  rw [Pattern.run] at hr
  rcases Option.bind_eq_some_iff.mp hr with ⟨t, hstep, hdone⟩
  cases hdone
  exact ⟨r, hstep⟩

/-- A line starts with a lexeme of its own. -/
theorem lexemes_newline (cs : List Char) : lexemes ('\n' :: cs) = ⟨.newline, "\n"⟩ :: lexemes cs := by
  have hstops : Pattern.lineEnd.Stops cs := Pattern.stops_of_step rfl fun _ _ => rfl
  have hrun : Pattern.run .start ['\n'] = some .lineEnd := rfl
  exact lexemes_matched hrun hstops rfl

/-- Behind a blank nothing but trivia can start. -/
theorem lexemes_blank {c : Char} (hc : isBlank c = true) (cs : List Char) :
    ∃ l ls, lexemes (c :: cs) = l :: ls ∧ l.isTrivia = true := by
  have hrun : Pattern.run .start (c :: cs.takeWhile isBlank) = some .blank :=
    run_blanks hc (List.all_eq_true.mp List.all_takeWhile)
  have hstops : Pattern.blank.Stops (cs.dropWhile isBlank) := by
    refine Pattern.stops_of_step rfl fun d hd => step_blank ?_
    have hhead := List.head?_dropWhile_not isBlank cs
    rw [hd] at hhead
    exact hhead
  have hlexemes := lexemes_matched hrun hstops rfl
  rw [List.takeWhile_append_dropWhile] at hlexemes
  exact ⟨_, _, hlexemes, rfl⟩

/-- A keyword, a brace or a comma is read as its spelling, so what follows is known. -/
theorem step_of_spelling {q p : Pattern} {text s : String} {k : Kind}
    (hrun : Pattern.run .start text.toList = some q) (hkind : q.kind? text = some k)
    (hs : k.spelling? = some s) (hspelled : Pattern.run .start s.toList = some p) :
    q = p ∧ text = s := by
  have htext := Pattern.text_of_spelling hrun hkind hs
  rw [htext, hspelled] at hrun
  exact ⟨(Option.some.inj hrun).symm, htext⟩

/-- No letter stands behind a word. -/
theorem stops_word {cs : List Char} (h : Pattern.word.Stops cs) {d : Char} (hd : cs.head? = some d) :
    continuesWord d = false := by
  rcases List.head?_eq_some_iff.mp hd with ⟨ds, rfl⟩
  cases hword : continuesWord d with
  | false => rfl
  | true =>
      have hstep : Pattern.step .word d = some .word := if_pos hword
      exact absurd (Pattern.isFinal_of_rejects (h.rejects hstep)) nofun

/-- A comment up to the end of a line is followed by the end of that line. -/
theorem stops_lineComment {cs : List Char} (h : Pattern.lineComment.Stops cs) {next : Lexeme}
    {ls : List Lexeme} (hls : lexemes cs = next :: ls) : next.isTrivia = true := by
  cases cs with
  | nil => cases hls
  | cons d ds =>
      by_cases hd : d = '\n'
      · rw [hd, lexemes_newline] at hls
        cases hls
        rfl
      · have hstep : Pattern.step .lineComment d = some .lineComment := if_neg (hd ∘ eq_of_beq)
        exact absurd (Pattern.isFinal_of_rejects (h.rejects hstep)) nofun

/-- A lexeme that a name may be put behind is not carried on by that name. -/
theorem ends_before_name {c : Char} {xs ys : List Char} {q : Pattern} {k : Kind} {next : Lexeme}
    {ls : List Lexeme} (hrun : Pattern.run .start (c :: xs) = some q) (hstops : q.Stops ys)
    (hkind : q.kind? (String.ofList (c :: xs)) = some k)
    (hk : k = .braceOpen ∨ k = .comma ∨ k.isTrivia = true) (hls : lexemes ys = next :: ls)
    (hnext : next.isTrivia = false) : (∀ d, isBlank d = false → q.step d = none) ∧
      ∃ ds d, c :: xs = ds ++ [d] ∧ breaks d = true := by
  have hspelled : Pattern.run .start (String.ofList (c :: xs)).toList = some q := by
    rw [String.toList_ofList]
    exact hrun
  have hchars : ∀ {s : String}, String.ofList (c :: xs) = s → c :: xs = s.toList := by
    rintro s rfl
    rw [String.toList_ofList]
  rcases hk with rfl | rfl | hk
  · rcases step_of_spelling hspelled hkind rfl rfl with ⟨rfl, htext⟩
    exact ⟨fun _ _ => rfl, [], '\x7b', hchars htext, rfl⟩
  · rcases step_of_spelling hspelled hkind rfl rfl with ⟨rfl, htext⟩
    exact ⟨fun _ _ => rfl, [], ',', hchars htext, rfl⟩
  · have hlast : q = .blank ∨ q = .lineEnd ∨ q = .blockEnd →
        ∃ ds d, c :: xs = ds ++ [d] ∧ breaks d = true := by
      intro hq
      rcases List.eq_nil_or_concat (c :: xs) with hnil | ⟨ds, d, hsplit⟩
      · cases hnil
      · rw [List.concat_eq_append] at hsplit
        rw [hsplit] at hrun
        rcases last_of_run hrun with ⟨r, hr⟩
        exact ⟨ds, d, hsplit, Pattern.breaks_of_step hr hq⟩
    rcases Pattern.state_of_trivia hspelled hkind hk with rfl | rfl | rfl | rfl
    · exact ⟨fun d hd => step_blank hd, hlast (.inl rfl)⟩
    · exact ⟨fun _ _ => rfl, hlast (.inr (.inl rfl))⟩
    · exact ⟨fun _ _ => rfl, hlast (.inr (.inr rfl))⟩
    · exact absurd (hnext.symm.trans (stops_lineComment hstops hls)) nofun

/-- The lexemes that come about are those that the text is cut into. -/
theorem lexemes_inserted (he : e.IsInset) (cs : List Char) {ms : List Lexeme}
    (h : Inserted e (lexemes cs) ms) : lexemes (charsOf ms) = ms ∧ Widened cs (charsOf ms) := by
  induction hn : cs.length using Nat.strongRecOn generalizing cs ms with
  | ind n ih =>
    subst hn
    cases cs with
    | nil =>
        cases h
        exact ⟨rfl, .nil⟩
    | cons c cs =>
      rcases Piece.cut_cases c cs with ⟨xs, ys, q, k, rfl, hrun, hstops, hkind⟩ | ⟨xs, ys, rfl, hcut⟩
      · have hshorter : ys.length < (c :: (xs ++ ys)).length := by
          rw [List.length_cons, List.length_append]
          omega
        rw [lexemes_matched hrun hstops hkind] at h
        have hspelled : Pattern.run .start (String.ofList (c :: xs)).toList = some q := by
          rw [String.toList_ofList]
          exact hrun
        generalize hls : lexemes ys = ls at h
        cases h with
        | cons _ h =>
            subst hls
            rcases ih _ hshorter ys h rfl with ⟨hms, hwide⟩
            exact lexemes_kept hrun hkind hstops hms hwide
        | name hl h =>
            subst hls
            rcases ih _ hshorter ys h rfl with ⟨hms, hwide⟩
            cases show k = .kwNew from hl
            rcases step_of_spelling hspelled hkind rfl rfl with ⟨rfl, htext⟩
            have hchars : c :: xs = ['n', 'e'] ++ ['w'] := by
              rw [← String.toList_ofList (l := c :: xs), htext]
              rfl
            refine lexemes_behind hrun hkind hms hwide (areInset_nameLexemes he fun d hd => ?_) ?_
              ⟨_, _, hchars, rfl⟩
            · rw [hwide.head] at hd
              exact stops_word hstops hd
            · rintro d ⟨⟩
              rfl
        | assign hl hnext hname h =>
            rcases ih _ hshorter ys (hls ▸ h) rfl with ⟨hms, hwide⟩
            rcases ends_before_name hrun hstops hkind hl hls hnext with ⟨hstep, hlast⟩
            rcases starts_name hname with ⟨f, fs, hchars, hfirst⟩
            refine lexemes_behind hrun hkind hms hwide (areInset_assignLexemes hname fun d hd => ?_) ?_
              hlast
            · rw [hwide.head] at hd
              rcases List.head?_eq_some_iff.mp hd with ⟨ds, rfl⟩
              cases hblank : isBlank d with
              | false => rfl
              | true =>
                  rcases lexemes_blank hblank ds with ⟨l, ls', hl', htrivia⟩
                  cases hl'.symm.trans hls
                  exact absurd (hnext.symm.trans htrivia) nofun
            · intro d hd
              rw [Edit.assignLexemes, charsOf_cons, hchars] at hd
              cases hd
              exact hstep f hfirst
        | declare hl h =>
            subst hls
            rcases ih _ hshorter ys h rfl with ⟨hms, hwide⟩
            cases show k = .braceClose from hl
            rcases step_of_spelling hspelled hkind rfl rfl with ⟨rfl, htext⟩
            have hchars : c :: xs = [] ++ ['\x7d'] := by
              rw [← String.toList_ofList (l := c :: xs), htext]
              rfl
            exact lexemes_behind hrun hkind hms hwide (he.added _) (fun _ _ => rfl) ⟨_, _, hchars, rfl⟩
      · have hshorter : ys.length < (c :: (xs ++ ys)).length := by
          rw [List.length_cons, List.length_append]
          omega
        have hlexemes : ∀ {zs : List Char}, zs.head? = ys.head? →
            lexemes (c :: (xs ++ zs)) = joined (c :: xs) (lexemes zs) := by
          intro zs hzs
          rw [lexemes, pieces_cons, hcut zs hzs, coalesce_rejected]
          rfl
        rw [hlexemes rfl] at h
        rcases inserted_joined h with ⟨ns, rfl, hns⟩
        rcases ih _ hshorter ys hns rfl with ⟨hms, hwide⟩
        rw [charsOf_joined, List.cons_append, hlexemes hwide.head, hms]
        exact ⟨rfl, .cons c (.prepend xs hwide)⟩

/-- The text of spliced lexemes is cut into these lexemes. -/
theorem lex_spliced (he : e.IsInset) {source : String} {ms : List Lexeme}
    (h : Spliced e (lex source) ms) : lex (Lexeme.textOf ms) = ms := by
  rw [lex, toList_textOf]
  exact (lexemes_inserted he source.toList h.inserted).1

/-! ### Words of a text -/

namespace Pattern

theorem step_ne_start {p : Pattern} {c : Char} : p.step c ≠ some .start := by
  intro h
  cases p <;> simp only [step, first, extend, afterDigit, quoted] at h <;> repeat' split at h
  all_goals cases h

/-- Inside a text only a word goes on as a word. -/
theorem step_word {p : Pattern} {c : Char} (hp : p ≠ .start) (h : p.step c = some .word) :
    p = .word ∧ continuesWord c = true := by
  cases p with
  | start => exact absurd rfl hp
  | word =>
      rw [step] at h
      split at h
      · next hc => exact ⟨rfl, hc⟩
      · cases h
  | _ =>
      simp only [step, extend, afterDigit, quoted] at h
      repeat' split at h
      all_goals cases h

theorem run_word {p : Pattern} {cs : List Char} (hp : p ≠ .start) (h : p.run cs = some .word) :
    p = .word ∧ ∀ d ∈ cs, continuesWord d = true := by
  induction cs generalizing p with
  | nil =>
      cases h
      exact ⟨rfl, nofun⟩
  | cons c cs ih =>
      rcases Option.bind_eq_some_iff.mp h with ⟨q, hstep, hrun⟩
      rcases ih (fun hq => step_ne_start (hq ▸ hstep)) hrun with ⟨rfl, hcs⟩
      rcases step_word hp hstep with ⟨rfl, hc⟩
      exact ⟨rfl, List.forall_mem_cons.mpr ⟨hc, hcs⟩⟩

end Pattern

/-- What is no garbage has been matched. -/
theorem matched_of_mem {cs : List Char} {l : Lexeme} (hl : l ∈ lexemes cs)
    (hk : l.kind ≠ .garbage) :
    ∃ q, Pattern.run .start l.text.toList = some q ∧ q.kind? l.text = some l.kind := by
  induction hn : cs.length using Nat.strongRecOn generalizing cs with
  | ind n ih =>
    subst hn
    cases cs with
    | nil => cases hl
    | cons c cs =>
      rcases Piece.cut_cases c cs with ⟨xs, ys, q, k, rfl, hrun, hstops, hkind⟩ | ⟨xs, ys, rfl, hcut⟩
      · rw [lexemes_matched hrun hstops hkind] at hl
        rcases List.mem_cons.mp hl with rfl | hl
        · exact ⟨q, by rw [String.toList_ofList]; exact hrun, hkind⟩
        · exact ih ys.length (by simp only [List.length_cons, List.length_append]; omega) hl rfl
      · rw [lexemes, pieces_cons, hcut ys rfl, coalesce_rejected] at hl
        -- Joining garbage with garbage changes no other lexeme.
        have hbehind : l ∈ lexemes ys := by
          unfold joined at hl
          split at hl
          · next more ls hls =>
              rcases List.mem_cons.mp hl with rfl | hl
              · exact absurd rfl hk
              · exact (show lexemes ys = _ from hls) ▸ List.mem_cons_of_mem _ hl
          · rcases List.mem_cons.mp hl with rfl | hl
            · exact absurd rfl hk
            · exact hl
        exact ih ys.length (by simp only [List.length_cons, List.length_append]; omega) hbehind rfl

/-- Identifiers and the names of built-in types are words. -/
theorem word_of_mem {source : String} {l : Lexeme} (hl : l ∈ lex source)
    (hk : l.kind = .id ∨ l.kind = .predefinedType) :
    (∃ c cs, l.text.toList = c :: cs ∧ startsWord c = true ∧ ∀ d ∈ cs, continuesWord d = true) ∧
      (Kind.reserved? l.text).getD .id = l.kind := by
  rcases matched_of_mem hl (by rcases hk with hk | hk <;> rw [hk] <;> nofun) with ⟨q, hrun, hkind⟩
  have hq : q = .word := by
    cases q with
    | word => rfl
    | operator k =>
        have hspelled := Pattern.isSpelled_of_run hrun
        rw [Pattern.IsSpelled, Option.some.inj hkind] at hspelled
        rcases hk with hk | hk
        · rw [hk] at hspelled
          cases hspelled
        · rw [hk] at hspelled
          cases hspelled
    | _ => rcases hk with hk | hk <;> rw [hk] at hkind <;> cases hkind
  subst hq
  refine ⟨?_, Option.some.inj hkind⟩
  cases htext : l.text.toList with
  | nil =>
      rw [htext] at hrun
      cases hrun
  | cons c cs =>
      rw [htext] at hrun
      rcases Option.bind_eq_some_iff.mp hrun with ⟨q, hfirst, hrun⟩
      rcases Pattern.run_word (fun hq => Pattern.step_ne_start (hq ▸ hfirst)) hrun with ⟨rfl, hcs⟩
      refine ⟨c, cs, rfl, ?_, hcs⟩
      simp only [Pattern.step, Pattern.first] at hfirst
      repeat' split at hfirst
      all_goals first | assumption | cases hfirst

/-- Identifiers are words that are not reserved. -/
theorem isName_of_mem {source : String} {l : Lexeme} (hl : l ∈ lex source) (hk : l.kind = .id) :
    IsName l.text := by
  rcases word_of_mem hl (.inl hk) with ⟨⟨c, cs, htext, hc, hcs⟩, hreserved⟩
  refine ⟨c, cs, htext, hc, hcs, ?_⟩
  rw [hk] at hreserved
  cases hword : Kind.reserved? l.text with
  | none => rfl
  | some k =>
      rw [hword] at hreserved
      cases hreserved
      rcases Pattern.reserved_cases hword with h | ⟨h, _⟩
      · cases h
      · exact absurd h (by decide)

end Syntax

end Nominal
