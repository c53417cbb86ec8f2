import Nominal.Proofs.Watched
import Mathlib.Data.Set.Insert

/-!
# Where a Run Stands

What has to be known of a state so that a script can be said to get on from there without a
fault. A token may be taken if the next one is known, so `State.Stands` keeps a set of kinds
that the next token is in. A loop goes on if its round has got further, and productions may
refer to each other if one of them has got further or the reference leads down the hierarchy;
so `State.Stands` bounds the effort that is left, and tells whether it has become less since
the script was started.

Meeting a limit leaves less to do, too, but only the first time. Therefore a script whose
progress depends on it has to be known to be running, which is a pace of its own.

## Main definitions

* `State.Sound`: The offset fits the lexemes to come, and open delimiters lie before it.
* `State.effort`: What a run has left to do at most.
* `Pace`: What is known of how far a script has got.
* `State.Stands`: What is known of a state.

## Theorems

* `furthers_of_effort_lt`: Who has less to do has got further.
* `effort_takeLexeme`: Taking a token leaves less to do.
* `State.Stands.skip`: Setting trivia aside shows the next token.
* `State.Stands.since`: What a later script has left to do is left to do from the start.
-/

namespace Nominal

namespace Grammar

open Syntax (Kind KindSet Lexeme Tree)

variable {setting : Setting}

/-- The offset and the lexemes to come make up the source, and open delimiters start before
    the offset. -/
structure State.Sound (setting : Setting) (s : State) : Prop where
  length : s.offset + Lexeme.widthOf s.rest = setting.length
  delimiters : ∀ d ∈ s.delimiters, d.start ≤ s.offset

/-- What a run has left to do at most: to take the tokens to come, and to meet a limit. -/
def State.effort (s : State) : Nat := s.tokensLeft + if s.lost.isNone then 1 else 0

/-- Who has less to do has got further. -/
theorem furthers_of_effort_lt {s t : State} (h : t.effort < s.effort) : s.furthers t = true := by
  rw [State.furthers, Bool.or_eq_true, decide_eq_true_iff]
  by_cases htokens : t.tokensLeft < s.tokensLeft
  · exact .inl htokens
  · right
    rw [State.effort, State.effort] at h
    cases hs : s.lost with
    | none =>
        cases ht : t.lost with
        | none =>
            rw [hs, ht] at h
            omega
        | some limit => rfl
    | some limit =>
        rw [hs] at h
        simp only [Option.isNone_some, Bool.false_eq_true, if_false] at h
        omega

namespace State.Sound

variable {s : State}

theorem skipTrivia (h : s.Sound setting) : s.skipTrivia.Sound setting where
  length := by
    have hsplit := List.takeWhile_append_dropWhile (p := Lexeme.isTrivia) (l := s.rest)
    have hlength := h.length
    rw [← hsplit, Lexeme.widthOf_append, ← Nat.add_assoc] at hlength
    exact hlength
  delimiters := by
    intro d hd
    exact Nat.le_add_right_of_le (h.delimiters d hd)

/-- Soundness is about the lexemes to come and the open delimiters. -/
theorem of_eq {t : State} (h : s.Sound setting) (hrest : t.rest = s.rest)
    (hoffset : t.offset = s.offset) (hdelimiters : ∀ d ∈ t.delimiters, d ∈ s.delimiters) :
    t.Sound setting where
  length := by
    rw [hrest, hoffset]
    exact h.length
  delimiters := by
    intro d hd
    rw [hoffset]
    exact h.delimiters d (hdelimiters d hd)

/-- The next token lies between the offset and the end of the source. -/
theorem nextSpan (h : s.Sound setting) :
    (s.nextSpan setting).start = s.offset ∧ s.offset ≤ (s.nextSpan setting).stop
      ∧ s.offset ≤ setting.length := by
  have hlength := h.length
  rw [State.nextSpan]
  split
  · next hrest =>
      rw [hrest] at hlength
      simp only [Lexeme.widthOf, Nat.add_zero] at hlength
      simp only [Text.Span.empty]
      omega
  · exact ⟨rfl, Nat.le_add_right _ _, hlength ▸ Nat.le_add_right _ _⟩

/-- A report never hides a span that ends before it starts. -/
theorem suppression (h : s.Sound setting) :
    (s.suppression setting (s.nextSpan setting)).start
      ≤ (s.suppression setting (s.nextSpan setting)).stop := by
  have hnext := h.nextSpan
  rw [State.suppression]
  split
  · omega
  · next d ds hds =>
      have hd := h.delimiters d (by rw [hds]; exact List.mem_cons_self)
      simp only
      omega

end State.Sound

theorem effort_skipTrivia (s : State) : s.skipTrivia.effort = s.effort := by
  simp only [State.effort, State.tokensLeft, upcoming_skipTrivia]
  rfl

theorem tokensLeft_takeLexeme {s : State} {l : Lexeme} {ls : List Lexeme}
    (hrest : s.rest = l :: ls) (hl : l.isTrivia = false) :
    s.tokensLeft = (s.takeLexeme l ls).tokensLeft + 1 := by
  simp only [State.tokensLeft, State.upcoming, State.takeLexeme, State.flush, hrest,
    List.length_map, List.filter_cons, hl, Bool.not_false, if_true, List.length_cons]

theorem rest_spend (s : State) : s.spend.rest = s.rest := by
  unfold State.spend
  split <;> rfl

theorem offset_spend (s : State) : s.spend.offset = s.offset := by
  unfold State.spend
  split <;> rfl

theorem delimiters_spend (s : State) : s.spend.delimiters = s.delimiters := by
  unfold State.spend
  split <;> rfl

/-- Taking a token leaves less to do. -/
theorem effort_takeLexeme {s : State} {l : Lexeme} {ls : List Lexeme} (hrest : s.rest = l :: ls)
    (hl : l.isTrivia = false) : (s.takeLexeme l ls).effort < s.effort := by
  have hspend : s.spend.lost.isNone = true → s.lost.isNone = true := by
    unfold State.spend
    split
    · exact id
    · cases s.lost <;> simp
    · exact id
  have htokens := tokensLeft_takeLexeme hrest hl
  have hlost : (s.takeLexeme l ls).lost = s.spend.lost := rfl
  rw [State.effort, State.effort, hlost, htokens]
  split
  · next h =>
      rw [if_pos (hspend h)]
      omega
  · omega

/-! ### What is known of a state -/

/-- What is known of how far a script has got since it was started. -/
inductive Pace where
  /-- Nothing. -/
  | still
  /-- The run is not lost. -/
  | live
  /-- There is less to do now. -/
  | moved
deriving DecidableEq

namespace Pace

/-- What is left of it when the run may have met a limit. -/
def rest : Pace → Pace
  | moved => moved
  | _ => still

@[simp]
theorem rest_rest (p : Pace) : p.rest.rest = p.rest := by cases p <;> rfl

/-- What becomes of it when a running script gets further. -/
def on : Pace → Pace
  | still => still
  | _ => moved

@[simp]
theorem rest_on (p : Pace) : p.on.rest = p.on := by cases p <;> rfl

@[simp]
theorem on_on (p : Pace) : p.on.on = p.on := by cases p <;> rfl

@[simp]
theorem on_rest (p : Pace) : p.rest.on = p.rest := by cases p <;> rfl

theorem rest_ne_live (p : Pace) : p.rest ≠ .live := by cases p <;> exact nofun

/-- What becomes of it when it turns out that the run is not lost. -/
def awake : Pace → Pace
  | still => live
  | p => p

/-- What it says of a state of a script that was started with `N` to do. -/
def Holds (N : Nat) (s : State) : Pace → Prop
  | still => True
  | live => s.lost = none
  | moved => s.effort < N

end Pace

/-- There is at most `N` to do, a script has got so far since there was `N` to do, and the
    next token is one of `S`, unless nothing is known of it. -/
structure State.Stands (setting : Setting) (N : Nat) (pace : Pace) (S : Set (Option Kind))
    (s : State) : Prop where
  sound : s.Sound setting
  effort : s.effort ≤ N
  pace : pace.Holds N s
  ahead : S = Set.univ ∨ s.IsSettled ∧ s.next? ∈ S

namespace State.Stands

variable {N : Nat} {p : Pace} {S T : Set (Option Kind)} {s t : State}

/-- Less may be known of the next token. -/
theorem mono (h : s.Stands setting N p S) (hS : S ⊆ T) : s.Stands setting N p T where
  sound := h.sound
  effort := h.effort
  pace := h.pace
  ahead := by
    rcases h.ahead with rfl | ⟨hsettled, hnext⟩
    · exact .inl (Set.univ_subset_iff.mp hS)
    · exact .inr ⟨hsettled, hS hnext⟩

/-- Forgets what is known of the next token. -/
theorem forget (h : s.Stands setting N p S) : s.Stands setting N p Set.univ :=
  h.mono (Set.subset_univ S)

/-- Forgets how far the script has got. -/
theorem still (h : s.Stands setting N p S) : s.Stands setting N .still S :=
  ⟨h.sound, h.effort, trivial, h.ahead⟩

/-- Forgets that the run is not lost. -/
theorem rest (h : s.Stands setting N p S) : s.Stands setting N p.rest S := by
  cases p with
  | moved => exact h
  | _ => exact h.still

/-- Who has got further has done so, whatever was asked for. -/
theorem rest_of_moved (h : s.Stands setting N .moved S) : s.Stands setting N p.rest S := by
  cases p with
  | moved => exact h
  | _ => exact h.still

theorem on_of_moved (h : s.Stands setting N .moved S) : s.Stands setting N p.on S := by
  cases p with
  | still => exact h.still
  | _ => exact h

/-- What is known of a state, seen from a script that is started there. -/
theorem fresh (h : s.Stands setting N p S) (hp : p ≠ .moved) : s.Stands setting s.effort p S where
  sound := h.sound
  effort := Nat.le_refl _
  pace := by
    cases p with
    | still => trivial
    | live => exact h.pace
    | moved => exact (hp rfl).elim
  ahead := h.ahead

/-- What a script that was started later has left to do is left to do from the start. -/
theorem since {q : Pace} (ht : t.Stands setting s.effort q T) (hs : s.Stands setting N p S) :
    t.Stands setting N p.rest T where
  sound := ht.sound
  effort := ht.effort.trans hs.effort
  pace := by
    cases p with
    | moved => exact Nat.lt_of_le_of_lt ht.effort hs.pace
    | still => trivial
    | live => trivial
  ahead := ht.ahead

/-- Where there is less to do than before, there is less to do than at the start. -/
theorem widen {M : Nat} (h : s.Stands setting M p S) (hM : M ≤ N) : s.Stands setting N p S where
  sound := h.sound
  effort := h.effort.trans hM
  pace := by
    cases p with
    | still => trivial
    | live => exact h.pace
    | moved => exact Nat.lt_of_lt_of_le h.pace hM
  ahead := h.ahead

/-- What is known of a state depends on the lexemes to come, the open delimiters, and whether
    the run is lost. -/
theorem of_eq (h : s.Stands setting N p S) (hrest : t.rest = s.rest)
    (hoffset : t.offset = s.offset) (hlost : t.lost = s.lost)
    (hdelimiters : ∀ d ∈ t.delimiters, d ∈ s.delimiters) : t.Stands setting N p S where
  sound := h.sound.of_eq hrest hoffset hdelimiters
  effort := by
    have heffort : t.effort = s.effort := by
      simp only [State.effort, State.tokensLeft, State.upcoming, hrest, hlost]
    rw [heffort]
    exact h.effort
  pace := by
    have heffort : t.effort = s.effort := by
      simp only [State.effort, State.tokensLeft, State.upcoming, hrest, hlost]
    have hpace := h.pace
    cases p with
    | still => trivial
    | live => exact hlost.trans hpace
    | moved => exact lt_of_eq_of_lt heffort hpace
  ahead := by
    rw [State.IsSettled, State.next?, hrest]
    exact h.ahead

/-- Setting trivia aside shows the next token. -/
theorem skip (h : s.Stands setting N p S) :
    s.skipTrivia.Stands setting N p (S ∩ {s.skipTrivia.next?}) where
  sound := h.sound.skipTrivia
  effort := by
    rw [effort_skipTrivia]
    exact h.effort
  pace := by
    have hpace := h.pace
    cases p with
    | still => trivial
    | live => exact hpace
    | moved =>
        rw [Pace.Holds, effort_skipTrivia]
        exact hpace
  ahead := by
    refine .inr ⟨isSettled_skipTrivia s, ?_, rfl⟩
    rcases h.ahead with rfl | ⟨hsettled, hnext⟩
    · trivial
    · rw [State.next?, hsettled.rest_skipTrivia]
      exact hnext

theorem skipTrivia (h : s.Stands setting N p S) : s.skipTrivia.Stands setting N p S :=
  h.skip.mono Set.inter_subset_left

/-- A report changes nothing of what is known. -/
theorem reportAt (h : s.Stands setting N p S) (offset : Nat) (d : Diagnostic) :
    (s.reportAt offset d).Stands setting N p S := by
  unfold State.reportAt
  split
  · exact h
  · exact h.of_eq rfl rfl rfl fun _ hd => hd

theorem begin (h : s.Stands setting N p S) (g : Grouping) : (g.begin s).Stands setting N p S := by
  cases g <;> exact h.of_eq rfl rfl rfl fun _ hd => hd

theorem finish (h : t.Stands setting N p S) (g : Grouping) :
    (g.finish s t).Stands setting N p S := by
  cases g <;> exact h.of_eq rfl rfl rfl fun _ hd => hd

end State.Stands

end Grammar

end Nominal
