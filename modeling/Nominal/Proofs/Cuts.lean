import Nominal.Syntax.Lexer

/-!
# Cutting a Text Again

The first piece of a text is the longest that a pattern matches, so it may depend on all that
stands behind it. It hardly does: behind its end the patterns go on only where a number, a
comment or a verbatim string might still become longer, and such attempts fail where they
failed before as long as what is put into the text cannot end a comment or a string and stands
behind a character at which no number goes on.

## Main definitions

* `Pattern.run`: The state behind some characters.
* `Pattern.stops`: No pattern matches more than what has been read.
* `Widened`: Characters before and after something was put between them.

## Theorems

* `cut_matched`: A text that is matched and not carried on is a piece.
* `cut_cases`: What a piece is.
* `stops_widened`: A lexeme stays the longest where the text behind it is widened.
-/

namespace Nominal

namespace Syntax

namespace Pattern

/-- The state behind some characters, if all of them can be read. -/
def run : Pattern → List Char → Option Pattern
  | p, [] => some p
  | p, c :: cs => (p.step c).bind fun q => run q cs

/-- No pattern matches more than what has been read in the state `p`. -/
def Stops (p : Pattern) (cs : List Char) : Prop := (reach p cs).accepted = some (0, p)

theorem reach_nil (p : Pattern) :
    reach p [] = ⟨0, if p.isFinal then some (0, p) else none⟩ := rfl

theorem reach_cons (p : Pattern) (c : Char) (cs : List Char) :
    reach p (c :: cs) =
      match p.step c with
      | none => ⟨0, if p.isFinal then some (0, p) else none⟩
      | some q =>
        let r := reach q cs
        match r.accepted with
        | some (n, last) => ⟨r.length + 1, some (n + 1, last)⟩
        | none => ⟨r.length + 1, if p.isFinal then some (0, p) else none⟩ := rfl

theorem run_append (p : Pattern) (xs ys : List Char) :
    p.run (xs ++ ys) = (p.run xs).bind fun q => q.run ys := by
  induction xs generalizing p with
  | nil => rfl
  | cons x xs ih =>
      rw [List.cons_append, run, run, Option.bind_assoc]
      exact congrArg _ (funext fun q => ih q)

/-- A state in which there is no step with the next character. -/
theorem stops_of_step {p : Pattern} {cs : List Char} (hp : p.isFinal = true)
    (hstep : ∀ c, cs.head? = some c → p.step c = none) : p.Stops cs := by
  cases cs with
  | nil => rw [Stops, reach_nil, if_pos hp]
  | cons c cs => rw [Stops, reach_cons, hstep c rfl, if_pos hp]

theorem Stops.isFinal {p : Pattern} {cs : List Char} (h : p.Stops cs) : p.isFinal = true := by
  cases hp : p.isFinal with
  | true => rfl
  | false =>
      cases cs with
      | nil =>
          rw [Stops, reach_nil, hp] at h
          cases h
      | cons c cs =>
          rw [Stops, reach_cons, hp] at h
          split at h
          · cases h
          · next q _ =>
              cases hq : (reach q cs).accepted with
              | none =>
                  simp only [hq] at h
                  cases h
              | some r =>
                  simp only [hq] at h
                  cases h

/-- Where reading stops, no step leads on to a match. -/
theorem Stops.rejects {p q : Pattern} {c : Char} {cs : List Char} (h : p.Stops (c :: cs))
    (hstep : p.step c = some q) : (reach q cs).accepted = none := by
  cases hq : (reach q cs).accepted with
  | none => rfl
  | some r =>
      rw [Stops, reach_cons, hstep] at h
      simp only [hq] at h
      cases h

theorem stops_of_rejects {p q : Pattern} {c : Char} {cs : List Char} (hp : p.isFinal = true)
    (hstep : p.step c = some q) (hq : (reach q cs).accepted = none) : p.Stops (c :: cs) := by
  rw [Stops, reach_cons, hstep]
  simp only [hq, if_pos hp]

/-- A match and where it ends. -/
theorem accepted_append {p q : Pattern} {xs ys : List Char} (hrun : p.run xs = some q)
    (h : q.Stops ys) : (reach p (xs ++ ys)).accepted = some (xs.length, q) := by
  induction xs generalizing p with
  | nil =>
      cases hrun
      exact h
  | cons x xs ih =>
      rcases Option.bind_eq_some_iff.mp hrun with ⟨r, hstep, hrun⟩
      rw [List.cons_append, reach_cons, hstep]
      simp only [ih hrun, List.length_cons]

theorem accepted_split {p q : Pattern} {cs : List Char} {n : Nat}
    (h : (reach p cs).accepted = some (n, q)) :
    ∃ xs ys, cs = xs ++ ys ∧ xs.length = n ∧ p.run xs = some q ∧ q.Stops ys := by
  induction cs generalizing p n with
  | nil =>
      rw [reach_nil] at h
      split at h
      · next hp =>
          cases h
          exact ⟨[], [], rfl, rfl, rfl, stops_of_step hp nofun⟩
      · cases h
  | cons c cs ih =>
      have hhere : ∀ {n}, (if p.isFinal then some (0, p) else none) = some (n, q) →
          p.isFinal = true ∧ n = 0 ∧ p = q := by
        intro n h
        split at h
        · next hp =>
            cases h
            exact ⟨hp, rfl, rfl⟩
        · cases h
      cases hstep : p.step c with
      | none =>
          rw [reach_cons, hstep] at h
          rcases hhere h with ⟨hp, rfl, rfl⟩
          refine ⟨[], c :: cs, rfl, rfl, rfl, stops_of_step hp fun d hd => ?_⟩
          cases hd
          exact hstep
      | some r =>
          rw [reach_cons, hstep] at h
          cases hr : (reach r cs).accepted with
          | none =>
              simp only [hr] at h
              rcases hhere h with ⟨hp, rfl, rfl⟩
              exact ⟨[], c :: cs, rfl, rfl, rfl, stops_of_rejects hp hstep hr⟩
          | some r' =>
              rcases r' with ⟨m, last⟩
              simp only [hr] at h
              cases h
              rcases ih hr with ⟨xs, ys, rfl, rfl, hrun, hstops⟩
              refine ⟨c :: xs, ys, rfl, rfl, ?_, hstops⟩
              rw [run, hstep]
              exact hrun

/-- How far a reading carries that matches nothing depends on the next character only. -/
theorem reach_rejected {p : Pattern} {xs ys zs : List Char}
    (h : (reach p (xs ++ ys)).accepted = none) (hlength : (reach p (xs ++ ys)).length = xs.length)
    (hhead : zs.head? = ys.head?) :
    (reach p (xs ++ zs)).accepted = none ∧ (reach p (xs ++ zs)).length = xs.length := by
  induction xs generalizing p with
  | nil =>
      cases ys with
      | nil =>
          rw [List.head?_eq_none_iff.mp hhead]
          exact ⟨h, hlength⟩
      | cons y ys =>
          rcases List.head?_eq_some_iff.mp hhead with ⟨zs, rfl⟩
          rw [List.nil_append, reach_cons] at h hlength ⊢
          cases hstep : p.step y with
          | none =>
              rw [hstep] at h
              exact ⟨h, rfl⟩
          | some q =>
              rw [hstep] at h hlength
              cases hq : (reach q ys).accepted with
              | none =>
                  simp only [hq] at hlength
                  cases hlength
              | some r =>
                  simp only [hq] at h
                  cases h
  | cons x xs ih =>
      rw [List.cons_append, reach_cons] at h hlength ⊢
      cases hstep : p.step x with
      | none =>
          rw [hstep] at hlength
          cases hlength
      | some q =>
          rw [hstep] at h hlength
          cases hq : (reach q (xs ++ ys)).accepted with
          | some r =>
              simp only [hq] at h
              cases h
          | none =>
              simp only [hq] at h hlength
              rcases ih hq (Nat.succ.inj hlength) with ⟨hnone, hsame⟩
              simp only [hnone, hsame]
              exact ⟨h, rfl⟩

/-- No more is read than there is. -/
theorem length_reach (p : Pattern) (cs : List Char) : (reach p cs).length ≤ cs.length := by
  induction cs generalizing p with
  | nil => exact Nat.le_refl _
  | cons c cs ih =>
      rw [reach_cons]
      cases p.step c with
      | none => exact Nat.zero_le _
      | some q =>
          have hlength := ih q
          cases hq : (reach q cs).accepted with
          | none =>
              simp only [hq, List.length_cons]
              omega
          | some r =>
              simp only [hq, List.length_cons]
              omega

end Pattern

/-! ### Pieces -/

namespace Piece

open Pattern

/-- A text that is matched and not carried on is a piece. -/
theorem cut_matched {c : Char} {xs ys : List Char} {q : Pattern} {k : Kind}
    (hrun : Pattern.run .start (c :: xs) = some q) (hstops : q.Stops ys)
    (hkind : q.kind? (String.ofList (c :: xs)) = some k) :
    cut c (xs ++ ys) = (matched ⟨k, String.ofList (c :: xs)⟩, ys) := by
  have haccepted := accepted_append hrun hstops
  rw [List.cons_append] at haccepted
  have hmax : max 1 (c :: xs).length = (c :: xs).length :=
    Nat.max_eq_right (Nat.succ_le_succ (Nat.zero_le xs.length))
  have htake : (c :: (xs ++ ys)).take (max 1 (c :: xs).length) = c :: xs := by
    rw [hmax, ← List.cons_append, List.take_left' rfl]
  have hdrop : (c :: (xs ++ ys)).drop (max 1 (c :: xs).length) = ys := by
    rw [hmax, ← List.cons_append, List.drop_left' rfl]
  simp only [cut, haccepted, htake, hdrop, hkind]

/-- Where something matches, the longest match is not carried on. -/
theorem split_accepted {c : Char} {cs : List Char} {r : Nat × Pattern}
    (h : (reach .start (c :: cs)).accepted = some r) :
    ∃ xs ys q k, cs = xs ++ ys ∧ Pattern.run .start (c :: xs) = some q ∧ q.Stops ys ∧
      q.kind? (String.ofList (c :: xs)) = some k := by
  rcases r with ⟨n, q⟩
  rcases accepted_split h with ⟨xs, ys, hsplit, rfl, hrun, hstops⟩
  cases xs with
  | nil =>
      cases hrun
      exact absurd hstops.isFinal nofun
  | cons x xs =>
      rw [List.cons_append, List.cons.injEq] at hsplit
      rcases hsplit with ⟨rfl, rfl⟩
      rcases Option.isSome_iff_exists.mp ((isSome_kind? q _).trans hstops.isFinal) with ⟨k, hk⟩
      exact ⟨xs, ys, q, k, rfl, hrun, hstops, hk⟩

/-- A piece is a match that is not carried on, or it depends on the character behind it only. -/
theorem cut_cases (c : Char) (cs : List Char) :
    (∃ xs ys q k, cs = xs ++ ys ∧ Pattern.run .start (c :: xs) = some q ∧ q.Stops ys ∧
      q.kind? (String.ofList (c :: xs)) = some k) ∨
    (∃ xs ys, cs = xs ++ ys ∧ ∀ zs, zs.head? = ys.head? →
      cut c (xs ++ zs) = (rejected (c :: xs), zs)) := by
  cases h : (reach .start (c :: cs)).accepted with
  | some r => exact .inl (split_accepted h)
  | none =>
      right
      cases hfirst : Pattern.step .start c with
      | none =>
          refine ⟨[], cs, rfl, fun zs _ => ?_⟩
          have hreach : reach .start (c :: zs) = ⟨0, none⟩ := by
            rw [reach_cons, hfirst]
            rfl
          simp only [cut, List.nil_append, hreach]
          rfl
      | some q =>
          have hq : (reach q cs).accepted = none := by
            rw [reach_cons, hfirst] at h
            cases hq : (reach q cs).accepted with
            | none => rfl
            | some r =>
                simp only [hq] at h
                cases h
          have hreach : ∀ {zs}, (reach q zs).accepted = none →
              reach .start (c :: zs) = ⟨(reach q zs).length + 1, none⟩ := by
            intro zs hzs
            rw [reach_cons, hfirst]
            simp only [hzs]
            rfl
          let n := (reach q cs).length
          have hsplit : cs.take n ++ cs.drop n = cs := List.take_append_drop n cs
          have htake : (cs.take n).length = n := by
            rw [List.length_take, Nat.min_eq_left (length_reach q cs)]
          refine ⟨cs.take n, cs.drop n, hsplit.symm, fun zs hzs => ?_⟩
          have hrejected : (reach q (cs.take n ++ cs.drop n)).accepted = none := by rw [hsplit, hq]
          rcases reach_rejected hrejected (by rw [hsplit, htake]) hzs with ⟨hnone, hsame⟩
          have hmax : max 1 ((reach q (cs.take n ++ zs)).length + 1) = (c :: cs.take n).length := by
            rw [hsame, List.length_cons]
            omega
          simp only [cut, hreach hnone, hmax]
          rw [← List.cons_append, List.take_left' rfl, List.drop_left' rfl]

end Piece

/-- The pieces of a text may be cut off with any number to spare. -/
theorem piecesUpTo_length {n : Nat} {cs : List Char} (h : cs.length ≤ n) :
    piecesUpTo n cs = pieces cs := by
  induction n using Nat.strongRecOn generalizing cs with
  | ind n ih =>
      cases cs with
      | nil => cases n <;> rfl
      | cons c cs =>
          cases n with
          | zero => cases h
          | succ n =>
              have hcut := Piece.length_cut c cs
              rw [List.length_cons] at h
              rw [pieces, List.length_cons, piecesUpTo, piecesUpTo, ih n (Nat.lt_succ_self n) (by omega)]
              by_cases hn : cs.length < n + 1
              · rw [ih cs.length hn hcut]
              · omega

/-- A text is cut piece by piece. -/
theorem pieces_cons (c : Char) (cs : List Char) :
    pieces (c :: cs) = (Piece.cut c cs).1 :: pieces (Piece.cut c cs).2 := by
  rw [← piecesUpTo_length (Piece.length_cut c cs)]
  rfl

/-- The lexemes of some characters. -/
def lexemes (cs : List Char) : List Lexeme := coalesce (pieces cs)

/-! ### Going on behind a match -/

/-- The characters behind which something may be put into a text. -/
def breaks (c : Char) : Bool := ['w', '\x7b', '\x7d', ',', ' ', '\t', '\n', '/'].contains c

namespace Pattern

/-- The states in which no pattern has matched since one did. -/
def isSilent : Pattern → Bool
  | point | exponentMark | exponentSign | hexMark | blockBody | blockStar | verbatimBody => true
  | _ => false

theorem breaks_either {a b c : Char} (h : (c == a || c == b) = true)
    (ha : breaks a = false) (hb : breaks b = false) :
    breaks c = false := by
  rcases Bool.or_eq_true_iff.mp h with h | h
  · rw [eq_of_beq h]
    exact ha
  · rw [eq_of_beq h]
    exact hb

theorem afterDigit_cases {c : Char} {q : Pattern} (h : afterDigit c = some q) :
    q.isFinal = true ∨ (q.isSilent = true ∧ breaks c = false) := by
  unfold afterDigit at h
  split at h
  · cases h; exact .inl rfl
  split at h
  · cases h; exact .inl rfl
  split at h
  · cases h; exact .inl rfl
  split at h
  · cases h; exact .inl rfl
  split at h
  · next hc =>
    cases h
    rw [eq_of_beq hc]
    exact .inr ⟨rfl, by decide⟩
  split at h
  · next hc =>
    cases h
    exact .inr ⟨rfl, breaks_either hc rfl rfl⟩
  · cases h

theorem extend_cases {k : Kind} {c : Char} {q : Pattern} (h : extend k c = some q) :
    q.isFinal = true ∨ (q.isSilent = true ∧ breaks c = false) := by
  unfold extend at h
  split at h <;> cases h
  all_goals first | exact .inl rfl | exact .inr ⟨rfl, by decide⟩

/-- From a match a step leads to another match, or to a state that may lead to one. -/
theorem step_final {p q : Pattern} {c : Char} (hp : p.isFinal = true) (h : p.step c = some q) :
    q.isFinal = true ∨ (q.isSilent = true ∧ breaks c = false) := by
  cases p with
  | operator k => exact extend_cases h
  | digits => exact afterDigit_cases h
  | zero =>
      rw [step] at h
      split at h
      · next hc =>
          cases h
          exact .inr ⟨rfl, breaks_either hc rfl rfl⟩
      · exact afterDigit_cases h
  | fraction =>
      simp only [step] at h
      split at h
      · cases h; exact .inl rfl
      split at h
      · cases h; exact .inl rfl
      split at h
      · next hc =>
        cases h
        exact .inr ⟨rfl, breaks_either hc rfl rfl⟩
      · cases h
  | verbatimQuote =>
      simp only [step] at h
      split at h
      · next hc =>
          cases h
          rw [eq_of_beq hc]
          exact .inr ⟨rfl, by decide⟩
      · cases h
  | word | blank | lineComment | hexDigits | unsignedSuffix | longSuffix | exponent =>
      simp only [step] at h
      repeat' split at h
      all_goals first | cases h; exact .inl rfl | cases h
  | lineEnd | stringEnd | charEnd | intEnd | realEnd | blockEnd => cases h
  | _ => cases hp

/-- From a state that may lead to a match a step leads to one, or to such a state again. -/
theorem step_silent {p q : Pattern} {c : Char} (hp : p.isSilent = true) (h : p.step c = some q) :
    q.isFinal = true ∨
      (q.isSilent = true ∧ (breaks c = true → q = .blockBody ∨ q = .verbatimBody)) := by
  cases p with
  | point | exponentSign | hexMark =>
      simp only [step] at h
      split at h
      · cases h; exact .inl rfl
      · cases h
  | exponentMark =>
      simp only [step] at h
      split at h
      · next hc =>
          cases h
          exact .inr ⟨rfl, fun hbreaks => absurd (hbreaks.symm.trans (breaks_either hc rfl rfl)) nofun⟩
      split at h
      · cases h; exact .inl rfl
      · cases h
  | blockBody =>
      simp only [step] at h
      split at h
      · next hc =>
          cases h
          rw [eq_of_beq hc]
          exact .inr ⟨rfl, fun hbreaks => absurd hbreaks (by decide)⟩
      · cases h
        exact .inr ⟨rfl, fun _ => .inl rfl⟩
  | blockStar =>
      simp only [step] at h
      split at h
      · cases h; exact .inl rfl
      · cases h
        exact .inr ⟨rfl, fun _ => .inl rfl⟩
  | verbatimBody =>
      simp only [step] at h
      split at h
      · cases h; exact .inl rfl
      · cases h
        exact .inr ⟨rfl, fun _ => .inr rfl⟩
  | _ => cases hp

theorem isFinal_of_isSilent {p : Pattern} (hp : p.isSilent = true) : p.isFinal = false := by
  cases p with
  | point | exponentMark | exponentSign | hexMark | blockBody | blockStar | verbatimBody => rfl
  | _ => cases hp

end Pattern

/-- Whether a character can be put into a comment or a verbatim string and not end it. -/
def isPlain (c : Char) : Bool := c != '*' && c != '"'

/-- Characters before and after something was put between them. -/
inductive Widened : List Char → List Char → Prop where
  | nil : Widened [] []
  | cons (c : Char) {cs ds : List Char} : Widened cs ds → Widened (c :: cs) (c :: ds)
  | inset {c : Char} {more cs ds : List Char} : breaks c = true →
    (∀ d ∈ more, isPlain d = true) → Widened cs ds → Widened (c :: cs) (c :: (more ++ ds))

theorem Widened.head {cs ds : List Char} (h : Widened cs ds) : ds.head? = cs.head? := by
  cases h <;> rfl

theorem Widened.prepend (xs : List Char) {cs ds : List Char} (h : Widened cs ds) :
    Widened (xs ++ cs) (xs ++ ds) := by
  induction xs with
  | nil => exact h
  | cons x xs ih => exact .cons x ih

namespace Pattern

/-- A comment or a verbatim string is not ended by plain characters. -/
theorem rejects_plain {p : Pattern} (hp : p = .blockBody ∨ p = .verbatimBody) {more ds : List Char}
    (hmore : ∀ d ∈ more, isPlain d = true) (h : (reach p ds).accepted = none) :
    (reach p (more ++ ds)).accepted = none := by
  induction more with
  | nil => exact h
  | cons m more ih =>
      rw [List.forall_mem_cons] at hmore
      have hstep : p.step m = some p := by
        rcases Bool.and_eq_true_iff.mp hmore.1 with ⟨hstar, hquote⟩
        rcases hp with rfl | rfl
        · exact if_neg (bne_iff_ne.mp hstar ∘ eq_of_beq)
        · exact if_neg (bne_iff_ne.mp hquote ∘ eq_of_beq)
      have hfinal : p.isFinal = false := by
        rcases hp with rfl | rfl
        · rfl
        · rfl
      rw [List.cons_append, reach_cons, hstep]
      simp only [ih hmore.2, hfinal]
      rfl

theorem isFinal_of_rejects {p : Pattern} {cs : List Char} (h : (reach p cs).accepted = none) :
    p.isFinal = false := by
  cases hp : p.isFinal with
  | false => rfl
  | true =>
      cases cs with
      | nil =>
          rw [reach_nil, hp] at h
          cases h
      | cons c cs =>
          rw [reach_cons, hp] at h
          split at h
          · cases h
          · next q _ =>
              cases hq : (reach q cs).accepted with
              | none =>
                  simp only [hq] at h
                  cases h
              | some r =>
                  simp only [hq] at h
                  cases h

theorem rejects_cons {p : Pattern} {c : Char} {cs : List Char} (hp : p.isFinal = false) :
    (reach p (c :: cs)).accepted = none ↔
      ∀ q, p.step c = some q → (reach q cs).accepted = none := by
  rw [reach_cons, hp]
  cases hstep : p.step c with
  | none => exact ⟨fun _ => nofun, fun _ => rfl⟩
  | some q =>
      cases hq : (reach q cs).accepted with
      | none =>
          simp only [hq]
          refine ⟨fun _ r hr => ?_, fun _ => rfl⟩
          cases hr
          exact hq
      | some r =>
          simp only [hq]
          exact ⟨nofun, fun h => absurd (hq.symm.trans (h q rfl)) nofun⟩

/-- An attempt to go on behind a match fails in the widened text where it failed before. -/
theorem rejects_widened {cs ds : List Char} (h : Widened cs ds) {p : Pattern}
    (hp : p.isSilent = true) (hreach : (reach p cs).accepted = none) :
    (reach p ds).accepted = none := by
  induction h generalizing p with
  | nil => exact hreach
  | cons c h ih =>
      rw [rejects_cons (isFinal_of_isSilent hp)] at hreach ⊢
      intro q hstep
      have hq := hreach q hstep
      rcases step_silent hp hstep with hfinal | ⟨hsilent, _⟩
      · exact absurd (hfinal.symm.trans (isFinal_of_rejects hq)) nofun
      · exact ih hsilent hq
  | inset hbreaks hmore h ih =>
      rw [rejects_cons (isFinal_of_isSilent hp)] at hreach ⊢
      intro q hstep
      have hq := hreach q hstep
      rcases step_silent hp hstep with hfinal | ⟨hsilent, hbody⟩
      · exact absurd (hfinal.symm.trans (isFinal_of_rejects hq)) nofun
      · exact rejects_plain (hbody hbreaks) hmore (ih hsilent hq)

/-- A lexeme stays the longest where the text behind it is widened. -/
theorem stops_widened {cs ds : List Char} (h : Widened cs ds) {p : Pattern} (hstops : p.Stops cs) :
    p.Stops ds := by
  have hp := hstops.isFinal
  cases h with
  | nil => exact hstops
  | @cons c cs ds h =>
      cases hstep : p.step c with
      | none =>
          refine stops_of_step hp fun d hd => ?_
          cases hd
          exact hstep
      | some q =>
          have hq := hstops.rejects hstep
          rcases step_final hp hstep with hfinal | ⟨hsilent, _⟩
          · exact absurd (hfinal.symm.trans (isFinal_of_rejects hq)) nofun
          · exact stops_of_rejects hp hstep (rejects_widened h hsilent hq)
  | @inset c more cs ds hbreaks hmore h =>
      cases hstep : p.step c with
      | none =>
          refine stops_of_step hp fun d hd => ?_
          cases hd
          exact hstep
      | some q =>
          have hq := hstops.rejects hstep
          rcases step_final hp hstep with hfinal | ⟨_, hother⟩
          · exact absurd (hfinal.symm.trans (isFinal_of_rejects hq)) nofun
          · exact absurd (hbreaks.symm.trans hother) nofun

end Pattern

end Syntax

end Nominal
