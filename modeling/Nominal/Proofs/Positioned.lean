import Mathlib.Data.String.Basic
import Nominal.Text.Position

/-!
# Positions and Offsets

Editors are told lines and columns and say them back, while trees are made of offsets. A
position is worked out from the text before an offset, and an offset by walking over the
lines before the position, and the two have to be inverse to each other for an editor to be
understood at all.

Both sides cut a text in two at the same place. What stands before the cut is some lines
with their line feeds and then characters of one more line: the number of lines and the
number of characters are the position, and the bytes of both are the offset.

## Main definitions

* `Position.EndsLine`: A text has no characters after its last line feed.

## Theorems

* `Position.after_append`: The position after whole lines and characters of one more line.
* `Position.skipLines_eq_some_iff`: Walking over lines cuts a text where a line starts.
* `Position.bytesOnLine_eq_some_iff`: Walking over characters stays on their line.
* `Position.offset?_eq_some_iff`: The offset of a position is where a text before it ends.
* `Position.offset?_of`: Positions and offsets lead to each other.
-/

namespace Nominal

namespace Text

namespace Position

open String (utf8Len)

/-- A text has no characters after its last line feed. -/
def EndsLine (before : List Char) : Prop := ∀ c, before.getLast? = some c → c = '\n'

variable {before line rest cs : List Char} {c : Char} {n k o : Nat} {p : Position}
  {source : String}

theorem endsLine_nil : EndsLine [] := fun _ h => nomatch h

theorem endsLine_cons : EndsLine (c :: before) ↔ (before = [] → c = '\n') ∧ EndsLine before := by
  cases before with
  | nil =>
      refine ⟨fun h => ⟨fun _ => h c rfl, endsLine_nil⟩, fun ⟨h, _⟩ c' heq => ?_⟩
      cases heq
      exact h rfl
  | cons c' before =>
      rw [EndsLine, EndsLine, List.getLast?_cons_cons]
      exact ⟨fun h => ⟨(nomatch ·), h⟩, And.right⟩

/-- Only the empty text ends a line without having one. -/
theorem EndsLine.eq_nil (h : EndsLine before) (hcount : before.count '\n' = 0) : before = [] := by
  rw [← List.getLast?_eq_none_iff, Option.eq_none_iff_forall_ne_some]
  intro c hc
  exact List.count_eq_zero.mp hcount (h c hc ▸ List.mem_of_getLast? hc)

/-! ### The position after a text -/

/-- Every text consists of whole lines and of characters of one more line. -/
theorem exists_endsLine_append (before : List Char) :
    ∃ lines line, before = lines ++ line ∧ EndsLine lines ∧ '\n' ∉ line := by
  induction before with
  | nil => exact ⟨[], [], rfl, endsLine_nil, List.not_mem_nil⟩
  | cons c before ih =>
      rcases ih with ⟨lines, line, rfl, hlines, hline⟩
      by_cases hc : lines = [] ∧ c ≠ '\n'
      · rcases hc with ⟨rfl, hc⟩
        refine ⟨[], c :: line, rfl, endsLine_nil, ?_⟩
        rw [List.mem_cons]
        exact not_or.mpr ⟨Ne.symm hc, hline⟩
      · refine ⟨c :: lines, line, rfl, endsLine_cons.mpr ⟨fun hnil => ?_, hlines⟩, hline⟩
        exact not_not.mp fun hne => hc ⟨hnil, hne⟩

/-- The position after whole lines and characters of one more line. -/
theorem after_append (hbefore : EndsLine before) (hline : '\n' ∉ line) :
    after (before ++ line) = ⟨before.count '\n' + 1, line.length + 1⟩ := by
  have hall : ∀ c ∈ line.reverse, (c != '\n') = true := fun c hc =>
    bne_iff_ne.mpr fun heq => hline (heq ▸ List.mem_reverse.mp hc)
  have hstop : before.reverse.takeWhile (· != '\n') = [] := by
    cases hlast : before.reverse with
    | nil => rfl
    | cons c rest =>
        have hc := hbefore c (by rw [List.getLast?_eq_head?_reverse, hlast, List.head?_cons])
        rw [hc]
        rfl
  rw [after, List.count_append, List.count_eq_zero.mpr hline, List.reverse_append,
    List.takeWhile_append_of_pos hall, hstop, List.append_nil, List.length_reverse, Nat.add_zero]

/-- What ends before an offset is the text before it, where the offset is the end of a text. -/
theorem charsBefore_append (before rest : List Char) :
    charsBefore (utf8Len before) (before ++ rest) = before := by
  induction before with
  | nil =>
      cases rest with
      | nil => rfl
      | cons c rest => exact if_neg (Nat.not_le.mpr c.utf8Size_pos)
  | cons c before ih =>
      rw [List.cons_append, charsBefore, String.utf8Len_cons,
        if_pos (Nat.le_add_left ..), Nat.add_sub_cancel, ih]

/-! ### Walking over lines and characters -/

theorem skipLines_zero (cs : List Char) : skipLines 0 cs = some (0, cs) := by
  cases cs with
  | nil => rfl
  | cons c cs => rfl

/-- Walking over lines cuts a text where a line starts. -/
theorem skipLines_eq_some_iff :
    skipLines n cs = some (k, rest) ↔
      ∃ before, cs = before ++ rest ∧ EndsLine before ∧ before.count '\n' = n ∧
        utf8Len before = k := by
  induction cs generalizing n k with
  | nil =>
      constructor
      · intro h
        rw [skipLines] at h
        split at h
        · next hn =>
            cases h
            exact ⟨[], rfl, endsLine_nil, hn.symm, rfl⟩
        · cases h
      · rintro ⟨before, h, _, rfl, rfl⟩
        rcases List.append_eq_nil_iff.mp h.symm with ⟨rfl, rfl⟩
        rfl
  | cons c cs ih =>
      cases n with
      | zero =>
          constructor
          · intro h
            cases h
            exact ⟨[], rfl, endsLine_nil, rfl, rfl⟩
          · rintro ⟨before, h, hends, hcount, rfl⟩
            cases hends.eq_nil hcount
            rw [h]
            exact skipLines_zero rest
      | succ n =>
          rw [skipLines, Option.map_eq_some_iff]
          constructor
          · rintro ⟨⟨k', rest'⟩, h, heq⟩
            cases heq
            rcases ih.mp h with ⟨before, rfl, hends, hcount, rfl⟩
            refine ⟨c :: before, rfl, endsLine_cons.mpr ⟨?_, hends⟩, ?_, Nat.add_comm ..⟩
            · rintro rfl
              split at hcount
              · assumption
              · cases hcount
            · rw [List.count_cons, hcount]
              by_cases hc : c = '\n' <;> simp [hc]
          · rintro ⟨before, h, hends, hcount, rfl⟩
            cases before with
            | nil => cases hcount
            | cons c' before =>
                rcases List.cons.inj h with ⟨rfl, rfl⟩
                refine ⟨(utf8Len before, rest), ih.mpr ⟨before, rfl, (endsLine_cons.mp hends).2, ?_, rfl⟩,
                  congrArg (·, rest) (Nat.add_comm ..)⟩
                rw [List.count_cons] at hcount
                by_cases hc : c = '\n' <;> simp [hc] at hcount ⊢ <;> exact hcount

/-- Walking over characters stays on their line. -/
theorem bytesOnLine_eq_some_iff :
    bytesOnLine n cs = some k ↔
      ∃ line rest, cs = line ++ rest ∧ '\n' ∉ line ∧ line.length = n ∧ utf8Len line = k := by
  induction cs generalizing n k with
  | nil =>
      constructor
      · intro h
        rw [bytesOnLine] at h
        split at h
        · next hn =>
            cases h
            exact ⟨[], [], rfl, List.not_mem_nil, hn.symm, rfl⟩
        · cases h
      · rintro ⟨line, rest, h, _, rfl, rfl⟩
        rcases List.append_eq_nil_iff.mp h.symm with ⟨rfl, rfl⟩
        rfl
  | cons c cs ih =>
      cases n with
      | zero =>
          constructor
          · intro h
            cases h
            exact ⟨[], c :: cs, rfl, List.not_mem_nil, rfl, rfl⟩
          · rintro ⟨line, rest, _, _, hlength, rfl⟩
            rw [List.eq_nil_of_length_eq_zero hlength]
            rfl
      | succ n =>
          by_cases hc : c = '\n'
          · rw [bytesOnLine, if_pos hc]
            constructor
            · exact fun h => nomatch h
            · rintro ⟨line, rest, h, hline, hlength, _⟩
              cases line with
              | nil => cases hlength
              | cons c' line =>
                  rcases List.cons.inj h with ⟨rfl, _⟩
                  exact absurd (hc ▸ List.mem_cons_self) hline
          · rw [bytesOnLine, if_neg hc, Option.map_eq_some_iff]
            constructor
            · rintro ⟨k', h, rfl⟩
              rcases ih.mp h with ⟨line, rest, rfl, hline, rfl, rfl⟩
              refine ⟨c :: line, rest, rfl, ?_, rfl, Nat.add_comm ..⟩
              rw [List.mem_cons]
              exact not_or.mpr ⟨Ne.symm hc, hline⟩
            · rintro ⟨line, rest, h, hline, hlength, rfl⟩
              cases line with
              | nil => cases hlength
              | cons c' line =>
                  rcases List.cons.inj h with ⟨rfl, rfl⟩
                  exact ⟨utf8Len line, ih.mpr ⟨line, rest, rfl,
                    fun hmem => hline (List.mem_cons_of_mem _ hmem), Nat.succ.inj hlength, rfl⟩,
                    Nat.add_comm ..⟩

/-- The offset of a position is where a text before it ends. -/
theorem offset?_eq_some_iff (hline : 1 ≤ p.line) (hcolumn : 1 ≤ p.column) :
    p.offset? source = some o ↔
      ∃ before rest, source.toList = before ++ rest ∧ after before = p ∧ utf8Len before = o := by
  rcases p with ⟨l, c⟩
  rw [offset?, if_neg (Nat.ne_of_gt hcolumn)]
  constructor
  · intro h
    split at h
    · cases h
    · next start rest hskip =>
        rcases skipLines_eq_some_iff.mp hskip with ⟨lines, hsource, hends, hcount, rfl⟩
        rcases Option.map_eq_some_iff.mp h with ⟨k, hbytes, rfl⟩
        rcases bytesOnLine_eq_some_iff.mp hbytes with ⟨line, rest', rfl, hline', hlength, rfl⟩
        refine ⟨lines ++ line, rest', by rw [hsource, List.append_assoc], ?_,
          String.utf8Len_append ..⟩
        rw [after_append hends hline', hcount, hlength]
        exact congrArg₂ _ (Nat.sub_add_cancel hline) (Nat.sub_add_cancel hcolumn)
  · rintro ⟨before, rest, hsource, hafter, rfl⟩
    rcases exists_endsLine_append before with ⟨lines, line, rfl, hends, hline'⟩
    rw [after_append hends hline'] at hafter
    cases hafter
    have hskip : skipLines (lines.count '\n') source.toList = some (utf8Len lines, line ++ rest) :=
      skipLines_eq_some_iff.mpr ⟨lines, by rw [hsource, List.append_assoc], hends, rfl, rfl⟩
    have hbytes : bytesOnLine line.length (line ++ rest) = some (utf8Len line) :=
      bytesOnLine_eq_some_iff.mpr ⟨line, rest, rfl, hline', rfl, rfl⟩
    simp only [Nat.add_sub_cancel, hskip, hbytes, Option.map_some, String.utf8Len_append]

/-! ### Positions that a text does not have -/

theorem takeWhile_cons (hc : c ≠ '\n') :
    (c :: cs).takeWhile (· != '\n') = c :: cs.takeWhile (· != '\n') :=
  List.takeWhile_cons_of_pos (bne_iff_ne.mpr hc)

/-- What is left at the start of a line begins with that line. -/
theorem getElem?_splitOn (n : Nat) (cs : List Char) :
    (cs.splitOn '\n')[n]? = (skipLines n cs).map fun r => r.2.takeWhile (· != '\n') := by
  induction cs generalizing n with
  | nil => cases n <;> rfl
  | cons c cs ih =>
      rw [List.splitOn_cons_eq_if_modifyHead]
      by_cases hc : c = '\n'
      · rw [if_pos (beq_iff_eq.mpr hc)]
        cases n with
        | zero =>
            rw [skipLines_zero, Option.map_some, hc]
            rfl
        | succ n =>
            rw [List.getElem?_cons_succ, ih, skipLines, if_pos hc, Option.map_map]
            rfl
      · rw [if_neg (mt beq_iff_eq.mp hc)]
        cases n with
        | zero =>
            rw [List.getElem?_modifyHead_zero, ih, skipLines_zero, skipLines_zero, Option.map_some,
              Option.map_some, Option.map_some]
            exact congrArg some (takeWhile_cons hc).symm
        | succ n =>
            rw [List.getElem?_modifyHead_succ, ih, skipLines, if_neg hc, Option.map_map]
            rfl

/-- A line has no such column when that is past its end. -/
theorem bytesOnLine_eq_none_iff :
    bytesOnLine n cs = none ↔ (cs.takeWhile (· != '\n')).length < n := by
  induction cs generalizing n with
  | nil =>
      rw [bytesOnLine]
      split
      · next hn => exact iff_of_false (fun h => nomatch h) (hn ▸ Nat.lt_irrefl 0)
      · next hn => exact iff_of_true rfl (Nat.pos_of_ne_zero hn)
  | cons c cs ih =>
      cases n with
      | zero => exact iff_of_false (fun h => nomatch h) (Nat.not_lt_zero _)
      | succ n =>
          by_cases hc : c = '\n'
          · rw [bytesOnLine, if_pos hc, hc]
            exact iff_of_true rfl (Nat.succ_pos n)
          · rw [bytesOnLine, if_neg hc, Option.map_eq_none_iff, ih, takeWhile_cons hc,
              List.length_cons, Nat.succ_lt_succ_iff]

/-- A text does not have a position exactly when it has no such line or that line ends before
    the column. -/
theorem offset?_eq_none_iff (hcolumn : 1 ≤ p.column) :
    p.offset? source = none ↔
      ∀ line, (source.toList.splitOn '\n')[p.line - 1]? = some line → line.length + 1 < p.column := by
  rw [offset?, if_neg (Nat.ne_of_gt hcolumn)]
  split
  · next hskip =>
      rw [getElem?_splitOn, hskip]
      exact iff_of_true rfl fun line h => nomatch h
  · next start rest hskip =>
      rw [Option.map_eq_none_iff, bytesOnLine_eq_none_iff, getElem?_splitOn, hskip,
        Nat.lt_sub_iff_add_lt]
      exact ⟨fun h line heq => Option.some.inj heq ▸ h, fun h => h _ rfl⟩

/-! ### Both ways -/

/-- An offset is between two characters when a text ends there. -/
theorem isValid_iff : (⟨o⟩ : String.Pos.Raw).IsValid source ↔
    ∃ before rest, source.toList = before ++ rest ∧ utf8Len before = o := by
  rw [String.Pos.Raw.isValid_iff_exists_append]
  constructor
  · rintro ⟨before, rest, rfl, heq⟩
    refine ⟨before.toList, rest.toList, String.toList_append, ?_⟩
    rw [String.utf8Len_toList]
    exact (String.Pos.Raw.ext_iff.mp heq).symm
  · rintro ⟨before, rest, hsource, rfl⟩
    refine ⟨String.ofList before, String.ofList rest, ?_, (String.rawEndPos_ofList before).symm⟩
    rw [← String.ofList_append, ← hsource, String.ofList_toList]

/-- The position of an offset has that offset, an offset of a position is between two
    characters and has that position, and a position has no offset exactly when it is past the
    end of its line or past the last line. -/
theorem offset?_of (source : String) :
    (∀ o, (⟨o⟩ : String.Pos.Raw).IsValid source → (of source o).offset? source = some o) ∧
    (∀ p : Position, 1 ≤ p.line → 1 ≤ p.column → ∀ o, p.offset? source = some o →
      (⟨o⟩ : String.Pos.Raw).IsValid source ∧ of source o = p) ∧
    ∀ p : Position, 1 ≤ p.line → 1 ≤ p.column → (p.offset? source = none ↔
      ∀ line, (source.toList.splitOn '\n')[p.line - 1]? = some line →
        line.length + 1 < p.column) := by
  refine ⟨fun o ho => ?_, fun p hline hcolumn o ho => ?_, fun p _ => offset?_eq_none_iff⟩
  · rcases isValid_iff.mp ho with ⟨before, rest, hsource, rfl⟩
    rw [of, hsource, charsBefore_append]
    have hbefore : 1 ≤ (after before).line ∧ 1 ≤ (after before).column :=
      ⟨Nat.succ_pos _, Nat.succ_pos _⟩
    exact (offset?_eq_some_iff hbefore.1 hbefore.2).mpr ⟨before, rest, hsource, rfl, rfl⟩
  · rcases (offset?_eq_some_iff hline hcolumn).mp ho with ⟨before, rest, hsource, rfl, rfl⟩
    refine ⟨isValid_iff.mpr ⟨before, rest, hsource, rfl⟩, ?_⟩
    rw [of, hsource, charsBefore_append]

/-- A letter of two bytes is one column wide, and so is a carriage return. -/
theorem offset?_of_accent :
    (⟨1, 3⟩ : Position).offset? "é=\r\n" = some 3 ∧ of "é=\r\n" 3 = ⟨1, 3⟩ ∧
      (⟨1, 5⟩ : Position).offset? "é=\r\n" = none := by
  rcases offset?_of "é=\r\n" with ⟨_, hback, hnone⟩
  have ho : (⟨1, 3⟩ : Position).offset? "é=\r\n" = some 3 := by decide
  refine ⟨ho, (hback ⟨1, 3⟩ (by decide) (by decide) 3 ho).2, ?_⟩
  exact (hnone ⟨1, 5⟩ (by decide) (by decide)).mpr fun line hline => by
    cases hline
    decide

end Position

end Text

end Nominal
