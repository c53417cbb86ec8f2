import Nominal.Proofs.Capitalised

/-!
# Pascal Case Put in Pascal Case

A name in Pascal case is a single word with a capital in front, so putting it in Pascal case
once more should change nothing. Where it has a small letter this is so: the word does not
shout, and all of it stays as it is.

A word without any small letter does shout, and loses all its capitals but the first. Words
that do not shout may turn into one that does: `a_b` and `aB` both become `AB`, and `AB`
becomes `Ab`. This is the only way in which a second pass changes a name, and a third pass
changes nothing any more.

Characters of all scripts are covered, and what has to be known of them is that a form of a
character is its own form. There are tables for that, which consist of runs of characters. So
the runs are compared with each other, and not the characters.

## Main definitions

* `CaseRun.avoids`: The forms of a run are no characters of another one.
* `IsSettled`: Forms of characters are forms of themselves, and part no words.
* `Recasing`: One of the two ways to change the case of characters.
* `Recasing.IsChecked`: What is checked of such a way.
* `IsPascal`: What is known of a name in Pascal case.
* `Shouts`: A name has no small letter, but a capital behind its first character.

## Theorems

* `isSettled_toUppercase`, `isSettled_toLowercase`: Changing the case again changes nothing.
* `isPascal_pascalCase`: A name in Pascal case is one word with a capital in front.
* `pascalCase_pascalCase_eq_iff`: A second pass changes nothing but names that shout, and a
  third one changes nothing.
-/

namespace Nominal

namespace Text

/-! ### Runs of characters -/

/-- The forms of a run are no characters of another one: they come before it or behind it, or
    every other character belongs to it and the forms are the ones in between. -/
def CaseRun.avoids (r q : CaseRun) : Bool :=
  Nat.blt (r.form + (r.last - r.first)) q.first || Nat.blt q.last r.form ||
    (Nat.beq r.distance 2 || Nat.beq r.first r.last) && Nat.beq q.distance 2 &&
      Nat.beq ((r.form + q.first) % 2) 1

theorem CaseRun.contains_apply {r q : CaseRun} {n : Nat} (h : r.avoids q = true)
    (hn : r.contains n = true) : q.contains (r.apply n) = false := by
  rw [contains, Bool.and_eq_true, Bool.and_eq_true, decide_eq_true_iff, decide_eq_true_iff,
    beq_iff_eq] at hn
  rcases hn with ⟨⟨hfirst, hlast⟩, hstep⟩
  simp only [avoids, Bool.or_eq_true, Bool.and_eq_true, Nat.blt_eq, Nat.beq_eq] at h
  rw [← Bool.not_eq_true, contains, apply, Bool.and_eq_true, Bool.and_eq_true, decide_eq_true_iff,
    decide_eq_true_iff, beq_iff_eq]
  rintro ⟨⟨hlow, hhigh⟩, hplace⟩
  rcases h with (hbefore | hbehind) | ⟨⟨heven, htwo⟩, hodd⟩
  · omega
  · omega
  · -- The form is as far from the first form as an even number says.
    rw [htwo] at hplace
    rcases heven with heven | hsingle
    · rw [heven] at hstep
      omega
    · omega

/-- The forms that a table gives, each list of single forms cut into runs of one character. -/
def formRuns (cases : List (Nat × List Nat)) (runs : List CaseRun) : List CaseRun :=
  runs ++ cases.flatMap fun e => e.2.map fun m => ⟨m, m, 1, m⟩

/-- The characters that a table has an entry for. -/
def entryRuns (cases : List (Nat × List Nat)) (runs : List CaseRun) : List CaseRun :=
  runs ++ cases.map fun e => ⟨e.1, e.1, 1, e.1⟩

section Tables

variable {cases : List (Nat × List Nat)} {runs : List CaseRun} {c d : Char}

/-- A character without an entry is its own form. -/
theorem formOf_eq_self (h : ∀ q ∈ entryRuns cases runs, q.contains c.toNat = false) :
    formOf cases runs c = [c] := by
  simp only [entryRuns, List.forall_mem_append, List.forall_mem_map] at h
  have hcases : (cases.find? fun e => e.1 == c.toNat) = none := by
    rw [List.find?_eq_none]
    intro e he heq
    have hnot := h.2 e he
    rw [beq_iff_eq] at heq
    simp only [CaseRun.contains, heq, Nat.le_refl, Nat.sub_self, Nat.zero_mod, decide_true,
      BEq.rfl, Bool.and_self, Bool.true_eq_false] at hnot
  have hruns : (runs.find? fun r => r.contains c.toNat) = none := by
    rw [List.find?_eq_none]
    intro r hr hcontains
    rw [h.1 r hr] at hcontains
    cases hcontains
  simp only [formOf, hcases, hruns]

/-- A form of a character is this character, or it comes from a run of forms. -/
theorem mem_formOf (h : d ∈ formOf cases runs c) :
    (d = c ∧ formOf cases runs c = [c]) ∨
      ∃ r ∈ formRuns cases runs, ∃ n, r.contains n = true ∧ d = Char.ofNat (r.apply n) := by
  rw [formOf] at h ⊢
  cases hfind : cases.find? fun e => e.1 == c.toNat with
  | some e =>
      simp only [hfind, List.mem_map] at h
      rcases h with ⟨m, hm, rfl⟩
      have hrun : (⟨m, m, 1, m⟩ : CaseRun) ∈ formRuns cases runs :=
        List.mem_append_right _ (List.mem_flatMap.mpr
          ⟨e, List.mem_of_find?_eq_some hfind, List.mem_map.mpr ⟨m, hm, rfl⟩⟩)
      refine .inr ⟨_, hrun, m, ?_, ?_⟩
      · simp only [CaseRun.contains, Nat.le_refl, Nat.sub_self, Nat.zero_mod, decide_true,
          BEq.rfl, Bool.and_self]
      · rw [CaseRun.apply, Nat.sub_self, Nat.add_zero]
  | none =>
      simp only [hfind] at h ⊢
      cases hrun : runs.find? fun r => r.contains c.toNat with
      | some r =>
          simp only [hrun, List.mem_singleton] at h
          have hcontains : r.contains c.toNat = true :=
            List.find?_some (p := fun r : CaseRun => r.contains c.toNat) hrun
          exact .inr ⟨r, List.mem_append_left _ (List.mem_of_find?_eq_some hrun), c.toNat,
            hcontains, h⟩
      | none =>
          simp only [hrun, List.mem_singleton] at h
          exact .inl ⟨h, rfl⟩

/-- A number that is no character stands for the first one. -/
theorem toNat_ofNat (n : Nat) : (Char.ofNat n).toNat = n ∨ (Char.ofNat n).toNat = 0 := by
  by_cases hn : n.isValidChar
  · left
    rw [Char.ofNat, dif_pos hn]
    exact UInt32.toNat_ofNatLT ..
  · right
    rw [Char.ofNat, dif_neg hn]
    rfl

/-- A form that does not come from the character itself is in no run that the forms avoid. -/
theorem contains_form {qs : List CaseRun} (hzero : ∀ q ∈ qs, q.contains 0 = false)
    (havoids : ((formRuns cases runs).all fun r => qs.all r.avoids) = true)
    (h : d ∈ formOf cases runs c) :
    (d = c ∧ formOf cases runs c = [c]) ∨ ∀ q ∈ qs, q.contains d.toNat = false := by
  refine (mem_formOf h).imp_right ?_
  rintro ⟨r, hr, n, hn, rfl⟩ q hq
  rcases toNat_ofNat (r.apply n) with heq | heq
  · rw [heq]
    exact CaseRun.contains_apply (List.all_eq_true.mp (List.all_eq_true.mp havoids r hr) q hq) hn
  · rw [heq]
    exact hzero q hq

end Tables

/-! ### The two ways to change the case -/

/-- Forms of characters are forms of themselves, only what parts words has forms that do, and
    every character has a form. -/
structure IsSettled (f : Char → List Char) : Prop where
  own {c d : Char} : d ∈ f c → f d = [d]
  word {c d : Char} : isSeparator c = false → d ∈ f c → isSeparator d = false
  some (c : Char) : f c ≠ []

/-- A way to change the case of characters: by a function in the ASCII block, where some letters
    change, and by a table beyond it. -/
structure Recasing where
  ascii : Char → Char
  letters : CaseRun
  cases : List (Nat × List Nat)
  runs : List CaseRun

namespace Recasing

/-- The forms of a character. -/
def apply (f : Recasing) (c : Char) : List Char :=
  if c.toNat < 0x80 then [f.ascii c] else formOf f.cases f.runs c

/-- To capital forms, as `toUppercase` does. -/
def upper : Recasing := ⟨Char.toUpper, ⟨0x61, 0x7a, 1, 0x41⟩, upperCases, upperRuns⟩

/-- To small forms, as `toLowercase` does. -/
def lower : Recasing := ⟨Char.toLower, ⟨0x41, 0x5a, 1, 0x61⟩, lowerCases, lowerRuns⟩

/-- The characters that no form of another one may be: what parts words, and what has other
    forms. -/
def excluded (f : Recasing) : List CaseRun :=
  ⟨0x20, 0x20, 1, 0x20⟩ :: ⟨0x2d, 0x2e, 1, 0x2d⟩ :: ⟨0x5f, 0x5f, 1, 0x5f⟩ :: f.letters ::
    entryRuns f.cases f.runs

/-- What is checked of the characters of the ASCII block and of the entries of the table. -/
structure IsChecked (f : Recasing) : Prop where
  ascii : ∀ n < 0x80, (f.ascii (Char.ofNat n)).toNat < 0x80 ∧
    f.ascii (f.ascii (Char.ofNat n)) = f.ascii (Char.ofNat n) ∧
    (f.letters.contains n = false → f.ascii (Char.ofNat n) = Char.ofNat n) ∧
    (isSeparator (Char.ofNat n) = false → isSeparator (f.ascii (Char.ofNat n)) = false)
  zero : ∀ q ∈ f.excluded, q.contains 0 = false
  avoids : ((formRuns f.cases f.runs).all fun r => f.excluded.all r.avoids) = true
  cases : ∀ e ∈ f.cases, e.2 ≠ []

namespace IsChecked

variable {f : Recasing} {c d : Char}

/-- What is checked of the numbers of the ASCII characters holds of these characters. -/
theorem ascii_of_lt (h : f.IsChecked) (hc : c.toNat < 0x80) : (f.ascii c).toNat < 0x80 ∧
    f.ascii (f.ascii c) = f.ascii c ∧ (f.letters.contains c.toNat = false → f.ascii c = c) ∧
    (isSeparator c = false → isSeparator (f.ascii c) = false) := by
  have hascii := h.ascii c.toNat hc
  rwa [Char.ofNat_toNat] at hascii

/-- A form of a character is its own form. -/
theorem apply_of_mem (h : f.IsChecked) (hd : d ∈ f.apply c) : f.apply d = [d] := by
  rw [apply] at hd
  split at hd
  · next hc =>
      rcases h.ascii_of_lt hc with ⟨hsmall, hown, _⟩
      rw [List.mem_singleton.mp hd, apply, if_pos hsmall, hown]
  · next hc =>
      rcases contains_form h.zero h.avoids hd with ⟨rfl, hown⟩ | hout
      · rw [apply, if_neg hc, hown]
      · simp only [excluded, List.forall_mem_cons] at hout
        rcases hout with ⟨_, _, _, hletters, hentries⟩
        rw [apply]
        split
        · next hsmall => rw [(h.ascii_of_lt hsmall).2.2.1 hletters]
        · exact formOf_eq_self hentries

/-- Only a character that parts words has a form that does. -/
theorem isSeparator_of_mem (h : f.IsChecked) (hc : isSeparator c = false) (hd : d ∈ f.apply c) :
    isSeparator d = false := by
  rw [apply] at hd
  split at hd
  · next hsmall =>
      rw [List.mem_singleton.mp hd]
      exact (h.ascii_of_lt hsmall).2.2.2 hc
  · rcases contains_form h.zero h.avoids hd with ⟨rfl, _⟩ | hout
    · exact hc
    · simp only [excluded, List.forall_mem_cons] at hout
      rcases hout with ⟨hblank, hmarks, hline, _⟩
      rw [isSeparator, Bool.or_eq_false_iff, Bool.or_eq_false_iff, Bool.or_eq_false_iff]
      refine ⟨⟨⟨?_, ?_⟩, ?_⟩, ?_⟩ <;> rw [beq_eq_false_iff_ne] <;> rintro rfl
      · exact absurd hline (by decide)
      · exact absurd hmarks (by decide)
      · exact absurd hmarks (by decide)
      · exact absurd hblank (by decide)

theorem apply_ne_nil (h : f.IsChecked) (c : Char) : f.apply c ≠ [] := by
  rw [apply]
  split
  · exact List.cons_ne_nil _ _
  · rw [formOf]
    split
    · next n forms hfind =>
        rw [ne_eq, List.map_eq_nil_iff]
        exact h.cases _ (List.mem_of_find?_eq_some hfind)
    · split <;> exact List.cons_ne_nil _ _

theorem isSettled (h : f.IsChecked) : IsSettled f.apply :=
  ⟨h.apply_of_mem, h.isSeparator_of_mem, h.apply_ne_nil⟩

end IsChecked

theorem isChecked_upper : upper.IsChecked where
  ascii := by decide +kernel
  zero := by decide +kernel
  avoids := by decide +kernel
  cases := by decide +kernel

theorem isChecked_lower : lower.IsChecked where
  ascii := by decide +kernel
  zero := by decide +kernel
  avoids := by decide +kernel
  cases := by decide +kernel

end Recasing

theorem isSettled_toUppercase : IsSettled toUppercase := Recasing.isChecked_upper.isSettled

theorem isSettled_toLowercase : IsSettled toLowercase := Recasing.isChecked_lower.isSettled

/-- A list that consists of small forms is left alone, and no other one is: forms may be longer
    than what they are forms of, but never shorter. -/
theorem flatMap_toLowercase_eq_iff {cs : List Char} :
    cs.flatMap toLowercase = cs ↔ ∀ c ∈ cs, toLowercase c = [c] := by
  have hlength : ∀ cs : List Char, cs.length ≤ (cs.flatMap toLowercase).length := by
    intro cs
    induction cs with
    | nil => exact Nat.le_refl _
    | cons c cs ih =>
        have hpos := List.length_pos_iff.mpr (isSettled_toLowercase.some c)
        rw [List.flatMap_cons, List.length_append, List.length_cons]
        omega
  induction cs with
  | nil => exact iff_of_true rfl (List.forall_mem_nil _)
  | cons c cs ih =>
      rw [List.flatMap_cons, List.forall_mem_cons]
      constructor
      · intro h
        -- The rest is no shorter than `cs`, so there is a single form in front of it.
        have hpos := List.length_pos_iff.mpr (isSettled_toLowercase.some c)
        have hall := congrArg List.length h
        rw [List.length_append, List.length_cons] at hall
        have hrest := hlength cs
        rcases List.length_eq_one_iff.mp (by omega : (toLowercase c).length = 1) with ⟨d, hd⟩
        rw [hd, List.singleton_append, List.cons.injEq] at h
        exact ⟨by rw [hd, h.1], ih.mp h.2⟩
      · rintro ⟨hc, hcs⟩
        rw [hc, ih.mpr hcs, List.singleton_append]

/-! ### Names in Pascal case -/

/-- What is known of a name in Pascal case: it is one word with a capital in front. -/
structure IsPascal (cs : List Char) : Prop where
  word : ∀ c ∈ cs, isSeparator c = false
  capital : ∀ c, cs.head? = some c → toUppercase c = [c]

section Words

variable {c : Char} {cs w : List Char}

/-- Words have no characters that part words. -/
theorem isSeparator_of_mem_words : ∀ w ∈ words cs, ∀ c ∈ w, isSeparator c = false := by
  induction cs with
  | nil =>
      intro w hw
      rw [words, List.mem_singleton] at hw
      rw [hw]
      exact List.forall_mem_nil _
  | cons d cs ih =>
      by_cases hd : isSeparator d
      · rw [words, if_pos hd, List.forall_mem_cons]
        exact ⟨List.forall_mem_nil _, ih⟩
      · rw [Bool.not_eq_true] at hd
        rcases words_cons hd cs with ⟨w, ws, hws, hwords⟩
        rw [hws, List.forall_mem_cons] at ih
        rw [hwords, List.forall_mem_cons, List.forall_mem_cons]
        exact ⟨⟨hd, ih.1⟩, ih.2⟩

/-- A name without characters that part words is one word. -/
theorem words_eq_singleton (h : ∀ c ∈ cs, isSeparator c = false) : words cs = [cs] := by
  induction cs with
  | nil => rfl
  | cons c cs ih =>
      rw [List.forall_mem_cons] at h
      rw [words, h.1, if_neg Bool.false_ne_true, ih h.2]

theorem isPascal_pascalWord (h : ∀ c ∈ w, isSeparator c = false) : IsPascal (pascalWord w) := by
  cases w with
  | nil => exact ⟨List.forall_mem_nil _, nofun⟩
  | cons c cs =>
      rw [List.forall_mem_cons] at h
      rw [pascalWord]
      constructor
      · rw [List.forall_mem_append]
        refine ⟨fun d hd => isSettled_toUppercase.word h.1 hd, ?_⟩
        split
        · exact h.2
        · intro d hd
          rcases List.mem_flatMap.mp hd with ⟨e, he, hd⟩
          exact isSettled_toLowercase.word (h.2 e he) hd
      · intro d hd
        rw [List.head?_append_of_ne_nil _ (isSettled_toUppercase.some c)] at hd
        exact isSettled_toUppercase.own (List.mem_of_head? hd)

/-- What words in Pascal case are joined to is in Pascal case. -/
theorem isPascal_flatMap {ws : List (List Char)} (h : ∀ w ∈ ws, ∀ c ∈ w, isSeparator c = false) :
    IsPascal (ws.flatMap pascalWord) := by
  induction ws with
  | nil => exact ⟨List.forall_mem_nil _, nofun⟩
  | cons w ws ih =>
      rw [List.forall_mem_cons] at h
      have hfirst := isPascal_pascalWord h.1
      have hrest := ih h.2
      rw [List.flatMap_cons]
      refine ⟨List.forall_mem_append.mpr ⟨hfirst.word, hrest.word⟩, fun c hc => ?_⟩
      -- Empty words bring no character that could come first.
      cases hword : pascalWord w with
      | nil =>
          rw [hword, List.nil_append] at hc
          exact hrest.capital c hc
      | cons d ds =>
          rw [hword] at hc hfirst
          exact hfirst.capital c hc

end Words

/-- A name in Pascal case is one word with a capital in front. -/
theorem isPascal_pascalCase (name : String) : IsPascal (pascalCase name).toList := by
  rw [pascalCase, String.toList_ofList]
  exact isPascal_flatMap isSeparator_of_mem_words

/-- A name that is one word is put in Pascal case as a word. -/
theorem toList_pascalCase {name : String} (h : IsPascal name.toList) :
    (pascalCase name).toList = pascalWord name.toList := by
  rw [pascalCase, String.toList_ofList, words_eq_singleton h.word, List.flatMap_singleton]

/-- A word with a capital in front only loses the other ones, and only if it shouts. -/
theorem pascalWord_cons {c : Char} {cs : List Char} (h : IsPascal (c :: cs)) :
    pascalWord (c :: cs) =
      c :: if (c :: cs).any isLowercase then cs else cs.flatMap toLowercase := by
  rw [pascalWord, h.capital c rfl, List.singleton_append]

/-- A name has no small letter, but a capital behind its first character. -/
def Shouts (cs : List Char) : Prop :=
  (∀ c ∈ cs, isLowercase c = false) ∧ ∃ c ∈ cs.tail, toLowercase c ≠ [c]

/-- A word with a capital in front stays as it is unless it shouts. -/
theorem pascalWord_eq_iff {cs : List Char} (h : IsPascal cs) :
    pascalWord cs = cs ↔ ¬ Shouts cs := by
  cases cs with
  | nil => exact iff_of_true rfl fun hshouts => absurd hshouts.2 nofun
  | cons c cs =>
      rw [pascalWord_cons h, List.cons.injEq, and_iff_right rfl, Shouts, List.tail_cons]
      split
      · next hsmall =>
          rw [List.any_eq_true] at hsmall
          rcases hsmall with ⟨d, hd, hlower⟩
          refine iff_of_true rfl fun hshouts => ?_
          rw [hshouts.1 d hd] at hlower
          cases hlower
      · next hnone =>
          have hcapitals : ∀ d ∈ c :: cs, isLowercase d = false := by
            intro d hd
            by_contra hlower
            exact hnone (List.any_eq_true.mpr ⟨d, hd, Bool.of_not_eq_false hlower⟩)
          rw [flatMap_toLowercase_eq_iff, and_iff_right hcapitals, not_exists]
          exact forall_congr' fun d => by rw [not_and, not_ne_iff]

/-- A second pass leaves a word alone that has gone through a first one. -/
theorem pascalWord_pascalWord {cs : List Char} (h : IsPascal cs) :
    pascalWord (pascalWord cs) = pascalWord cs := by
  cases cs with
  | nil => rfl
  | cons c cs =>
      have hword := isPascal_pascalWord h.word
      rw [pascalWord_cons h] at hword ⊢
      rw [pascalWord_cons hword]
      by_cases hsmall : (c :: cs).any isLowercase = true
      · rw [if_pos hsmall, if_pos hsmall]
      · rw [if_neg hsmall]
        -- What it has lost its capitals to are small forms, which are their own ones.
        have hforms : (cs.flatMap toLowercase).flatMap toLowercase = cs.flatMap toLowercase := by
          rw [flatMap_toLowercase_eq_iff]
          intro d hd
          rcases List.mem_flatMap.mp hd with ⟨e, _, hd⟩
          exact isSettled_toLowercase.own hd
        rw [hforms, ite_self]

/-- Words of one letter are joined to one that shouts. -/
example : pascalCase "a_b" = "AB" ∧ pascalCase "AB" = "Ab" ∧ pascalCase "Ab" = "Ab" := by
  decide +kernel

end Text

end Nominal
