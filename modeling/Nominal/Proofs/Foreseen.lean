import Nominal.Proofs.Transport

/-!
# What Looking Ahead Answers in an Altered Text

Three questions of the grammar are answered by stepping over kinds of tokens: whether
variables are declared, whether there is a cast, and whether there is a lambda. The answers
must stay the same although there are more tokens.

Stepping over a type never gets across a brace or the keyword of a creation, and behind a
comma it fails at the name and the equals sign of an added member. So whatever is found in
the text after an extraction is found in the text before it. The other direction needs what
is read afterwards: where a type has been read, stepping over it gets to where the reading
has got to.

## Main definitions

* `ReadsMarks`: Where the marks behind a type are read up to.
* `StepsOverTypes`: Where a type is read, looking ahead steps over it.

## Theorems

* `typeEnd?_of_within`: The bound on the nesting is never in the way.
* `Foretold.typeEnd?`: What is stepped over behind the extraction is stepped over before it.
* `read_typeScript`: A type is read from its first part and its marks.
* `stepsOverTypes_readProduction`: Where a type is read, looking ahead steps over it.
* `Foretold.declaresLocal_eq`, `Foretold.isCast_eq`, `Foretold.isLambda_eq`: The three
  answers stay the same.
-/

namespace Nominal

open Syntax (Kind KindSet Lexeme Tree)

namespace Grammar

/-! ### Stepping over types -/

/-- The kinds behind a type, or behind type arguments and the bracket that closes them, told
    without a bound on the nesting. -/
inductive Over : (arguments : Bool) → List Kind → List Kind → Prop where
  | predefined (ks : List Kind) : Over false (.predefinedType :: ks) (marksEnd ks)
  | name {ks : List Kind} : (∀ js, segmentsEnd ks ≠ .lt :: js) →
    Over false (.id :: ks) (marksEnd (segmentsEnd ks))
  | generic {ks js r : List Kind} : segmentsEnd ks = .lt :: js → Over true js r →
    Over false (.id :: ks) (marksEnd r)
  | more {ks js r : List Kind} : Over false ks (.comma :: js) → Over true js r → Over true ks r
  | last {ks r : List Kind} : Over false ks (.gt :: r) → Over true ks r

theorem segmentsEnd_suffix (ks : List Kind) : segmentsEnd ks <:+ ks := by
  fun_induction segmentsEnd ks with
  | case1 ks ih => exact (ih.trans (List.suffix_cons _ _)).trans (List.suffix_cons _ _)
  | case2 ks => exact List.suffix_refl ks

theorem marksEnd_suffix (ks : List Kind) : marksEnd ks <:+ ks := by
  fun_induction marksEnd ks with
  | case1 ks ih => exact (ih.trans (List.suffix_cons _ _)).trans (List.suffix_cons _ _)
  | case2 ks ih => exact ih.trans (List.suffix_cons _ _)
  | case3 ks => exact List.suffix_refl ks

theorem Over.suffix {arguments : Bool} {ks r : List Kind} (h : Over arguments ks r) :
    r <:+ ks := by
  induction h with
  | predefined ks => exact (marksEnd_suffix ks).trans (List.suffix_cons _ _)
  | @name ks _ =>
      exact ((marksEnd_suffix _).trans (segmentsEnd_suffix ks)).trans (List.suffix_cons _ _)
  | @generic ks js r hsegments _ ih =>
      have hsegment : .lt :: js <:+ ks := hsegments ▸ segmentsEnd_suffix ks
      exact ((marksEnd_suffix r).trans ih).trans
        (((List.suffix_cons _ _).trans hsegment).trans (List.suffix_cons _ _))
  | more _ _ ihType ih => exact (ih.trans (List.suffix_cons _ _)).trans ihType
  | last _ ih => exact (List.suffix_cons _ _).trans ih

theorem Over.length_lt {arguments : Bool} {ks r : List Kind} (h : Over arguments ks r) :
    r.length < ks.length := by
  induction h with
  | predefined ks => exact Nat.lt_succ_of_le (marksEnd_suffix ks).length_le
  | @name ks _ =>
      exact Nat.lt_succ_of_le ((marksEnd_suffix _).trans (segmentsEnd_suffix ks)).length_le
  | @generic ks js r hsegments hargs _ =>
      have hsegment : .lt :: js <:+ ks := hsegments ▸ segmentsEnd_suffix ks
      exact Nat.lt_succ_of_le (((marksEnd_suffix r).trans hargs.suffix).trans
        ((List.suffix_cons _ _).trans hsegment)).length_le
  | more htype hargs _ ih =>
      exact Nat.lt_of_lt_of_le (Nat.lt_succ_of_lt ih) htype.suffix.length_le
  | last htype _ => exact htype.suffix.length_le

theorem typeEndWithin_plain {ks : List Kind} (h : ∀ js, segmentsEnd ks ≠ .lt :: js) (n : Nat) :
    typeEndWithin n (.id :: ks) = some (marksEnd (segmentsEnd ks)) := by
  rw [typeEndWithin]
  · exact fun js _ hlt => h js hlt
  · exact fun _ js _ hlt => h js hlt

theorem typeEndWithin_generic {ks js : List Kind} (h : segmentsEnd ks = .lt :: js) (n : Nat) :
    typeEndWithin (n + 1) (.id :: ks) = (argumentsEndWithin n js).map marksEnd := by
  rw [typeEndWithin.eq_def]
  simp only [h]

/-- With a large enough bound a type is stepped over. -/
theorem Over.within {arguments : Bool} {ks r : List Kind} (h : Over arguments ks r) (n : Nat) :
    (arguments = false → 2 * ks.length < n → typeEndWithin n ks = some r) ∧
      (arguments = true → 2 * ks.length + 1 < n → argumentsEndWithin n ks = some r) := by
  induction h generalizing n with
  | predefined ks => exact ⟨fun _ _ => by rw [typeEndWithin], nofun⟩
  | name hplain => exact ⟨fun _ _ => typeEndWithin_plain hplain n, nofun⟩
  | @generic ks js r hsegments _ ih =>
      refine ⟨fun _ hn => ?_, nofun⟩
      have hlength := (segmentsEnd_suffix ks).length_le
      rw [hsegments, List.length_cons] at hlength
      rw [List.length_cons] at hn
      obtain ⟨m, rfl⟩ : ∃ m, n = m + 1 := ⟨n - 1, by omega⟩
      rw [typeEndWithin_generic hsegments, (ih m).2 rfl (by omega), Option.map_some]
  | more htype _ ihType ih =>
      refine ⟨nofun, fun _ hn => ?_⟩
      have hfirst := htype.length_lt
      rw [List.length_cons] at hfirst
      obtain ⟨m, rfl⟩ : ∃ m, n = m + 1 := ⟨n - 1, by omega⟩
      rw [argumentsEndWithin, (ihType m).1 rfl (by omega)]
      exact (ih m).2 rfl (by omega)
  | last _ ih =>
      refine ⟨nofun, fun _ hn => ?_⟩
      obtain ⟨m, rfl⟩ : ∃ m, n = m + 1 := ⟨n - 1, by omega⟩
      rw [argumentsEndWithin, (ih m).1 rfl (by omega)]

/-- What is stepped over within a bound is stepped over without one. -/
theorem over_of_within (n : Nat) : ∀ (ks r : List Kind),
    (typeEndWithin n ks = some r → Over false ks r) ∧
      (argumentsEndWithin n ks = some r → Over true ks r) := by
  induction n with
  | zero =>
      intro ks r
      refine ⟨fun h => ?_, fun h => by rw [argumentsEndWithin] at h; cases h⟩
      match ks, h with
      | .predefinedType :: ks, h =>
          rw [typeEndWithin] at h
          cases h
          exact .predefined ks
      | .id :: ks, h =>
          by_cases hlt : ∃ js, segmentsEnd ks = .lt :: js
          · rcases hlt with ⟨js, hlt⟩
            rw [typeEndWithin.eq_def] at h
            simp only [hlt] at h
            cases h
          · rw [typeEndWithin_plain fun js hjs => hlt ⟨js, hjs⟩] at h
            cases h
            exact .name fun js hjs => hlt ⟨js, hjs⟩
  | succ n ih =>
      intro ks r
      refine ⟨fun h => ?_, fun h => ?_⟩
      · match ks, h with
        | .predefinedType :: ks, h =>
            rw [typeEndWithin] at h
            cases h
            exact .predefined ks
        | .id :: ks, h =>
            by_cases hlt : ∃ js, segmentsEnd ks = .lt :: js
            · rcases hlt with ⟨js, hlt⟩
              rw [typeEndWithin_generic hlt] at h
              rcases Option.map_eq_some_iff.mp h with ⟨r', hr, rfl⟩
              exact .generic hlt ((ih js r').2 hr)
            · rw [typeEndWithin_plain fun js hjs => hlt ⟨js, hjs⟩] at h
              cases h
              exact .name fun js hjs => hlt ⟨js, hjs⟩
      · rw [argumentsEndWithin] at h
        split at h
        · next hcomma => exact .more ((ih _ _).1 hcomma) ((ih _ _).2 h)
        · next hgt =>
            cases h
            exact .last ((ih _ _).1 hgt)
        · cases h

/-- The bound on the nesting is never in the way. -/
theorem typeEnd?_iff {ks r : List Kind} : typeEnd? ks = some r ↔ Over false ks r :=
  ⟨(over_of_within _ ks r).1, fun h => (h.within _).1 rfl (by omega)⟩

/-! ### Stepping over types in an altered text -/

theorem segmentsEnd_other {ks : List Kind} (h : ∀ js, ks ≠ .dot :: .id :: js) :
    segmentsEnd ks = ks := by
  rw [segmentsEnd]
  exact fun js hjs => h js hjs

theorem marksEnd_other {ks : List Kind} (h : ∀ js, ks ≠ .bracketOpen :: .bracketClose :: js)
    (h' : ∀ js, ks ≠ .question :: js) : marksEnd ks = ks := by
  rw [marksEnd]
  · exact fun js hjs => h js hjs
  · exact fun js hjs => h' js hjs

/-- Arguments of a type are no name with an equals sign behind it. -/
theorem not_over_assign {ks r : List Kind} : ¬Over true (.id :: .equals :: ks) r := by
  have hsegments : segmentsEnd (.equals :: ks) = .equals :: ks := segmentsEnd_other nofun
  have hmarks : marksEnd (.equals :: ks) = .equals :: ks := marksEnd_other nofun nofun
  have htype : ∀ {k : Kind} {js : List Kind}, (k == .equals) = false →
      ¬Over false (.id :: .equals :: ks) (k :: js) := by
    intro k js hk h
    generalize hends : k :: js = ends at h
    cases h with
    | name _ =>
        rw [hsegments, hmarks, List.cons.injEq] at hends
        rw [hends.1] at hk
        cases hk
    | generic hlt _ =>
        rw [hsegments] at hlt
        cases hlt
  intro h
  cases h with
  | more h _ => exact htype rfl h
  | last h => exact htype rfl h

end Grammar

namespace Foretold

open Grammar

variable {ks ls : List Kind}

theorem segmentsEnd (h : Foretold ks ls) :
    Foretold (Grammar.segmentsEnd ks) (Grammar.segmentsEnd ls) := by
  fun_induction Grammar.segmentsEnd ks generalizing ls with
  | case1 ks ih =>
      rcases h.cons_of with ⟨js, rfl⟩
      have hdot := (h.tail rfl).2
      rcases hdot.cons_of with ⟨js, rfl⟩
      rw [Grammar.segmentsEnd]
      exact ih (hdot.tail rfl).2
  | case2 ks hother =>
      rw [segmentsEnd_other]
      · exact h
      · rintro js rfl
        rcases h.of_cons with ⟨is, rfl⟩
        have hdot := (h.tail rfl).2
        rcases hdot.of_cons with ⟨is, rfl⟩
        exact hother is rfl

theorem marksEnd (h : Foretold ks ls) : Foretold (Grammar.marksEnd ks) (Grammar.marksEnd ls) := by
  fun_induction Grammar.marksEnd ks generalizing ls with
  | case1 ks ih =>
      rcases h.cons_of with ⟨js, rfl⟩
      have hopen := (h.tail rfl).2
      rcases hopen.cons_of with ⟨js, rfl⟩
      rw [Grammar.marksEnd]
      exact ih (hopen.tail rfl).2
  | case2 ks ih =>
      rcases h.cons_of with ⟨js, rfl⟩
      rw [Grammar.marksEnd]
      exact ih (h.tail rfl).2
  | case3 ks hbrackets hquestion =>
      rw [marksEnd_other]
      · exact h
      · rintro js rfl
        rcases h.of_cons with ⟨is, rfl⟩
        have hopen := (h.tail rfl).2
        rcases hopen.of_cons with ⟨is, rfl⟩
        exact hbrackets is rfl
      · rintro js rfl
        rcases h.of_cons with ⟨is, rfl⟩
        exact hquestion is rfl

/-- What is stepped over behind the extraction is stepped over before it. -/
theorem steppedOver {arguments : Bool} {ls r' : List Kind} (hover : Over arguments ls r')
    {ks : List Kind} (h : Foretold ks ls) : ∃ r, Over arguments ks r ∧ Foretold r r' := by
  induction hover generalizing ks with
  | predefined ls =>
      rcases h.of_cons with ⟨js, rfl⟩
      exact ⟨_, .predefined js, (h.tail rfl).2.marksEnd⟩
  | @name ls hplain =>
      rcases h.of_cons with ⟨js, rfl⟩
      have hsegments := (h.tail rfl).2.segmentsEnd
      refine ⟨_, .name fun is his => ?_, hsegments.marksEnd⟩
      rw [his] at hsegments
      rcases hsegments.cons_of with ⟨is', his'⟩
      exact hplain is' his'
  | @generic ls js r hlt _ ih =>
      rcases h.of_cons with ⟨is, rfl⟩
      have hsegments := (h.tail rfl).2.segmentsEnd
      rw [hlt] at hsegments
      rcases hsegments.of_cons with ⟨is', his'⟩
      rw [his'] at hsegments
      rcases ih (hsegments.tail rfl).2 with ⟨r', hr, hforetold⟩
      exact ⟨_, .generic his' hr, hforetold.marksEnd⟩
  | more _ hargs ihType ih =>
      rcases ihType h with ⟨r', hr, hcomma⟩
      generalize hjs : Kind.comma :: _ = js at hcomma
      cases hcomma with
      | nil => cases hjs
      | cons k hrest =>
          cases hjs
          rcases ih hrest with ⟨r'', hr', hforetold⟩
          exact ⟨r'', .more hr hr', hforetold⟩
      | splice more _ hne _ =>
          cases hjs
          exact absurd rfl hne
      | assign _ =>
          cases hjs
          exact absurd hargs not_over_assign
  | last _ ih =>
      rcases ih h with ⟨r', hr, hgt⟩
      rcases hgt.of_cons with ⟨js, rfl⟩
      exact ⟨js, .last hr, (hgt.tail rfl).2⟩

/-- What is stepped over behind the extraction is stepped over before it. -/
theorem typeEnd? {r' : List Kind} (h : Foretold ks ls) (hend : Grammar.typeEnd? ls = some r') :
    ∃ r, Grammar.typeEnd? ks = some r ∧ Foretold r r' := by
  rcases h.steppedOver (typeEnd?_iff.mp hend) with ⟨r, hr, hforetold⟩
  exact ⟨r, typeEnd?_iff.mpr hr, hforetold⟩

/-! ### The three answers -/

/-- Whether a name stands behind a type, and then what follows a variable. -/
def declaresBehind : Option (List Kind) → Bool
  | some (.id :: k :: _) => k == .equals || k == .semicolon || k == .comma
  | _ => false

theorem declaresBehind_of_ne {is : List Kind} (h : is.head? ≠ some .id) :
    declaresBehind (some is) = false := by
  unfold declaresBehind
  split
  · next heq =>
      cases heq
      exact absurd rfl h
  · rfl

theorem declaresLocal_of_ne {is : List Kind} (h : is.head? ≠ some .kwVar) :
    declaresLocal is = declaresBehind (Grammar.typeEnd? is) := by
  unfold declaresLocal
  split
  · exact absurd rfl h
  · rfl

/-- Whether variables are declared has the same answer, if a type is stepped over wherever
    variables of a written type are. -/
theorem declaresLocal_eq (h : Foretold ks ls)
    (hover : declaresLocal ks = true → ls.head? ≠ some .kwVar → ∃ r, Over false ls r) :
    declaresLocal ls = declaresLocal ks := by
  by_cases hvar : ks.head? = some .kwVar
  · rcases List.head?_eq_some_iff.mp hvar with ⟨js, rfl⟩
    rcases h.cons_of with ⟨js', rfl⟩
    rw [declaresLocal, declaresLocal, (h.tail rfl).2.head]
  · have hvar' : ls.head? ≠ some .kwVar := fun hls => hvar (h.head ▸ hls)
    cases hend : Grammar.typeEnd? ls with
    | some r' =>
        rcases h.typeEnd? hend with ⟨r, hr, hforetold⟩
        rw [declaresLocal_of_ne hvar', declaresLocal_of_ne hvar, hend, hr]
        by_cases hid : r.head? = some .id
        · rcases List.head?_eq_some_iff.mp hid with ⟨js, rfl⟩
          rcases hforetold.cons_of with ⟨js', rfl⟩
          have hrest := (hforetold.tail rfl).2
          cases hrest <;> rfl
        · have hid' : r'.head? ≠ some .id := hforetold.head ▸ hid
          rw [declaresBehind_of_ne hid, declaresBehind_of_ne hid']
    | none =>
        have hfalse : declaresLocal ls = false := by
          rw [declaresLocal_of_ne hvar', hend]
          rfl
        rw [hfalse]
        cases hks : declaresLocal ks with
        | false => rfl
        | true =>
            rcases hover hks hvar' with ⟨r, hr⟩
            rw [typeEnd?_iff.mpr hr] at hend
            cases hend

/-- Whether there is a cast has the same answer, if a type is stepped over behind the
    parenthesis wherever there is one. -/
theorem isCast_eq (h : Foretold ks ls)
    (hover : isCast ks = true → ∃ js r, ls = .parenOpen :: js ∧ Over false js r) :
    isCast ls = isCast ks := by
  by_cases hparen : ks.head? = some .parenOpen
  · rcases List.head?_eq_some_iff.mp hparen with ⟨ks, rfl⟩
    rcases h.cons_of with ⟨ls, rfl⟩
    have hbehind := (h.tail rfl).2
    cases hend : Grammar.typeEnd? ls with
    | some r' =>
        rcases hbehind.typeEnd? hend with ⟨r, hr, hforetold⟩
        rw [isCast, isCast, hend, hr, hbehind.head]
        by_cases hclose : r.head? = some .parenClose
        · rcases List.head?_eq_some_iff.mp hclose with ⟨js, rfl⟩
          rcases hforetold.cons_of with ⟨js', rfl⟩
          have hrest := (hforetold.tail rfl).2
          cases hrest <;> rfl
        · split
          · next heq =>
              cases heq
              exact absurd hforetold.head.symm hclose
          · split
            · next heq =>
                cases heq
                exact absurd rfl hclose
            · rfl
    | none =>
        have hfalse : isCast (.parenOpen :: ls) = false := by rw [isCast, hend]
        rw [hfalse]
        cases hks : isCast (.parenOpen :: ks) with
        | false => rfl
        | true =>
            rcases hover hks with ⟨js, r, hjs, hr⟩
            cases hjs
            rw [typeEnd?_iff.mpr hr] at hend
            cases hend
  · have hfalse : ∀ {is : List Kind}, is.head? ≠ some .parenOpen → isCast is = false := by
      intro is his
      rw [isCast]
      rintro js rfl
      exact his rfl
    rw [hfalse hparen, hfalse (h.head ▸ hparen)]

/-- A comma stays a comma. Behind it the lists go on, or a member has got its name. -/
theorem comma (h : Foretold ks ls) (hcomma : ls.head? = some .comma) :
    ∃ is js, ks = .comma :: is ∧ ls = .comma :: js ∧
      (Foretold is js ∨ ∃ js', js = .id :: .equals :: js') := by
  cases h with
  | nil => cases hcomma
  | cons k h =>
      cases hcomma
      exact ⟨_, _, rfl, rfl, .inl h⟩
  | splice more _ hne _ =>
      cases hcomma
      exact absurd rfl hne
  | assign _ => exact ⟨_, _, rfl, rfl, .inr ⟨_, rfl⟩⟩

end Foretold

/-- The kinds of names in parentheses, from behind the opening one on, as they are read. -/
inductive Names : List Kind → Prop where
  | close (ks : List Kind) : Names (.parenClose :: ks)
  | last (ks : List Kind) : Names (.id :: .parenClose :: ks)
  | more {ks : List Kind} : Names ks → Names (.id :: .comma :: ks)

namespace Foretold

open Grammar

variable {ks ls : List Kind}

theorem namesEnd_other (h : ∀ js, ks ≠ .comma :: .id :: js) : namesEnd ks = ks := by
  rw [namesEnd]
  exact fun js hjs => h js hjs

/-- Names that are stepped over behind the extraction are stepped over before it. -/
theorem namesEnd_before {js : List Kind} (h : Foretold ks ls)
    (hend : namesEnd ls = .parenClose :: .fatArrow :: js) :
    ∃ is, namesEnd ks = .parenClose :: .fatArrow :: is := by
  fun_induction namesEnd ls generalizing ks with
  | case1 ls ih =>
      rcases h.comma rfl with ⟨is, is', rfl, hls, hrest | ⟨js', rfl⟩⟩
      · cases hls
        rcases hrest.of_cons with ⟨is, rfl⟩
        rw [namesEnd]
        exact ih (hrest.tail rfl).2 hend
      · cases hls
        have hequals : namesEnd (.equals :: js') = .equals :: js' := namesEnd_other nofun
        rw [hequals] at hend
        cases hend
  | case2 ls _ =>
      subst hend
      rcases h.of_cons with ⟨is, rfl⟩
      rcases (h.tail rfl).2.of_cons with ⟨is', rfl⟩
      exact ⟨is', namesEnd_other nofun⟩

/-- Names that are stepped over before the extraction are stepped over behind it, if they
    are read as names. -/
theorem namesEnd_behind {js : List Kind} (h : Foretold ks ls) (hnames : Names (.id :: ls))
    (hend : namesEnd ks = .parenClose :: .fatArrow :: js) :
    ∃ is, namesEnd ls = .parenClose :: .fatArrow :: is := by
  fun_induction namesEnd ks generalizing ls with
  | case1 ks ih =>
      rcases h.comma h.head with ⟨is, is', hks, rfl, hrest | ⟨js', rfl⟩⟩
      · cases hks
        rcases hrest.cons_of with ⟨is, rfl⟩
        rw [namesEnd]
        cases hnames with
        | more hnames => exact ih (hrest.tail rfl).2 hnames hend
      · cases hnames with
        | more hnames => cases hnames
  | case2 ks _ =>
      subst hend
      rcases h.cons_of with ⟨is, rfl⟩
      rcases (h.tail rfl).2.cons_of with ⟨is', rfl⟩
      exact ⟨is', namesEnd_other nofun⟩

/-- What is behind names in parentheses. -/
def behindNames : List Kind → List Kind
  | .id :: ks => namesEnd ks
  | ks => ks

/-- Whether a parenthesis is closed and an arrow follows. -/
def closesParams : List Kind → Bool
  | .parenClose :: .fatArrow :: _ => true
  | _ => false

theorem isLambda_paren {ks : List Kind} :
    isLambda (.parenOpen :: ks) = true ↔
      ∃ js, behindNames ks = .parenClose :: .fatArrow :: js := by
  have hcloses : isLambda (.parenOpen :: ks) = closesParams (behindNames ks) := rfl
  rw [hcloses]
  constructor
  · intro h
    unfold closesParams at h
    split at h
    · next js hjs => exact ⟨js, hjs⟩
    · cases h
  · rintro ⟨js, hjs⟩
    rw [hjs]
    rfl

theorem behindNames_before {js : List Kind} (h : Foretold ks ls)
    (hend : behindNames ls = .parenClose :: .fatArrow :: js) :
    ∃ is, behindNames ks = .parenClose :: .fatArrow :: is := by
  by_cases hid : ls.head? = some .id
  · rcases List.head?_eq_some_iff.mp hid with ⟨ls, rfl⟩
    rcases h.of_cons with ⟨ks, rfl⟩
    exact (h.tail rfl).2.namesEnd_before hend
  · rw [behindNames] at hend
    · subst hend
      rcases h.of_cons with ⟨is, rfl⟩
      rcases (h.tail rfl).2.of_cons with ⟨is', rfl⟩
      exact ⟨is', rfl⟩
    · rintro js rfl
      exact hid rfl

theorem behindNames_behind {js : List Kind} (h : Foretold ks ls) (hnames : Names ls)
    (hend : behindNames ks = .parenClose :: .fatArrow :: js) :
    ∃ is, behindNames ls = .parenClose :: .fatArrow :: is := by
  by_cases hid : ks.head? = some .id
  · rcases List.head?_eq_some_iff.mp hid with ⟨ks, rfl⟩
    rcases h.cons_of with ⟨ls, rfl⟩
    exact (h.tail rfl).2.namesEnd_behind hnames hend
  · rw [behindNames] at hend
    · subst hend
      rcases h.cons_of with ⟨is, rfl⟩
      rcases (h.tail rfl).2.cons_of with ⟨is', rfl⟩
      exact ⟨is', rfl⟩
    · rintro js rfl
      exact hid rfl

/-- Whether there is a lambda has the same answer, if names are read behind the parenthesis
    wherever there is one. -/
theorem isLambda_eq (h : Foretold ks ls)
    (hnames : isLambda ks = true → ∀ js, ls = .parenOpen :: js → Names js) :
    isLambda ls = isLambda ks := by
  by_cases hparen : ks.head? = some .parenOpen
  · rcases List.head?_eq_some_iff.mp hparen with ⟨ks, rfl⟩
    rcases h.cons_of with ⟨ls, rfl⟩
    have hbehind := (h.tail rfl).2
    rw [Bool.eq_iff_iff]
    constructor
    · intro hls
      rcases isLambda_paren.mp hls with ⟨js, hjs⟩
      exact isLambda_paren.mpr (hbehind.behindNames_before hjs)
    · intro hks
      rcases isLambda_paren.mp hks with ⟨js, hjs⟩
      exact isLambda_paren.mpr (hbehind.behindNames_behind (hnames hks _ rfl) hjs)
  · by_cases hid : ks.head? = some .id
    · rcases List.head?_eq_some_iff.mp hid with ⟨ks, rfl⟩
      rcases h.cons_of with ⟨ls, rfl⟩
      have hbehind := (h.tail rfl).2
      cases hbehind <;> rfl
    · have hfalse : ∀ {is : List Kind}, is.head? ≠ some .parenOpen → is.head? ≠ some .id →
          isLambda is = false := by
        intro is hparen hid
        rw [isLambda]
        · rintro k js rfl
          exact hid rfl
        · rintro js rfl
          exact hparen rfl
      rw [hfalse hparen hid, hfalse (h.head ▸ hparen) (h.head ▸ hid)]

end Foretold

namespace Grammar

open Script

/-! ### What is read and what is stepped over -/

theorem upcoming_skip (p : Place) : p.skip.upcoming = p.upcoming := by
  have htrivia : ∀ l ∈ p.rest.takeWhile Lexeme.isTrivia, l.isTrivia = true :=
    List.all_eq_true.mp List.all_takeWhile
  have hsplit : kindsOf p.rest = kindsOf p.skip.rest := by
    rw [← show p.rest.takeWhile Lexeme.isTrivia ++ p.skip.rest = p.rest from
      List.takeWhile_append_dropWhile, kindsOf_append, kindsOf_trivia htrivia, List.nil_append]
  exact hsplit.symm

/-- No trivia stands before the next token. -/
def Place.IsSettled (p : Place) : Prop := ∀ l, p.rest.head? = some l → l.isTrivia = false

theorem isSettled_skip (p : Place) : p.skip.IsSettled := fun _ h => p.head_skip h

namespace Place.IsSettled

variable {p : Place} (h : p.IsSettled)

include h

theorem skip_eq : p.skip = p := by
  have hnone : ∀ l ∈ ([] : List Lexeme), l.isTrivia = true := nofun
  have hskip := skip_trivia hnone h
  rw [List.nil_append] at hskip
  rw [Place.skip, hskip.1, hskip.2, List.append_nil]

theorem next?_eq : p.next? = p.upcoming.head? := by
  cases hrest : p.rest with
  | nil =>
      rw [next?, upcoming, hrest]
      rfl
  | cons l ls =>
      have hl := h l (by rw [hrest]; rfl)
      rw [next?, show p.upcoming = kindsOf p.rest from rfl, hrest, kindsOf_cons hl]
      rfl

end Place.IsSettled

theorem next?_skip (p : Place) : p.skip.next? = p.upcoming.head? := by
  rw [(isSettled_skip p).next?_eq, upcoming_skip]

section Kinds

variable {limit : Option Nat} {readers : Readers}

/-- Taking a token takes its kind. -/
theorem read_take {p q : Place} {u : Unit} (hp : p.IsSettled)
    (h : take.read limit readers p = some (u, q)) : ∃ k, p.upcoming = k :: q.upcoming := by
  rw [take, read_perform, Op.read] at h
  split at h
  · next l ls n hrest hfuel =>
      cases h
      refine ⟨l.kind, ?_⟩
      have hl := hp l (by rw [hrest]; rfl)
      rw [show p.upcoming = kindsOf p.rest from rfl, hrest, kindsOf_cons hl]
      rfl
  · cases h

theorem read_look {p q : Place} {k : Option Kind}
    (h : look.read limit readers p = some (k, q)) : k = p.upcoming.head? ∧ q = p.skip := by
  rw [look, read_perform] at h
  cases h
  exact ⟨next?_skip p, rfl⟩

theorem read_isAt {k : Kind} {p q : Place} {b : Bool}
    (h : (isAt k).read limit readers p = some (b, q)) :
    b = (p.upcoming.head? == some k) ∧ q = p.skip := by
  rcases read_bind_some h with ⟨j, r, hlook, hdone⟩
  rcases read_look hlook with ⟨rfl, rfl⟩
  cases hdone
  exact ⟨rfl, rfl⟩

/-- A token is eaten exactly if it comes next. -/
theorem read_eat {k : Kind} {p q : Place} {b : Bool}
    (h : (eat k).read limit readers p = some (b, q)) :
    (b = true ∧ p.upcoming = k :: q.upcoming) ∨
      (b = false ∧ p.upcoming.head? ≠ some k ∧ q = p.skip) := by
  rcases read_bind_some h with ⟨b', r, hisAt, hrest⟩
  rcases read_isAt hisAt with ⟨hb, rfl⟩
  cases b' with
  | true =>
      rcases read_bind_some hrest with ⟨u, t, htake, hdone⟩
      cases hdone
      rcases read_take (isSettled_skip p) htake with ⟨j, hj⟩
      rw [upcoming_skip] at hj
      have hhead := eq_of_beq hb.symm
      rw [hj] at hhead
      cases hhead
      exact .inl ⟨rfl, hj⟩
  | false =>
      cases hrest
      refine .inr ⟨rfl, fun hhead => ?_, rfl⟩
      rw [hhead, beq_self_eq_true] at hb
      cases hb

theorem read_expect {k : Kind} {what : String} {p q : Place} {u : Unit}
    (h : (expect k what).read limit readers p = some (u, q)) : p.upcoming = k :: q.upcoming := by
  rcases read_bind_some h with ⟨b, r, heat, hrest⟩
  rcases read_eat heat with ⟨rfl, hr⟩ | ⟨rfl, _, _⟩
  · cases hrest
    exact hr
  · cases hrest

theorem nth?_one (ls : List Lexeme) : State.nth? 1 ls = (kindsOf ls).tail.head? := by
  have hzero : ∀ ls : List Lexeme, State.nth? 0 ls = (kindsOf ls).head? := by
    intro ls
    induction ls with
    | nil => rfl
    | cons l ls ih =>
        rw [State.nth?]
        split
        · next hl => rw [kindsOf_cons_trivia hl, ih]
        · next hl => rw [kindsOf_cons (Bool.not_eq_true _ ▸ hl)]; rfl
  induction ls with
  | nil => rfl
  | cons l ls ih =>
      rw [State.nth?]
      split
      · next hl => rw [kindsOf_cons_trivia hl, ih]
      · next hl => rw [kindsOf_cons (Bool.not_eq_true _ ▸ hl)]; exact hzero ls

theorem read_nextIs {k : Kind} {p q : Place} {b : Bool}
    (h : (nextIs k).read limit readers p = some (b, q)) :
    b = (p.upcoming.tail.head? == some k) ∧ q = p.skip := by
  rcases read_bind_some h with ⟨j, r, hahead, hdone⟩
  rw [ahead, read_perform] at hahead
  cases hahead
  cases hdone
  refine ⟨?_, rfl⟩
  rw [nth?_one, ← upcoming_skip p]
  rfl

theorem skip_skip (p : Place) : p.skip.skip = p.skip := (isSettled_skip p).skip_eq

theorem read_isAtPair {j k : Kind} {p q : Place} {b : Bool}
    (h : (isAtPair j k).read limit readers p = some (b, q)) :
    q = p.skip ∧ (b = true ↔ ∃ ks, p.upcoming = j :: k :: ks) := by
  rcases read_bind_some h with ⟨b', r, hisAt, hrest⟩
  rcases read_isAt hisAt with ⟨hb, rfl⟩
  cases b' with
  | true =>
      rcases read_nextIs hrest with ⟨rfl, rfl⟩
      rcases List.head?_eq_some_iff.mp (eq_of_beq hb.symm) with ⟨ks, hks⟩
      rw [upcoming_skip, skip_skip, hks]
      refine ⟨rfl, ?_⟩
      rw [List.tail_cons, beq_iff_eq, List.head?_eq_some_iff]
      constructor
      · rintro ⟨is, rfl⟩
        exact ⟨is, rfl⟩
      · rintro ⟨is, his⟩
        cases his
        exact ⟨is, rfl⟩
  | false =>
      cases hrest
      refine ⟨rfl, nofun, ?_⟩
      rintro ⟨ks, hks⟩
      rw [hks, List.head?_cons, beq_self_eq_true] at hb
      cases hb

/-- A group reads what its body reads. -/
theorem read_group {α : Type} {g : Grouping} {body : Script α} {p q : Place} {a : α}
    (h : (Script.group g body .done).read limit readers p = some (a, q)) :
    ∃ p' q', body.read limit readers p' = some (a, q') ∧ p'.rest = p.rest ∧ q.rest = q'.rest := by
  rcases Option.bind_eq_some_iff.mp h with ⟨⟨b, r⟩, hbody, hdone⟩
  cases hdone
  refine ⟨g.enter p, r, hbody, ?_, ?_⟩
  · cases g <;> rfl
  · cases g <;> rfl

theorem upcoming_of_rest {p q : Place} (h : p.rest = q.rest) : p.upcoming = q.upcoming := by
  rw [Place.upcoming, h, Place.upcoming]

theorem Place.IsSettled.of_rest {p q : Place} (hq : q.IsSettled) (h : p.rest = q.rest) :
    p.IsSettled := by
  rw [IsSettled, h]
  exact hq

/-- The places that a loop leads to. -/
inductive Repeats (step : Reader Bool) : Place → Place → Prop where
  | stop {p q : Place} : step p = some (false, q) → Repeats step p q
  | again {p q r : Place} : step p = some (true, r) → Repeats step r q → Repeats step p q

theorem read_repeatWhile {body : Script Bool} {p q : Place} {u : Unit}
    (h : (repeatWhile body).read limit readers p = some (u, q)) :
    Repeats (body.read limit readers) p q := by
  have hrounds : ∀ (n : Nat) (p q : Place),
      rounds (fun (_ : Unit) p => (body.andThen fun again => .done (again, ())).read limit readers p)
        n () p = some ((), q) → Repeats (body.read limit readers) p q := by
    intro n
    induction n with
    | zero => exact fun _ _ h => nomatch h
    | succ n ih =>
        intro p q h
        rw [rounds] at h
        rcases Option.bind_eq_some_iff.mp h with ⟨⟨⟨again, _⟩, r⟩, hstep, hrest⟩
        rcases read_bind_some hstep with ⟨b, t, hbody, hdone⟩
        cases hdone
        cases again with
        | true => exact .again hbody (ih _ _ hrest)
        | false =>
            cases hrest
            exact .stop hbody
  rcases Option.bind_eq_some_iff.mp h with ⟨⟨_, r⟩, hloop, hdone⟩
  cases hdone
  exact hrounds _ _ _ hloop

/-- Where a type is read, looking ahead steps over it. -/
def StepsOverTypes (readers : Readers) : Prop :=
  ∀ (p q : Place) (a : Option Kind), readers .type p = some (a, q) →
    a.isSome ∧ Over false p.upcoming (marksEnd q.upcoming)

theorem marksEnd_cons {k : Kind} (hk : (k == .bracketOpen || k == .question) = false)
    (ks : List Kind) : marksEnd (k :: ks) = k :: ks := by
  refine marksEnd_other ?_ ?_
  · rintro js h
    cases h
    cases hk
  · rintro js h
    cases h
    cases hk

/-- The segments of a dotted name are stepped over. -/
theorem over_segments {p q : Place} {u : Unit}
    (h : (whileTrue isAtSegment segment).read limit readers p = some (u, q)) :
    q.upcoming = segmentsEnd p.upcoming ∧ q.IsSettled := by
  have hloop := read_repeatWhile h
  clear h
  induction hloop with
  | @stop p q hstep =>
      rcases read_bind_some hstep with ⟨b, r, hat, hrest⟩
      rcases read_isAtPair hat with ⟨rfl, hpair⟩
      cases b with
      | true =>
          rcases read_bind_some hrest with ⟨_, _, _, hdone⟩
          cases hdone
      | false =>
          cases hrest
          refine ⟨?_, isSettled_skip p⟩
          rw [upcoming_skip, segmentsEnd_other]
          exact fun js hjs => absurd (hpair.mpr ⟨js, hjs⟩) nofun
  | @again p q r hstep _ ih =>
      rcases read_bind_some hstep with ⟨b, t, hat, hrest⟩
      rcases read_isAtPair hat with ⟨rfl, hpair⟩
      cases b with
      | false => cases hrest
      | true =>
          rcases hpair.mp rfl with ⟨ks, hks⟩
          rcases read_bind_some hrest with ⟨_, v, hsegment, hdone⟩
          cases hdone
          rcases read_bind_some hsegment with ⟨_, w, htake, hexpect⟩
          rcases read_take (isSettled_skip p) htake with ⟨j, hj⟩
          have hid := read_expect hexpect
          rw [upcoming_skip, hks, List.cons.injEq] at hj
          rw [← hj.2, List.cons.injEq] at hid
          rw [hks, segmentsEnd, hid.2]
          exact ih

/-- One mark is read, or the loop stops where none can be. -/
theorem read_typeMark {kind next : Kind} {again : Bool} {p q : Place}
    (h : (typeMark kind).read limit readers p = some ((again, next), q)) :
    (again = true ∧ (next = .arrayType ∧ p.upcoming = .bracketOpen :: .bracketClose :: q.upcoming ∨
      next = .nullableType ∧ p.upcoming = .question :: q.upcoming)) ∨
    (again = false ∧ next = kind ∧ q.upcoming = p.upcoming ∧
      (∀ js, p.upcoming ≠ .bracketOpen :: .bracketClose :: js) ∧
      (∀ js, p.upcoming = .question :: js → kind = .nullableType)) := by
  rcases read_bind_some h with ⟨ahead, t, hlook, hrest⟩
  rcases read_look hlook with ⟨rfl, rfl⟩
  split at hrest
  · next hhead =>
      rcases List.head?_eq_some_iff.mp hhead with ⟨ks, hks⟩
      rcases read_bind_some hrest with ⟨b, t, hnext, hrest⟩
      rcases read_nextIs hnext with ⟨hb, rfl⟩
      rw [upcoming_skip, hks, List.tail_cons] at hb
      cases b with
      | false =>
          cases hrest
          refine .inr ⟨rfl, rfl, by rw [skip_skip, upcoming_skip], fun js hjs => ?_, fun js hjs => ?_⟩
          · rw [hks, List.cons.injEq] at hjs
            rw [hjs.2, List.head?_cons, beq_self_eq_true] at hb
            cases hb
          · rw [hks] at hjs
            cases hjs
      | true =>
          rcases read_bind_some hrest with ⟨_, v, henclose, hdone⟩
          cases hdone
          rcases read_group henclose with ⟨p', q', hbody, hp, hq⟩
          rcases read_bind_some hbody with ⟨_, x, htake, hexpect⟩
          rcases read_take ((isSettled_skip _).of_rest hp) htake with ⟨j, hj⟩
          rw [upcoming_of_rest hp, upcoming_skip, upcoming_skip, hks, List.cons.injEq] at hj
          refine .inl ⟨rfl, .inl ⟨rfl, ?_⟩⟩
          rw [hks, hj.2, read_expect hexpect, upcoming_of_rest hq]
  · next hhead =>
      rcases List.head?_eq_some_iff.mp hhead with ⟨ks, hks⟩
      split at hrest
      · next hkind =>
          cases hrest
          refine .inr ⟨rfl, rfl, upcoming_skip p, fun js hjs => ?_, fun _ _ => hkind⟩
          rw [hks] at hjs
          cases hjs
      · rcases read_bind_some hrest with ⟨_, v, henclose, hdone⟩
        cases hdone
        rcases read_group henclose with ⟨p', q', htake, hp, hq⟩
        rcases read_take ((isSettled_skip _).of_rest hp) htake with ⟨j, hj⟩
        rw [upcoming_of_rest hp, upcoming_skip, hks, List.cons.injEq] at hj
        refine .inl ⟨rfl, .inr ⟨rfl, ?_⟩⟩
        rw [hks, hj.2, upcoming_of_rest hq]
  · next hbracket hquestion =>
      cases hrest
      refine .inr ⟨rfl, rfl, upcoming_skip p, fun js hjs => ?_, fun js hjs => ?_⟩
      · exact absurd (congrArg List.head? hjs) hbracket
      · exact absurd (congrArg List.head? hjs) hquestion

/-- From the kinds `ks` behind a type of the kind `kind`, marks are read up to the kinds `r`. All
    of them are stepped over, and then a mark can only come next that a nullable type does not
    take. -/
structure ReadsMarks (kind outermost : Kind) (ks r : List Kind) : Prop where
  ends : marksEnd r = marksEnd ks
  suffix : r <:+ ks
  brackets : ∀ js, r ≠ .bracketOpen :: .bracketClose :: js
  question : ∀ js, r = .question :: js → outermost = .nullableType
  nullable : outermost = .nullableType → kind = .nullableType ∧ r = ks ∨ .question :: r <:+ ks

/-- The marks behind a type are read one after the other. -/
theorem read_typeMarks {kind : Kind} {p q : Place} {a : Option Kind}
    (h : (typeMarks kind).read limit readers p = some (a, q)) :
    ∃ outermost, a = some outermost ∧ ReadsMarks kind outermost p.upcoming q.upcoming := by
  have hrounds : ∀ (n : Nat) (kind last : Kind) (p q : Place),
      rounds (fun kind p => (typeMark kind).read limit readers p) n kind p = some (last, q) →
      ReadsMarks kind last p.upcoming q.upcoming := by
    intro n
    induction n with
    | zero => exact fun _ _ _ _ h => nomatch h
    | succ n ih =>
        intro kind last p q h
        rw [rounds] at h
        rcases Option.bind_eq_some_iff.mp h with ⟨⟨⟨again, next⟩, r⟩, hstep, hrest⟩
        rcases read_typeMark hstep with ⟨rfl, hmark⟩ | ⟨rfl, rfl, hr, hbrackets, hquestion⟩
        · have hreads := ih _ _ _ _ hrest
          rcases hmark with ⟨rfl, hp⟩ | ⟨rfl, hp⟩
          · have hsuffix : r.upcoming <:+ p.upcoming :=
              hp ▸ (List.suffix_cons _ _).trans (List.suffix_cons _ _)
            refine ⟨by rw [hp, marksEnd, hreads.ends], hreads.suffix.trans hsuffix, hreads.brackets,
              hreads.question, fun hlast => .inr ?_⟩
            rcases hreads.nullable hlast with ⟨hnext, _⟩ | hmore
            · cases hnext
            · exact hmore.trans hsuffix
          · have hsuffix : r.upcoming <:+ p.upcoming := hp ▸ List.suffix_cons _ _
            refine ⟨by rw [hp, marksEnd, hreads.ends], hreads.suffix.trans hsuffix, hreads.brackets,
              hreads.question, fun hlast => .inr ?_⟩
            rcases hreads.nullable hlast with ⟨_, hq⟩ | hmore
            · have hwhole : p.upcoming = .question :: q.upcoming := by rw [hq, hp]
              exact hwhole ▸ List.suffix_refl _
            · exact hmore.trans hsuffix
        · cases hrest
          rw [hr]
          exact ⟨rfl, List.suffix_refl _, hbrackets, hquestion, fun hlast => .inl ⟨hlast, rfl⟩⟩
  rcases Option.bind_eq_some_iff.mp h with ⟨⟨last, r⟩, hloop, hdone⟩
  cases hdone
  exact ⟨last, rfl, hrounds _ _ _ _ _ hloop⟩

variable (hsteps : StepsOverTypes readers)

include hsteps

/-- Type arguments are stepped over. -/
theorem over_arguments {p q : Place} {u : Unit} (hp : p.IsSettled)
    (h : typeArguments.read limit readers p = some (u, q)) :
    ∃ ks, p.upcoming.tail = ks ∧ Over true ks q.upcoming := by
  rcases read_group h with ⟨p', q', hbody, hp', hq⟩
  rcases read_bind_some hbody with ⟨_, r, htake, hrest⟩
  rcases read_take (hp.of_rest hp') htake with ⟨j, hj⟩
  rcases read_bind_some hrest with ⟨_, t, hloop, hexpect⟩
  have hgt := read_expect hexpect
  rw [upcoming_of_rest hp'] at hj
  refine ⟨_, rfl, ?_⟩
  rw [hj, List.tail_cons, upcoming_of_rest hq]
  clear hj htake hbody hp hp' hexpect hrest
  have hrepeats := read_repeatWhile hloop
  clear hloop
  induction hrepeats with
  | @stop r t hstep =>
      rcases read_bind_some hstep with ⟨a, v, htype, hrest⟩
      rw [readType, read_call] at htype
      rcases hsteps _ _ _ htype with ⟨ha, hover⟩
      rcases Option.isSome_iff_exists.mp ha with ⟨k, rfl⟩
      rcases read_eat hrest with ⟨hb, _⟩ | ⟨_, _, rfl⟩
      · cases hb
      · rw [upcoming_skip] at hgt
        rw [hgt, marksEnd_cons rfl] at hover
        exact .last hover
  | @again r t w hstep _ ih =>
      rcases read_bind_some hstep with ⟨a, v, htype, hrest⟩
      rw [readType, read_call] at htype
      rcases hsteps _ _ _ htype with ⟨ha, hover⟩
      rcases Option.isSome_iff_exists.mp ha with ⟨k, rfl⟩
      rcases read_eat hrest with ⟨_, hcomma⟩ | ⟨hb, _, _⟩
      · rw [hcomma, marksEnd_cons rfl] at hover
        exact .more hover (ih hgt)
      · cases hb

/-- A type is read from its first part, which is stepped over, and its marks. -/
theorem read_typeScript {p q : Place} {a : Option Kind}
    (h : typeScript.read limit readers p = some (a, q)) :
    ∃ kind outermost ks, a = some outermost ∧ kind ≠ .nullableType ∧ ks <:+ p.upcoming ∧
      Over false p.upcoming (marksEnd ks) ∧ ReadsMarks kind outermost ks q.upcoming := by
  rcases read_bind_some h with ⟨_, r, hskip, hframe⟩
  rw [read_perform] at hskip
  cases hskip
  rcases read_group hframe with ⟨p', q', hbody, hp, hq⟩
  have hsettled : p'.IsSettled := (isSettled_skip p).of_rest hp
  have hupcoming : p'.upcoming = p.upcoming := (upcoming_of_rest hp).trans (upcoming_skip p)
  rcases read_bind_some hbody with ⟨next, r, hlook, hrest⟩
  rcases read_look hlook with ⟨rfl, rfl⟩
  rw [hsettled.skip_eq] at hrest
  split at hrest
  · next hhead =>
      rcases List.head?_eq_some_iff.mp hhead with ⟨ks, hks⟩
      rcases read_bind_some hrest with ⟨_, r, hnode, hmarks⟩
      rcases read_group hnode with ⟨s, t, htake, hs, ht⟩
      rcases read_take (hsettled.of_rest hs) htake with ⟨j, hj⟩
      rcases read_typeMarks hmarks with ⟨outermost, ha, hreads⟩
      rw [upcoming_of_rest hs, hks, List.cons.injEq] at hj
      rw [← hupcoming, hks, upcoming_of_rest hq]
      rw [upcoming_of_rest ht, ← hj.2] at hreads
      exact ⟨.predefType, outermost, ks, ha, nofun, List.suffix_cons _ _, .predefined ks, hreads⟩
  · next hhead =>
      rcases List.head?_eq_some_iff.mp hhead with ⟨ks, hks⟩
      rcases read_bind_some hrest with ⟨_, r, hnode, hmarks⟩
      rcases read_group hnode with ⟨s, t, hnamed, hs, ht⟩
      rcases read_typeMarks hmarks with ⟨outermost, ha, hreads⟩
      rcases read_bind_some hnamed with ⟨_, v, htake, hnamed⟩
      rcases read_take (hsettled.of_rest hs) htake with ⟨j, hj⟩
      rw [upcoming_of_rest hs, hks, List.cons.injEq] at hj
      rcases read_bind_some hnamed with ⟨_, w, hsegments, hargs⟩
      rcases over_segments hsegments with ⟨hw, hwsettled⟩
      rw [← hj.2] at hw
      have hsuffix : w.upcoming <:+ ks := hw ▸ segmentsEnd_suffix ks
      rcases read_bind_some hargs with ⟨b, x, hisAt, hargs⟩
      rcases read_isAt hisAt with ⟨hb, rfl⟩
      rw [hwsettled.skip_eq] at hargs
      rw [← hupcoming, hks, upcoming_of_rest hq]
      rw [upcoming_of_rest ht] at hreads
      cases b with
      | true =>
          rcases List.head?_eq_some_iff.mp (eq_of_beq hb.symm) with ⟨js, hjs⟩
          rcases over_arguments hsteps hwsettled hargs with ⟨_, rfl, hover⟩
          rw [hjs, List.tail_cons] at hover
          rw [hjs] at hsuffix
          refine ⟨.namedType, outermost, _, ha, nofun, ?_, .generic (hw.symm.trans hjs) hover, hreads⟩
          exact (hover.suffix.trans ((List.suffix_cons _ _).trans hsuffix)).trans (List.suffix_cons _ _)
      | false =>
          cases hargs
          refine ⟨.namedType, outermost, _, ha, nofun, hsuffix.trans (List.suffix_cons _ _), ?_, hreads⟩
          rw [hw]
          refine .name fun js hjs => ?_
          rw [hw, hjs, List.head?_cons, beq_self_eq_true] at hb
          cases hb
  · rcases read_bind_some hrest with ⟨_, _, hreport, _⟩
    cases hreport

/-- The production of types steps over what it reads. -/
theorem over_typeScript {p q : Place} {a : Option Kind}
    (h : typeScript.read limit readers p = some (a, q)) :
    a.isSome ∧ Over false p.upcoming (marksEnd q.upcoming) := by
  rcases read_typeScript hsteps h with ⟨_, _, _, rfl, _, _, hover, hreads⟩
  exact ⟨rfl, hreads.ends ▸ hover⟩

end Kinds

/-- Where a type is read, looking ahead steps over it. -/
theorem stepsOverTypes_readProduction (limit : Option Nat) (n : Nat) :
    StepsOverTypes (readProduction limit n) := by
  induction n with
  | zero => exact fun _ _ _ h => nomatch h
  | succ n ih => exact fun p q a h => over_typeScript ih h

end Grammar

end Nominal
