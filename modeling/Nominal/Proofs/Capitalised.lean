import Nominal.Proofs.Allocated
import Nominal.Proofs.Layout.Sites

/-!
# Names Made of Variables

A type that nobody names is called like the variable that holds its first object, in Pascal
case. A variable is a word of the Latin alphabet, so its case is changed character by character
and nothing but underscores is lost. With a capital in front the name is no reserved word, for
these consist of small letters.

A digit has no capital, however. Where the first character of a variable that is no underscore
is a digit, this digit comes to stand in front, and a name like that cannot be the name of a
type. The name to fall back on is not looked at then: it is meant for variables that consist of
underscores. This is the only way in which an extraction may be refused for a name that nobody
asked for.

## Main definitions

* `firstChar?`: The first character of a name that parts no words.
* `NameSource.IsMisled`: A type is to be named after a variable that has a digit in front.

## Theorems

* `Text.head?_flatMap_words`: A name in Pascal case starts with the capital of its first character.
* `isName_pascalCase`: A variable with a letter in front is a word in Pascal case.
* `isName_of_variableName?`: The variable of a site is a word.
* `base_refused_iff`: A name that nobody asked for is refused exactly if it is made of a variable
  that has a digit in front.
-/

namespace Nominal

open Syntax (IsName IsTokenOf Tree startsWord continuesWord)
open Text (pascalCase pascalWord words isSeparator)

/-! ### Pascal case -/

namespace Text

variable {c : Char} {cs : List Char}

/-- A property of the first 128 characters, checked for each of them. -/
theorem forall_ascii {P : Char → Prop} (h : ∀ n < 0x80, P (Char.ofNat n)) (hc : c.toNat < 0x80) :
    P c := by
  have hn := h c.toNat hc
  rwa [Char.ofNat_toNat] at hn

/-- Letters of the Latin alphabet, digits and underscores are among the first 128 characters. -/
theorem toNat_lt_of_continuesWord (h : continuesWord c = true) : c.toNat < 0x80 := by
  have hbound : ∀ high : UInt32, c.val ≤ high → high.toNat < 0x80 → c.toNat < 0x80 :=
    fun high hle hhigh => Nat.lt_of_le_of_lt (UInt32.le_iff_toNat_le.mp hle) hhigh
  rcases Bool.or_eq_true_iff.mp h with h | h
  · rcases Bool.or_eq_true_iff.mp h with h | hdigit
    · rcases Bool.or_eq_true_iff.mp h with hupper | hlower
      · exact hbound 'Z'.val (of_decide_eq_true hupper).2 (by decide)
      · exact hbound 'z'.val (of_decide_eq_true (Bool.and_eq_true_iff.mp hlower).2) (by decide)
    · exact hbound '9'.val (of_decide_eq_true (Bool.and_eq_true_iff.mp hdigit).2) (by decide)
  · rw [eq_of_beq h]
    decide

/-- Changing the case of a character of a word leads to such a character again. -/
theorem continuesWord_case (h : continuesWord c = true) :
    continuesWord c.toUpper = true ∧ continuesWord c.toLower = true :=
  forall_ascii (P := fun c => continuesWord c = true →
    continuesWord c.toUpper = true ∧ continuesWord c.toLower = true) (by decide +kernel)
    (toNat_lt_of_continuesWord h) h

theorem toUppercase_of_continuesWord (h : continuesWord c = true) : toUppercase c = [c.toUpper] :=
  if_pos (toNat_lt_of_continuesWord h)

theorem toLowercase_of_continuesWord (h : continuesWord c = true) : toLowercase c = [c.toLower] :=
  if_pos (toNat_lt_of_continuesWord h)

/-- A character that parts no words continues the first word of those behind it. -/
theorem words_cons (hc : isSeparator c = false) (cs : List Char) :
    ∃ w ws, words cs = w :: ws ∧ words (c :: cs) = (c :: w) :: ws := by
  have hsome : words cs ≠ [] := by
    cases cs with
    | nil => exact List.cons_ne_nil _ _
    | cons d ds =>
        rw [words]
        split
        · exact List.cons_ne_nil _ _
        · split <;> exact List.cons_ne_nil _ _
  rcases List.exists_cons_of_ne_nil hsome with ⟨w, ws, hws⟩
  refine ⟨w, ws, hws, ?_⟩
  rw [words, hc, if_neg Bool.false_ne_true, hws]

/-- A name in Pascal case starts with the capital of its first character. -/
theorem head?_flatMap_words (hcs : ∀ c ∈ cs, continuesWord c = true) :
    ((words cs).flatMap pascalWord).head? =
      (cs.find? fun c => !isSeparator c).map Char.toUpper := by
  induction cs with
  | nil => rfl
  | cons c cs ih =>
      -- Only the first character of the first word matters, and separators make empty words.
      rw [List.forall_mem_cons] at hcs
      by_cases hc : isSeparator c
      · rw [words, if_pos hc, List.flatMap_cons, pascalWord, List.nil_append, ih hcs.2,
          List.find?_cons_of_neg (by rw [hc]; exact Bool.false_ne_true)]
      · rw [Bool.not_eq_true] at hc
        rcases words_cons hc cs with ⟨w, ws, _, hwords⟩
        rw [hwords, List.flatMap_cons, pascalWord, toUppercase_of_continuesWord hcs.1,
          List.find?_cons_of_pos (by rw [hc]; rfl)]
        rfl

/-- The words of a name have its characters. -/
theorem mem_of_mem_words : ∀ w ∈ words cs, ∀ c ∈ w, c ∈ cs := by
  induction cs with
  | nil =>
      intro w hw
      rw [words, List.mem_singleton] at hw
      rw [hw]
      exact nofun
  | cons d cs ih =>
      by_cases hd : isSeparator d
      · rw [words, if_pos hd, List.forall_mem_cons]
        exact ⟨nofun, fun w hw c hc => List.mem_cons_of_mem d (ih w hw c hc)⟩
      · rcases words_cons (Bool.eq_false_iff.mpr hd) cs with ⟨w, ws, hws, hwords⟩
        rw [hws, List.forall_mem_cons] at ih
        rw [hwords, List.forall_mem_cons, List.forall_mem_cons]
        exact ⟨⟨List.mem_cons_self, fun c hc => List.mem_cons_of_mem d (ih.1 c hc)⟩,
          fun v hv c hc => List.mem_cons_of_mem d (ih.2 v hv c hc)⟩

theorem continuesWord_pascalWord {w : List Char} (hw : ∀ c ∈ w, continuesWord c = true) :
    ∀ d ∈ pascalWord w, continuesWord d = true := by
  cases w with
  | nil => exact nofun
  | cons c w =>
      rw [List.forall_mem_cons] at hw
      rw [pascalWord, toUppercase_of_continuesWord hw.1, List.singleton_append,
        List.forall_mem_cons]
      refine ⟨(continuesWord_case hw.1).1, ?_⟩
      split
      · exact hw.2
      · -- A word without small letters loses its other capitals.
        intro d hd
        rcases List.mem_flatMap.mp hd with ⟨e, he, hd⟩
        rw [toLowercase_of_continuesWord (hw.2 e he), List.mem_singleton] at hd
        rw [hd]
        exact (continuesWord_case (hw.2 e he)).2

/-- A name in Pascal case has characters of words only. -/
theorem continuesWord_flatMap_words (hcs : ∀ c ∈ cs, continuesWord c = true) :
    ∀ d ∈ (words cs).flatMap pascalWord, continuesWord d = true := by
  intro d hd
  rcases List.mem_flatMap.mp hd with ⟨w, hw, hd⟩
  exact continuesWord_pascalWord (fun c hc => hcs c (mem_of_mem_words w hw c hc)) d hd

end Text

/-! ### Variables as names -/

/-- The first character of a name that parts no words. -/
def firstChar? (name : String) : Option Char := name.toList.find? fun c => !isSeparator c

section Variables

variable {name : String} {c : Char}

theorem continuesWord_of_isName (h : IsName name) : ∀ c ∈ name.toList, continuesWord c = true := by
  rcases h with ⟨c, cs, hname, hc, hcs, _⟩
  rw [hname, List.forall_mem_cons]
  exact ⟨Syntax.continuesWord_of_starts hc, hcs⟩

/-- A variable in Pascal case starts with the capital of its first character. -/
theorem head?_pascalCase (h : IsName name) :
    (pascalCase name).toList.head? = (firstChar? name).map Char.toUpper := by
  rw [pascalCase, String.toList_ofList]
  exact Text.head?_flatMap_words (continuesWord_of_isName h)

/-- A variable with a letter in front is a word in Pascal case. -/
theorem isName_pascalCase (h : IsName name) (hfirst : firstChar? name = some c)
    (hc : c.isDigit = false) : IsName (pascalCase name) := by
  have hword := continuesWord_of_isName h c (List.mem_of_find?_eq_some hfirst)
  have hparts : isSeparator c = false := by
    have hnot := List.find?_some hfirst
    rwa [Bool.not_eq_true'] at hnot
  have hcapital : startsWord c.toUpper = true ∧ c.toUpper.isLower = false :=
    Text.forall_ascii (P := fun c => continuesWord c = true → isSeparator c = false →
      c.isDigit = false → startsWord c.toUpper = true ∧ c.toUpper.isLower = false)
      (by decide +kernel) (Text.toNat_lt_of_continuesWord hword) hword hparts hc
  have hhead := head?_pascalCase h
  rw [hfirst, Option.map_some] at hhead
  rcases List.head?_eq_some_iff.mp hhead with ⟨cs, hcs⟩
  refine ⟨c.toUpper, cs, hcs, hcapital.1, fun d hd => ?_, ?_⟩
  · refine Text.continuesWord_flatMap_words (continuesWord_of_isName h) d ?_
    rw [← String.toList_ofList (l := (words name.toList).flatMap pascalWord)]
    exact hcs ▸ List.mem_cons_of_mem _ hd
  · cases hreserved : Syntax.Kind.reserved? (pascalCase name) with
    | none => rfl
    | some k =>
        -- A reserved word would have a small letter in front.
        have hlower := isLower_of_reserved? hreserved c.toUpper (hcs ▸ List.mem_cons_self)
        rw [hcapital.2] at hlower
        cases hlower

/-- A variable with a digit in front is no word in Pascal case. -/
theorem not_isName_pascalCase (h : IsName name) (hfirst : firstChar? name = some c)
    (hc : c.isDigit = true) : ¬ IsName (pascalCase name) := by
  have hword := continuesWord_of_isName h c (List.mem_of_find?_eq_some hfirst)
  have hdigit : startsWord c.toUpper = false :=
    Text.forall_ascii (P := fun c => c.isDigit = true → startsWord c.toUpper = false)
      (by decide +kernel) (Text.toNat_lt_of_continuesWord hword) hc
  -- A word starts with a letter or an underscore, but this name with the digit.
  rintro ⟨d, ds, hname, hd, _⟩
  have hhead := head?_pascalCase h
  rw [hname, hfirst, Option.map_some, List.head?_cons] at hhead
  cases hhead
  rw [hdigit] at hd
  cases hd

theorem isTypeName_iff_isName : isTypeName name = true ↔ IsName name :=
  isTypeName_iff.trans ⟨IsTokenOf.isName, Syntax.IsName.isTokenOf⟩

end Variables

/-! ### Variables of sites -/

/-- The tokens of a node are leaves of it. -/
theorem Syntax.Tree.mem_leavesOf_of_mem_tokensAt {ts : List Tree} {start : Nat}
    {t : Syntax.Lexeme × Text.Span} (h : t ∈ tokensAt start ts) : t.1 ∈ leavesOf ts := by
  induction ts generalizing start with
  | nil => cases h
  | cons u ts ih =>
      rw [leavesOf, List.mem_append]
      cases u with
      | token l =>
          rcases List.mem_cons.mp h with rfl | h
          · exact .inl List.mem_cons_self
          · exact .inr (ih h)
      | node kind children => exact .inr (ih h)

/-- The variable that a creation makes known is declared around it. -/
theorem Model.mem_locations_of_declarator {m : Model} {t : Tree} {s : Site} (h : s ∈ m.sites t)
    {declarator : Syntax.Location} (hs : s.declarator = some declarator) :
    declarator ∈ t.locations := by
  rcases List.mem_filterMap.mp h with ⟨l, hl, hsite⟩
  rw [Model.siteOf?] at hsite
  split at hsite
  · split at hsite
    · split at hsite
      · cases hsite
        -- The declarator is the node right above the creation.
        rcases l with ⟨node, above⟩
        simp only [Model.declaratorOf?] at hs
        split at hs
        · next parent statement above =>
            split at hs
            · cases hs
              exact Syntax.mem_locations_of_suffix hl (List.suffix_cons node _)
            · cases hs
        · cases hs
      · cases hsite
    · cases hsite
  · cases hsite

/-- The variable of a site is a word. -/
theorem isName_of_variableName? {source : String} {d : Document}
    (hd : Document.parse source = .ok d) {s : Site} (hs : s ∈ d.sites) {name : String}
    (hname : s.variableName? = some name) : IsName name := by
  rcases Option.bind_eq_some_iff.mp hname with ⟨declarator, hdeclarator, htoken⟩
  rcases Option.map_eq_some_iff.mp htoken with ⟨t, ht, rfl⟩
  rw [Syntax.Node.token?] at ht
  have hkind := List.find?_some ht
  have hleaf := Syntax.Tree.mem_leavesOf_of_mem_tokensAt (List.mem_of_find?_eq_some ht)
  have hlocation := Model.mem_locations_of_declarator hs hdeclarator
  exact Syntax.isName_of_mem (mem_lex_of_mem_locations hd hlocation t.1 hleaf) (eq_of_beq hkind)

/-! ### Refused names -/

/-- A type is to be named after a variable that has a digit in front. -/
def NameSource.IsMisled (n : NameSource) (sites : List Site) : Prop :=
  n.fromVariable = true ∧ ∃ name c, sites.findSome? Site.variableName? = some name ∧
    firstChar? name = some c ∧ c.isDigit = true

theorem allocate_refused_iff {base name : String} {taken : List String} :
    allocate base taken = .error (.invalidName name) ↔ isTypeName base = false ∧ name = base := by
  rw [allocate]
  by_cases hbase : isTypeName base
  · rw [hbase, if_neg (by decide)]
    refine iff_of_false (fun h => ?_) fun h => Bool.false_ne_true h.1.symm
    split at h
    · cases h
    · split at h <;> cases h
  · rw [Bool.eq_false_iff.mpr hbase, if_pos (by decide), Except.error.injEq,
      Refusal.invalidName.injEq]
    exact ⟨fun h => ⟨rfl, h.symm⟩, fun h => h.2.symm⟩

/-- A variable makes a name if it has a character that parts no words. -/
theorem isEmpty_pascalCase (h : IsName name) :
    (pascalCase name).isEmpty = (firstChar? name).isNone := by
  have hhead := head?_pascalCase h
  rw [Bool.eq_iff_iff, String.isEmpty_iff, Option.isNone_iff_eq_none, ← String.toList_eq_nil_iff,
    ← List.head?_eq_none_iff, hhead, Option.map_eq_none_iff]

/-- A name that nobody asked for can be the name of a type, unless it is made of a variable that
    has a digit in front. -/
theorem isTypeName_base_iff {n : NameSource} {sites : List Site} (hnone : n.requested = none)
    (hfallback : isTypeName n.fallback = true)
    (hsites : ∀ name, sites.findSome? Site.variableName? = some name → IsName name) :
    isTypeName (n.base sites) = false ↔ n.IsMisled sites := by
  have hback : ∀ base, base = n.fallback → ¬ n.IsMisled sites →
      (isTypeName base = false ↔ n.IsMisled sites) := by
    rintro base rfl hnot
    refine iff_of_false (fun h => ?_) hnot
    rw [hfallback] at h
    cases h
  simp only [NameSource.base, hnone]
  by_cases hvariable : n.fromVariable
  · rw [if_pos hvariable]
    cases hfound : sites.findSome? Site.variableName? with
    | none =>
        refine hback _ rfl ?_
        rintro ⟨_, name, c, hsome, _⟩
        cases hfound.symm.trans hsome
    | some name =>
        have hname := hsites name hfound
        simp only [Option.map_some, isEmpty_pascalCase hname]
        cases hfirst : firstChar? name with
        | none =>
            -- The variable consists of underscores.
            refine hback _ rfl ?_
            rintro ⟨_, name', c, hsome, hfirst', _⟩
            cases hfound.symm.trans hsome
            cases hfirst.symm.trans hfirst'
        | some c =>
            rw [Option.isNone_some, if_neg Bool.false_ne_true, ← Bool.not_eq_true,
              isTypeName_iff_isName]
            by_cases hc : c.isDigit
            · exact iff_of_true (not_isName_pascalCase hname hfirst hc)
                ⟨hvariable, name, c, hfound, hfirst, hc⟩
            · have hword := isName_pascalCase hname hfirst (Bool.eq_false_iff.mpr hc)
              refine iff_of_false (not_not.mpr hword) ?_
              rintro ⟨_, name', c', hsome, hfirst', hc'⟩
              cases hfound.symm.trans hsome
              cases hfirst.symm.trans hfirst'
              exact hc hc'
  · rw [if_neg hvariable]
    exact hback _ rfl fun h => hvariable h.1

section Refusals

variable {m : Model} {t : Tree} {request : Request} {name : String}

theorem eq_error_of_map {α β : Type} {f : α → β} {x : Except Refusal α} {refusal : Refusal}
    (h : x.map f = .error refusal) : x = .error refusal := by
  cases x with
  | ok a => cases h
  | error r =>
      cases h
      rfl

/-- Members are never refused for the name of the type. -/
theorem dataMembers_ne_invalidName (isStructural : Types.TypeId → Bool) (ms : List TypeMember) :
    dataMembers isStructural ms ≠ .error (.invalidName name) := by
  induction ms with
  | nil => exact nofun
  | cons member ms ih =>
      intro h
      rw [dataMembers] at h
      split at h
      · split at h
        · cases h
        · exact ih (eq_error_of_map h)
      · split at h
        · cases h
        · exact ih (eq_error_of_map h)
      · exact ih h
      · cases h
      · cases h

theorem Model.memberForms_ne_invalidName (scope : Scope) (newName : String)
    (fields : List Types.Field) :
    m.memberForms scope newName fields ≠ .error (.invalidName name) := by
  induction fields with
  | nil => exact nofun
  | cons f fields ih =>
      intro h
      rw [memberForms] at h
      split at h
      · cases h
      · exact ih (eq_error_of_map h)

theorem Model.scopeOf_ne_invalidName (l : Syntax.Location) :
    m.scopeOf l ≠ .error (.invalidName name) := by
  intro h
  rw [scopeOf] at h
  split at h
  · cases h
  · split at h
    · cases h
    · simp only at h
      split at h <;> cases h

/-- A plan that is refused for a name is refused where the name is looked for. -/
theorem Model.planAt_invalidName {anchor : Site}
    (h : m.planAt t anchor request = .error (.invalidName name)) :
    ∃ scope taken, m.scopeOf anchor.location = .ok scope ∧
      allocate (request.naming.base (m.sitesWithin t anchor.type scope.container)) taken =
        .error (.invalidName name) := by
  simp only [planAt, bind, Except.bind] at h
  split at h
  · next hcheck =>
      cases h
      rw [Request.check] at hcheck
      split at hcheck <;> cases hcheck
  · split at h
    · next hscope =>
        cases h
        exact absurd hscope (scopeOf_ne_invalidName _)
    · next scope hscope =>
        split at h
        · next hmembers =>
            cases h
            exact absurd hmembers (dataMembers_ne_invalidName _ _)
        · next members _ =>
            split at h
            · next hname =>
                cases h
                exact ⟨scope, _, hscope, hname⟩
            · split at h
              · next hforms =>
                  cases h
                  exact absurd hforms (memberForms_ne_invalidName _ _ _)
              · cases h

/-- Carrying out a plan is never refused for a name. -/
theorem Plan.apply_ne_invalidName (p : Plan) (isCancelled : Bool) :
    p.apply m isCancelled ≠ .error (.invalidName name) := by
  intro h
  simp only [apply, bind, Except.bind, Model.nameObjects_eq] at h
  by_cases hcancelled : isCancelled
  · rw [if_pos hcancelled] at h
    cases h
  · rw [if_neg hcancelled] at h
    simp only [pure, Except.pure] at h
    split at h
    · next refusal hobjects =>
        split at hobjects
        · cases hobjects
          cases h
        · cases hobjects
    · split at h <;> cases h

/-- An extraction that is refused for a name is refused when it is planned. -/
theorem refused_of_apply {x : Except Refusal Plan} {isCancelled : Bool}
    (h : (do (← x).apply m isCancelled) = .error (.invalidName name)) :
    x = .error (.invalidName name) := by
  cases x with
  | error refusal =>
      cases h
      rfl
  | ok p => exact absurd h (Plan.apply_ne_invalidName p isCancelled)

theorem Model.mem_of_innermost {ss : List Site} {s : Site} (h : innermost ss = some s) :
    s ∈ ss := by
  induction ss generalizing s with
  | nil => cases h
  | cons first ss ih =>
      rw [innermost] at h
      split at h
      · next inner hinner =>
          split at h
          · cases h
            exact List.mem_cons_of_mem first (ih hinner)
          · cases h
            exact List.mem_cons_self
      · cases h
        exact List.mem_cons_self

/-- An extraction that is refused for a name has been planned from some site. -/
theorem Document.exists_planAt_of_invalidName {d : Document}
    (h : d.extract request = .error (.invalidName name) ∨
      ∃ offset, d.extractAt offset request = .error (.invalidName name)) :
    ∃ anchor ∈ d.sites, d.model.planAt d.tree anchor request = .error (.invalidName name) := by
  rcases h with h | ⟨offset, h⟩
  · rw [extract] at h
    split at h
    · cases h
    · -- The type is that of the first site, and the plan starts from a site of this type.
      have hplan := refused_of_apply h
      simp only [Model.plan, bind, Except.bind] at hplan
      split at hplan
      · next hcheck =>
          cases hplan
          rw [Request.check] at hcheck
          split at hcheck <;> cases hcheck
      · split at hplan
        · cases hplan
        · next anchor hanchor => exact ⟨anchor, List.mem_of_find?_eq_some hanchor, hplan⟩
  · rw [extractAt, Model.extractAt] at h
    split at h
    · cases h
    · next anchor hanchor =>
        have hmem := Model.mem_of_innermost hanchor
        exact ⟨anchor, List.mem_of_mem_filter hmem, refused_of_apply h⟩

end Refusals

/-- The name of a type that nobody named is refused exactly if it is made of a variable that has a
    digit in front, whatever variables there are and whatever names are in use, as long as the
    name to fall back on is a name of a type. In no other way an extraction can be refused for
    such a name. -/
theorem base_refused_iff {source : String} {d : Document} (hd : Document.parse source = .ok d)
    {request : Request} (hnone : request.naming.requested = none)
    (hfallback : isTypeName request.naming.fallback = true) :
    (∀ sites, (∀ s ∈ sites, s ∈ d.sites) → ∀ taken,
      (allocate (request.naming.base sites) taken =
        .error (.invalidName (request.naming.base sites)) ↔ request.naming.IsMisled sites)) ∧
    ∀ name, (d.extract request = .error (.invalidName name) ∨
        ∃ offset, d.extractAt offset request = .error (.invalidName name)) →
      ∃ anchor ∈ d.sites, ∃ scope, d.model.scopeOf anchor.location = .ok scope ∧
        request.naming.IsMisled (d.model.sitesWithin d.tree anchor.type scope.container) := by
  have hbase : ∀ sites, (∀ s ∈ sites, s ∈ d.sites) →
      (isTypeName (request.naming.base sites) = false ↔ request.naming.IsMisled sites) := by
    intro sites hsites
    refine isTypeName_base_iff hnone hfallback fun name hname => ?_
    rcases List.exists_of_findSome?_eq_some hname with ⟨s, hs, hvariable⟩
    exact isName_of_variableName? hd (hsites s hs) hvariable
  constructor
  · intro sites hsites taken
    rw [allocate_refused_iff, hbase sites hsites]
    exact and_iff_left rfl
  · intro name h
    rcases Document.exists_planAt_of_invalidName h with ⟨anchor, hanchor, hplan⟩
    rcases Model.planAt_invalidName hplan with ⟨scope, taken, hscope, hrefused⟩
    refine ⟨anchor, hanchor, scope, hscope, (hbase _ fun s hs => ?_).mp
      (allocate_refused_iff.mp hrefused).1⟩
    exact List.mem_of_mem_filter hs

/-- A variable with a digit behind its underscore makes a name that is refused. -/
theorem base_refused_iff_underscore :
    ∃ d, Document.parse "class C { void M() { var _1 = new { X = 1 }; } }" = .ok d ∧
      Request.plain.naming.requested = none ∧ isTypeName Request.plain.naming.fallback = true ∧
      d.sites.findSome? Site.variableName? = some "_1" ∧
      allocate (Request.plain.naming.base d.sites) [] =
        .error (.invalidName (Request.plain.naming.base d.sites)) := by
  have hvariable : ((Document.parse "class C { void M() { var _1 = new { X = 1 }; } }").toOption.any
      fun d => d.sites.findSome? Site.variableName? == some "_1") = true := by decide +kernel
  have hfallback : isTypeName Request.plain.naming.fallback = true := by decide +kernel
  cases hd : Document.parse "class C { void M() { var _1 = new { X = 1 }; } }" with
  | error failure =>
      rw [hd] at hvariable
      cases hvariable
  | ok d =>
      rw [hd] at hvariable
      have hname : d.sites.findSome? Site.variableName? = some "_1" := eq_of_beq hvariable
      have hmisled : Request.plain.naming.IsMisled d.sites :=
        ⟨rfl, "_1", '1', hname, by decide, by decide⟩
      exact ⟨d, rfl, rfl, hfallback, hname,
        ((base_refused_iff hd rfl hfallback).1 d.sites (fun _ hs => hs) []).mpr hmisled⟩

end Nominal
