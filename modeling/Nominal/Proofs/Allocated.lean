import Mathlib.Data.Finset.Card
import Nominal.Proofs.Reparsed.Planned

/-!
# Free Names

A new type gets the name that it should have where that is free, and else the name with the
smallest number that makes it free. Numbers are tried one by one, and there are more of them
than names in use: different numbers make different names, so that some number leads to a
name that is not in use. Trying one more number than there are names in use is enough, then,
and going on would change nothing.

## Main definitions

* `isFree`: Whether a number makes a name free.

## Theorems

* `Syntax.IsName.isTokenOf`: A word that is not reserved is read as one identifier.
* `isTypeName_iff`: What is read as one identifier can be the name of a type.
* `exists_find?_isFree`: Among more numbers than there are names in use one is free.
* `numbered?_eq_find?`: The numbers that are not tried would change nothing.
* `allocate_smallest`: A new type gets the first free name, and there always is one.
-/

namespace Nominal

open Syntax (IsName IsTokenOf lex)
open Text (isAlphabetic isNumeric isIdentifier)

/-! ### Names of types -/

/-- A word that is not reserved is read as one identifier. -/
theorem Syntax.IsName.isTokenOf {text : String} (h : IsName text) : IsTokenOf .id text := by
  have hinset : Syntax.AreInset [⟨.id, text⟩] [].head? := ⟨Syntax.isInset_name h nofun, trivial⟩
  have hlex : Syntax.lexemes (text.toList ++ [] ++ []) = [⟨.id, text⟩] :=
    Syntax.lexemes_append hinset
  rw [List.append_nil, List.append_nil] at hlex
  exact congrArg (List.map Syntax.Lexeme.kind) hlex

/-- What is read as one identifier can be the name of a type. -/
theorem isTypeName_iff {text : String} : isTypeName text = true ↔ IsTokenOf .id text := by
  rw [isTypeName, Bool.and_eq_true, beq_iff_eq]
  refine ⟨And.right, fun h => ⟨?_, h⟩⟩
  rcases h.isName with ⟨c, cs, htext, hc, hcs, _⟩
  have hstarts : (isAlphabetic c || c == '_') = true := by
    rcases Bool.or_eq_true_iff.mp hc with hc | hc
    · rw [isAlphabetic, hc]
      rfl
    · rw [hc, Bool.or_true]
  have hcontinues : ∀ d ∈ cs, (isAlphabetic d || isNumeric d || d == '_') = true := by
    intro d hd
    rcases Bool.or_eq_true_iff.mp (hcs d hd) with hd | hd
    · rcases Bool.or_eq_true_iff.mp hd with hd | hd
      · rw [isAlphabetic, hd]
        rfl
      · rw [isNumeric, hd, Bool.true_or, Bool.or_true]
        rfl
    · rw [hd, Bool.or_true]
  rw [isIdentifier, htext]
  exact Bool.and_eq_true_iff.mpr ⟨hstarts, List.all_eq_true.mpr hcontinues⟩

/-! ### Numbers of names -/

/-- Whether the name with a number behind it is free. The numbers begin with one. -/
def isFree (base : String) (taken : List String) (k : Nat) : Bool :=
  !taken.contains (base ++ toString (k + 1))

variable {base : String} {taken : List String} {n : Nat}

theorem isFree_iff {k : Nat} : isFree base taken k = true ↔ base ++ toString (k + 1) ∉ taken := by
  rw [isFree, Bool.not_eq_true', ← Bool.not_eq_true, List.contains_iff_mem]

/-- Different numbers make different names. -/
theorem number_injective (base : String) :
    Function.Injective fun k : Nat => base ++ toString (k + 1) := by
  intro i j h
  have hdigits : Nat.toDigits 10 (i + 1) = Nat.toDigits 10 (j + 1) := by
    rw [← Nat.toList_repr, ← Nat.toList_repr, ← Nat.toString_eq_repr, ← Nat.toString_eq_repr,
      (String.append_right_inj base).mp h]
  have hnumbers : i + 1 = j + 1 := by
    rw [← Nat.ofDigitChars_ten_toDigits (n := i + 1), hdigits, Nat.ofDigitChars_ten_toDigits]
  exact Nat.succ.inj hnumbers

/-- Among more numbers than there are names in use one is free. -/
theorem exists_find?_isFree (h : taken.toFinset.card < n) :
    ∃ k, (List.range n).find? (isFree base taken) = some k := by
  have hcard : taken.toFinset.card <
      ((Finset.range n).image fun k => base ++ toString (k + 1)).card := by
    rw [Finset.card_image_of_injective _ (number_injective base), Finset.card_range]
    exact h
  rcases Finset.exists_mem_notMem_of_card_lt_card hcard with ⟨name, hname, hfree⟩
  rcases Finset.mem_image.mp hname with ⟨k, hk, rfl⟩
  rw [← Option.isSome_iff_exists, List.find?_isSome]
  exact ⟨k, List.mem_range.mpr (Finset.mem_range.mp hk),
    isFree_iff.mpr fun hmem => hfree (List.mem_toFinset.mpr hmem)⟩

/-- The numbers that are not tried would change nothing. -/
theorem numbered?_eq_find? (base : String) (taken : List String) :
    numbered? base taken = ((List.range maxSuffix).find? (isFree base taken)).map
      fun k => base ++ toString (k + 1) := by
  rw [numbered?]
  refine congrArg _ ?_
  by_cases hle : taken.length + 1 ≤ maxSuffix
  · rw [Nat.min_eq_left hle]
    have hcard : taken.toFinset.card < taken.length + 1 :=
      Nat.lt_succ_of_le (List.toFinset_card_le taken)
    rcases exists_find?_isFree hcard with ⟨k, hk⟩
    rcases List.find?_range_eq_some.mp hk with ⟨hfree, hlt, hbefore⟩
    exact hk.trans (List.find?_range_eq_some.mpr
      ⟨hfree, List.range_subset.mpr hle hlt, hbefore⟩).symm
  · rw [Nat.min_eq_right (Nat.le_of_not_le hle)]
    rfl

/-- A text that is not read as one identifier is refused as a name. Otherwise there always is
    a name, which is not in use and is read as one identifier, too: the name that is asked for
    if it is free, and else that name with the smallest number that makes it free. -/
theorem allocate_smallest (base : String) (taken : List String)
    (h : taken.toFinset.card < maxSuffix) :
    (allocate base taken = .error (.invalidName base) ↔ ¬ IsTokenOf .id base) ∧
    (IsTokenOf .id base → ∃ name, allocate base taken = .ok name ∧ name ∉ taken ∧
      IsTokenOf .id name ∧
      (base ∉ taken ∧ name = base ∨ base ∈ taken ∧ ∃ k, 1 ≤ k ∧ name = base ++ toString k ∧
        ∀ j, 1 ≤ j → j < k → base ++ toString j ∈ taken)) ∧
    ∀ name, allocate base taken ≠ .error (.noFreeName name) := by
  by_cases hbase : IsTokenOf .id base
  · have hok : ∃ name, allocate base taken = .ok name ∧ name ∉ taken ∧ IsTokenOf .id name ∧
        (base ∉ taken ∧ name = base ∨ base ∈ taken ∧ ∃ k, 1 ≤ k ∧ name = base ++ toString k ∧
          ∀ j, 1 ≤ j → j < k → base ++ toString j ∈ taken) := by
      have hname : isTypeName base = true := isTypeName_iff.mpr hbase
      by_cases hmem : base ∈ taken
      · rcases exists_find?_isFree h with ⟨k, hk⟩
        rcases List.find?_range_eq_some.mp hk with ⟨hfree, _, hbefore⟩
        refine ⟨base ++ toString (k + 1), ?_, isFree_iff.mp hfree,
          (hbase.isName.number (k + 1)).isTokenOf, .inr ⟨hmem, k + 1, Nat.succ_pos k, rfl, ?_⟩⟩
        · rw [allocate, hname, List.contains_iff_mem.mpr hmem, numbered?_eq_find?, hk]
          rfl
        · intro j hj hlt
          cases j with
          | zero => cases hj
          | succ j =>
              by_contra hfree'
              have htaken := hbefore j (Nat.lt_of_succ_lt_succ hlt)
              rw [isFree_iff.mpr hfree'] at htaken
              cases htaken
      · refine ⟨base, ?_, hmem, hbase, .inl ⟨hmem, rfl⟩⟩
        rw [allocate, hname, Bool.eq_false_iff.mpr (mt List.contains_iff_mem.mp hmem)]
        rfl
    rcases hok with ⟨name, hok, hrest⟩
    refine ⟨?_, fun _ => ⟨name, hok, hrest⟩, fun name' => ?_⟩
    · rw [hok]
      exact iff_of_false (fun h => by cases h) (not_not.mpr hbase)
    · rw [hok]
      exact fun h => by cases h
  · have hname : isTypeName base = false := Bool.eq_false_iff.mpr (mt isTypeName_iff.mp hbase)
    have herror : allocate base taken = .error (.invalidName base) := by
      rw [allocate, hname]
      rfl
    refine ⟨iff_of_true herror hbase, fun h => absurd h hbase, fun name => ?_⟩
    rw [herror]
    exact fun h => by cases h

/-- A name that is in use gets a number, and a reserved word is no name. -/
theorem allocate_smallest_order :
    ["Order", "Order1"].toFinset.card < maxSuffix ∧ IsTokenOf .id "Order" ∧
      (∃ name, allocate "Order" ["Order", "Order1"] = .ok name ∧ name ∉ ["Order", "Order1"] ∧
        IsTokenOf .id name) ∧
      allocate "class" ["Order", "Order1"] = .error (.invalidName "class") := by
  have hcard : ["Order", "Order1"].toFinset.card < maxSuffix := by decide
  have hbase : IsTokenOf .id "Order" := by decide
  rcases (allocate_smallest "Order" _ hcard).2.1 hbase with ⟨name, hname, hfree, htoken, _⟩
  exact ⟨hcard, hbase, ⟨name, hname, hfree, htoken⟩,
    (allocate_smallest "class" _ hcard).1.mpr (by decide)⟩

end Nominal
