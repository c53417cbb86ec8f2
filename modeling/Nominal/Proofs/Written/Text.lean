import Nominal.Proofs.Written.Classes
import Nominal.Proofs.Relexed

/-!
# The Text of a Written Class

The lexemes of a class that is put together can be put into a text: each of them is read whole
before the next one, and none ends a comment or a string that would reach so far.

## Main definitions

* `Layout.IsBlank`: A layout of lines that start with blanks and end in a line feed.

## Theorems

* `areInset_type`: The lexemes of a written type.
* `areInset_class`: The lexemes of a written class.
-/

namespace Nominal

open Syntax
open Program (TypeRef)
open Grammar (argumentTrees leaves_generic memberEnd leaves_member accessorLexemes memberTrees
  leavesOf_memberTrees_cons classTrees classStart classEnd leavesOf_classTrees)

/-- The characters that may stand right behind a written type. -/
def endsType (c : Char) : Bool := [' ', ',', '>', '[', '?'].contains c

theorem endsType_cases {c : Char} (h : endsType c = true) :
    continuesWord c = false ∧ c ≠ '=' := by
  have hmem : c ∈ [' ', ',', '>', '[', '?'] := List.contains_iff_mem.mp h
  simp only [List.mem_cons, List.not_mem_nil, or_false] at hmem
  rcases hmem with rfl | rfl | rfl | rfl | rfl <;> decide

theorem isInset_mark {k : Kind} {text : String} (next : Option Char)
    (hrun : Pattern.run .start text.toList = some (.operator k))
    (hplain : (text.toList.all isPlain) = true) (hnext : ∀ d, Pattern.extend k d = none) :
    Lexeme.IsInset ⟨k, text⟩ next :=
  isInset_operator hrun (List.all_eq_true.mp hplain) fun d _ => hnext d

/-- A type ends in an angle bracket where no equals sign follows. -/
theorem isInset_gt {next : Option Char} (hnext : next ≠ some '=') : Lexeme.IsInset ⟨.gt, ">"⟩ next := by
  refine isInset_operator rfl (List.forall_mem_singleton.mpr rfl) fun d hd => ?_
  unfold Pattern.extend
  split
  all_goals first | rfl | exact absurd hd hnext | contradiction

theorem isInset_lt {next : Option Char} (hnext : next ≠ some '=') : Lexeme.IsInset ⟨.lt, "<"⟩ next := by
  refine isInset_operator rfl (List.forall_mem_singleton.mpr rfl) fun d hd => ?_
  unfold Pattern.extend
  split
  all_goals first | rfl | exact absurd hd hnext | contradiction

theorem isInset_question {next : Option Char} (hnext : next ≠ some '?') :
    Lexeme.IsInset ⟨.question, "?"⟩ next := by
  refine isInset_operator rfl (List.forall_mem_singleton.mpr rfl) fun d hd => ?_
  unfold Pattern.extend
  split
  all_goals first | rfl | exact absurd hd hnext | contradiction

theorem areInset_segments {segments : List String} (h : ∀ s ∈ segments, IsName s) {next : Option Char}
    (hnext : ∀ d, next = some d → continuesWord d = false) :
    AreInset (TypeRef.segmentLexemes segments) next := by
  induction segments with
  | nil => trivial
  | cons s ss ih =>
      rw [List.forall_mem_cons] at h
      refine ⟨isInset_mark _ rfl rfl fun _ => rfl, isInset_name h.1 fun d hd => ?_, ih h.2⟩
      cases ss with
      | nil => exact hnext d hd
      | cons t ts =>
          cases hd
          rfl

theorem areInset_dotted {segments : List String} (h : ∀ s ∈ segments, IsName s) {next : Option Char}
    (hnext : ∀ d, next = some d → continuesWord d = false) :
    AreInset (Tree.leavesOf (TypeRef.dotted segments)) next := by
  cases segments with
  | nil => trivial
  | cons s ss =>
      rw [TypeRef.leavesOf_dotted_cons]
      rw [List.forall_mem_cons] at h
      refine ⟨isInset_name h.1 fun d hd => ?_, areInset_segments h.2 hnext⟩
      cases ss with
      | nil => exact hnext d hd
      | cons t ts =>
          cases hd
          rfl

theorem head_name {name : String} (h : IsName name) (ls : List Lexeme) :
    ∃ c, (charsOf (⟨.id, name⟩ :: ls)).head? = some c ∧ startsWord c = true := by
  rcases h with ⟨c, cs, htext, hc, _⟩
  exact ⟨c, by rw [charsOf_cons, htext]; rfl, hc⟩

/-- A written type starts with a letter. -/
theorem head_charsOf_type {t : TypeRef} (ht : t.IsWritable) :
    ∃ c, (charsOf t.tree.leaves).head? = some c ∧ startsWord c = true := by
  have hmore : ∀ {ls ms : List Lexeme} {c : Char}, (charsOf ls).head? = some c →
      (charsOf (ls ++ ms)).head? = some c := fun h => by
    rw [charsOf_append, List.head?_append, h, Option.some_or]
  match t with
  | .missing => exact absurd ht id
  | .predefined keyword =>
      rcases ht with ⟨word, rfl, hword⟩
      rcases chars_predefined hword with ⟨c, cs, htext, hc, _⟩
      refine ⟨c, ?_, hc⟩
      rw [show (TypeRef.predefined (some word)).tree.leaves = [⟨.predefinedType, word⟩] from rfl,
        charsOf_cons, htext]
      rfl
  | .named segments none =>
      rcases List.exists_cons_of_ne_nil ht.1 with ⟨s, ss, rfl⟩
      rw [TypeRef.tree, Tree.leaves, TypeRef.leavesOf_dotted_cons]
      exact head_name (ht.2 s List.mem_cons_self) _
  | .named segments (some args) =>
      rcases List.exists_cons_of_ne_nil ht.1.1 with ⟨s, ss, rfl⟩
      rw [leaves_generic, TypeRef.leavesOf_dotted_cons, List.cons_append]
      exact head_name (ht.1.2 s List.mem_cons_self) _
  | .array element =>
      rcases head_charsOf_type (t := element) ht with ⟨c, hhead, hc⟩
      exact ⟨c, hmore hhead, hc⟩
  | .nullable inner =>
      rcases head_charsOf_type (t := inner) ht.1 with ⟨c, hhead, hc⟩
      exact ⟨c, hmore hhead, hc⟩

/-- Behind a blank or a bracket a type can be told. -/
theorem before_type {t : TypeRef} (ht : t.IsWritable) (ls : List Lexeme) (next : Option Char) :
    ∀ d, (charsOf (t.tree.leaves ++ ls)).head?.or next = some d → isBlank d = false ∧ d ≠ '=' := by
  intro d hd
  rcases head_charsOf_type ht with ⟨c, hhead, hc⟩
  rw [charsOf_append, List.head?_append, hhead, Option.some_or, Option.some_or] at hd
  cases hd
  refine ⟨blank_of_starts hc, ?_⟩
  rintro rfl
  cases hc

/-- Type arguments start with a type. -/
theorem leavesOf_arguments (t : TypeRef) (args : List TypeRef) :
    ∃ ls, Tree.leavesOf (argumentTrees (t :: args)) = t.tree.leaves ++ ls := by
  cases args with
  | nil => exact ⟨[], rfl⟩
  | cons u us => exact ⟨_, rfl⟩

mutual

/-- The lexemes of a written type can be put into a text. -/
theorem areInset_type : ∀ (t : TypeRef) (_ : t.IsWritable) (c : Char), endsType c = true →
    (t.tree.kind = .nullableType → c ≠ '?') → AreInset t.tree.leaves (some c)
  | .missing, ht, _, _, _ => absurd ht id
  | .predefined keyword, ht, c, hc, _ => by
      rcases ht with ⟨word, rfl, hword⟩
      refine ⟨isInset_predefined hword fun d hd => ?_, trivial⟩
      cases hd
      exact (endsType_cases hc).1
  | .named segments none, ht, c, hc, _ => by
      refine areInset_dotted ht.2 fun d hd => ?_
      cases hd
      exact (endsType_cases hc).1
  | .named segments (some args), ht, c, hc, _ => by
      rw [leaves_generic]
      refine areInset_append (areInset_dotted ht.1.2 fun d hd => ?_) ⟨?_, ?_⟩
      · cases hd
        rfl
      · rcases List.exists_cons_of_ne_nil ht.2.1 with ⟨t, ts, rfl⟩
        rcases leavesOf_arguments t ts with ⟨ls, hls⟩
        refine isInset_lt fun hnext => ?_
        rw [hls, List.append_assoc] at hnext
        exact (before_type ht.2.2.1 _ _ _ hnext).2 rfl
      · refine areInset_append (areInset_arguments args ht.2.2) ⟨isInset_gt ?_, trivial⟩
        intro h
        cases h
        exact (endsType_cases hc).2 rfl
  | .array element, ht, c, _, _ => by
      have hleaves : (TypeRef.array element).tree.leaves
          = element.tree.leaves ++ [⟨.bracketOpen, "["⟩, ⟨.bracketClose, "]"⟩] := by
        rw [TypeRef.tree, Tree.leaves, Tree.leavesOf]
        rfl
      rw [hleaves]
      exact areInset_append (areInset_type element ht '[' rfl fun _ => nofun)
        ⟨isInset_mark _ rfl rfl fun _ => rfl, isInset_mark _ rfl rfl fun _ => rfl, trivial⟩
  | .nullable inner, ht, c, _, hmark => by
      have hleaves : (TypeRef.nullable inner).tree.leaves
          = inner.tree.leaves ++ [⟨.question, "?"⟩] := by
        rw [TypeRef.tree, Tree.leaves, Tree.leavesOf]
        rfl
      rw [hleaves]
      refine areInset_append (areInset_type inner ht.1 '?' rfl fun hinner => absurd hinner ht.2)
        ⟨isInset_question fun hnext => ?_, trivial⟩
      cases hnext
      exact hmark rfl rfl

theorem areInset_arguments : ∀ (args : List TypeRef), TypeRef.AreWritable args →
    AreInset (Tree.leavesOf (argumentTrees args)) (some '>')
  | [], _ => trivial
  | [t], h => by
      rw [show argumentTrees [t] = [t.tree] from rfl, Tree.leavesOf, Tree.leavesOf, List.append_nil]
      exact areInset_type t h.1 '>' rfl fun _ => nofun
  | t :: u :: us, h => by
      rw [show argumentTrees (t :: u :: us)
        = t.tree :: leaf .comma "," :: space :: argumentTrees (u :: us) from rfl, Tree.leavesOf]
      refine areInset_append (areInset_type t h.1 ',' rfl fun _ => nofun) ⟨isInset_mark _ rfl rfl fun _ => rfl, ?_, ?_⟩
      · rcases leavesOf_arguments u us with ⟨ls, hls⟩
        refine isInset_space fun d hd => ?_
        rw [hls] at hd
        exact (before_type h.2.1 _ _ d hd).1
      · exact areInset_arguments (u :: us) h.2

end

/-! ### Members -/

/-- A keyword of the class, or the name of an accessor. -/
theorem isInset_keyword {k : Kind} {text : String} {next : Option Char}
    (htext : (text.toList.head?.any startsWord && text.toList.tail.all continuesWord) = true)
    (hk : (Kind.reserved? text).getD .id = k)
    (hnext : ∀ d, next = some d → continuesWord d = false) : Lexeme.IsInset ⟨k, text⟩ next := by
  rcases Bool.and_eq_true_iff.mp htext with ⟨hstart, htail⟩
  cases hchars : text.toList with
  | nil =>
      rw [hchars] at hstart
      cases hstart
  | cons c cs =>
      rw [hchars] at hstart htail
      exact isInset_word hchars hstart (List.all_eq_true.mp htail) hk hnext

theorem areInset_accessors (next : Option Char) : AreInset accessorLexemes next := by
  refine ⟨isInset_mark _ rfl rfl fun _ => rfl, isInset_space ?_, isInset_keyword rfl rfl ?_, isInset_mark _ rfl rfl fun _ => rfl, isInset_space ?_,
    isInset_keyword rfl rfl ?_, isInset_mark _ rfl rfl fun _ => rfl, isInset_space ?_, isInset_mark _ rfl rfl fun _ => rfl, trivial⟩
  all_goals
    rintro d ⟨⟩
    rfl

theorem areInset_memberEnd (style : MemberStyle) {name : String} (hname : IsName name)
    (next : Option Char) : AreInset (memberEnd style name) next := by
  have hspace : ∀ ls, ∀ d, (charsOf (⟨.id, name⟩ :: ls)).head?.or next = some d →
      isBlank d = false := by
    intro ls d hd
    rcases head_name hname ls with ⟨c, hhead, hc⟩
    rw [hhead] at hd
    cases hd
    exact blank_of_starts hc
  cases style with
  | property =>
      refine ⟨isInset_space (hspace _), isInset_name hname ?_, isInset_space ?_,
        areInset_accessors next⟩
      all_goals
        rintro d ⟨⟩
        rfl
  | field =>
      refine ⟨isInset_space (hspace _), isInset_name hname ?_, isInset_mark _ rfl rfl fun _ => rfl, trivial⟩
      rintro d ⟨⟩
      rfl

/-- The lexemes of a member can be put into a text. -/
theorem areInset_member (style : MemberStyle) {m : MemberForm} (hname : IsName m.name)
    (htype : m.type.IsWritable) (next : Option Char) : AreInset (m.tree style).leaves next := by
  have hend : (charsOf (memberEnd style m.name)).head? = some ' ' := by
    cases style with
    | property => rfl
    | field => rfl
  have hbehind : AreInset (m.type.tree.leaves ++ memberEnd style m.name) next := by
    refine areInset_append ?_ (areInset_memberEnd style hname next)
    rw [hend]
    exact areInset_type m.type htype ' ' rfl fun _ => nofun
  rw [leaves_member]
  refine ⟨isInset_keyword rfl rfl ?_, isInset_space fun d hd => ?_, hbehind⟩
  · rintro d ⟨⟩
    rfl
  · exact (before_type htype _ _ d hd).1

/-! ### Classes -/

/-- Lines start with blanks and end in a line feed, perhaps with a carriage return before it. -/
structure Layout.IsBlank (layout : Layout) : Prop where
  lineBreak : layout.lineBreak = "\n" ∨ layout.lineBreak = "\r\n"
  baseIndent : ∀ c ∈ layout.baseIndent.toList, isBlank c = true

section Class

variable {layout : Layout} (hlayout : layout.IsBlank)

include hlayout

theorem isInset_newline (next : Option Char) : Lexeme.IsInset ⟨.newline, layout.lineBreak⟩ next := by
  rcases hlayout.lineBreak with hbreak | hbreak
  · rw [hbreak]
    exact ⟨.lineEnd, rfl, rfl, fun _ _ => rfl, List.all_eq_true.mp rfl⟩
  · rw [hbreak]
    exact ⟨.lineEnd, rfl, rfl, fun _ _ => rfl, List.all_eq_true.mp rfl⟩

omit hlayout in
theorem areInset_blanks {indent : String} (hindent : ∀ c ∈ indent.toList, isBlank c = true)
    {next : Option Char} (hnext : ∀ d, next = some d → isBlank d = false) :
    AreInset (if indent.isEmpty then [] else [⟨.whitespace, indent⟩]) next := by
  split
  · trivial
  · next hsome =>
      refine ⟨isInset_blank (fun h => hsome ?_) hindent hnext, trivial⟩
      rw [h]
      rfl

theorem areInset_line {indent : String} (hindent : ∀ c ∈ indent.toList, isBlank c = true)
    {next : Option Char} (hnext : ∀ d, next = some d → isBlank d = false) :
    AreInset (ClassForm.lineLexemes layout indent) next :=
  ⟨isInset_newline hlayout _, areInset_blanks hindent hnext⟩

theorem areInset_members (style : MemberStyle) {indent : String}
    (hindent : ∀ c ∈ indent.toList, isBlank c = true) {ms : List MemberForm}
    (hms : ∀ m ∈ ms, IsName m.name ∧ m.type.IsWritable) (next : Option Char) :
    AreInset (Tree.leavesOf (memberTrees style (ClassForm.lineLexemes layout indent) ms)) next := by
  induction ms with
  | nil => trivial
  | cons m ms ih =>
      rw [List.forall_mem_cons] at hms
      rw [leavesOf_memberTrees_cons]
      refine areInset_append (areInset_line hlayout hindent fun d hd => ?_)
        (areInset_append (areInset_member style hms.1.1 hms.1.2 _) (ih hms.2))
      rw [leaves_member] at hd
      cases hd
      rfl

/-- The lexemes of a written class can be put into a text. -/
theorem areInset_class {form : ClassForm} (hform : form.IsWritable)
    (hindent : ∀ c ∈ form.indent.toList, isBlank c = true) (next : Option Char) :
    AreInset (form.tree layout).leaves next := by
  have hdeeper : ∀ c ∈ (layout.baseIndent ++ form.indent).toList, isBlank c = true := by
    intro c hc
    rw [String.toList_append, List.mem_append] at hc
    rcases hc with hc | hc
    · exact hlayout.baseIndent c hc
    · exact hindent c hc
  have hbreak : ∀ ls, ∀ d, (charsOf (ClassForm.lineLexemes layout layout.baseIndent ++ ls)).head?.or
      next = some d → continuesWord d = false := by
    intro ls d hd
    rw [ClassForm.lineLexemes, List.cons_append, charsOf_cons] at hd
    rcases hlayout.lineBreak with hbreak | hbreak
    · rw [hbreak] at hd
      cases hd
      rfl
    · rw [hbreak] at hd
      cases hd
      rfl
  have hend : AreInset (classEnd (ClassForm.lineLexemes layout layout.baseIndent)) next := by
    refine areInset_append (areInset_line hlayout hlayout.baseIndent ?_) ⟨isInset_mark _ rfl rfl fun _ => rfl, trivial⟩
    rintro d ⟨⟩
    rfl
  have hmembers := areInset_append
    (areInset_members hlayout form.style hdeeper hform.members _) hend
  rw [form.tree_eq layout, Tree.leaves, leavesOf_classTrees, classStart, List.append_assoc,
    List.append_assoc]
  refine areInset_append ⟨isInset_keyword rfl rfl ?_, isInset_space fun d hd => ?_,
    isInset_name hform.name fun d hd => ?_, trivial⟩
    (areInset_append (areInset_line hlayout hlayout.baseIndent ?_) ⟨isInset_mark _ rfl rfl fun _ => rfl, hmembers⟩)
  · rintro d ⟨⟩
    rfl
  · rcases head_name hform.name [] with ⟨c, hhead, hc⟩
    rw [hhead] at hd
    cases hd
    exact blank_of_starts hc
  · exact hbreak _ d hd
  · rintro d ⟨⟩
    rfl

/-- The edit that puts a class behind a type, an empty line apart. -/
def ClassForm.edit (form : ClassForm) (layout : Layout) : Edit where
  name := form.name
  separator := ⟨.newline, layout.lineBreak⟩ :: ClassForm.lineLexemes layout layout.baseIndent
  declaration := form.tree layout

/-- What an extraction adds can be put into a text. -/
theorem isInset_edit {form : ClassForm} (hform : form.IsWritable)
    (hindent : ∀ c ∈ form.indent.toList, isBlank c = true) : (form.edit layout).IsInset := by
  refine ⟨hform.name, fun next => ?_⟩
  refine ⟨isInset_newline hlayout _, areInset_append (areInset_line hlayout hlayout.baseIndent ?_)
    (areInset_class hlayout hform hindent next)⟩
  rw [show (form.edit layout).declaration = form.tree layout from rfl, form.tree_eq layout,
    Tree.leaves, leavesOf_classTrees, classStart]
  rintro d ⟨⟩
  rfl

end Class

/-- The layout around an offset is one of blank lines. -/
theorem isBlank_layoutAt (text : String) (offset : Nat) :
    ((Layout.at? text offset).getD Layout.plain).IsBlank := by
  have hindent : ∀ before : List Char, ∀ c ∈ Layout.indentAfter before, isBlank c = true := by
    intro before c hc
    rw [Layout.indentAfter] at hc
    split at hc
    · next hall => exact List.all_eq_true.mp hall c hc
    · cases hc
  rw [Layout.at?]
  split
  · refine ⟨?_, fun c hc => ?_⟩
    · rw [Option.getD_some]
      split
      · exact .inr rfl
      · exact .inl rfl
    · rw [Option.getD_some, String.toList_ofList] at hc
      exact hindent _ c hc
  · exact ⟨.inl rfl, nofun⟩

end Nominal
