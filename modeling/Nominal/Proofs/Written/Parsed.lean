import Nominal.Proofs.Defined
import Nominal.Proofs.Written.Text
import Nominal.Types.Spelling

/-!
# Parsing a Written Class

The text of a class that is put together is parsed as the file that holds just this class. Its
lexemes are those that the text is cut into, the class is read as the only item of the file, and
what can be read is what a run without limits does, unless the run gets stuck.

## Main definitions

* `Syntax.IsTokenOf`: A text that is read as one token.
* `TypeRef.IsDisplay`: The types that are written for members.

## Theorems

* `parse_declared`: The text of a written class is parsed as this class.
-/

namespace Nominal

open Syntax
open Program (TypeRef)

namespace Syntax

/-- A text that is read as one token of some kind. -/
def IsTokenOf (k : Kind) (text : String) : Prop := (lex text).map Lexeme.kind = [k]

instance (k : Kind) (text : String) : Decidable (IsTokenOf k text) :=
  inferInstanceAs (Decidable (_ = _))

/-- The token has the whole text. -/
theorem IsTokenOf.mem_lex {k : Kind} {text : String} (h : IsTokenOf k text) :
    (⟨k, text⟩ : Lexeme) ∈ lex text := by
  rcases List.map_eq_singleton_iff.mp h with ⟨l, hlex, rfl⟩
  have htext : l.text = text := by
    rw [← textOf_lex text, hlex, Lexeme.textOf, Lexeme.textOf, String.append_empty]
  rw [hlex, ← htext]
  exact List.mem_singleton_self l

theorem IsTokenOf.isName {text : String} (h : IsTokenOf .id text) : IsName text :=
  isName_of_mem h.mem_lex rfl

/-- The name of a built-in type is the word of one. -/
theorem IsTokenOf.reserved {text : String} (h : IsTokenOf .predefinedType text) :
    Kind.reserved? text = some .predefinedType := by
  have hword := (word_of_mem h.mem_lex (.inr rfl)).2
  cases hreserved : Kind.reserved? text with
  | none =>
      rw [hreserved] at hword
      cases hword
  | some k =>
      rw [hreserved] at hword
      exact congrArg some hword

end Syntax

namespace Program.TypeRef

/-- The types that are written for members: the names of built-in types, paths with any
    arguments, arrays, and nullable types, which are not made nullable again. -/
inductive IsDisplay : TypeRef → Prop where
  | keyword {word : String} : IsTokenOf .predefinedType word → IsDisplay (.predefined (some word))
  | path {segments : List String} {args : List TypeRef} : segments ≠ [] →
    (∀ s ∈ segments, IsTokenOf .id s) → (∀ t ∈ args, IsDisplay t) → IsDisplay (.path segments args)
  | array {element : TypeRef} : IsDisplay element → IsDisplay (.array element)
  | nullable {inner : TypeRef} : IsDisplay inner → (∀ t, inner ≠ .nullable t) →
    IsDisplay (.nullable inner)

theorem areWritable_of_forall {args : List TypeRef} (h : ∀ t ∈ args, t.IsWritable) :
    AreWritable args := by
  induction args with
  | nil => trivial
  | cons t ts ih =>
      rw [List.forall_mem_cons] at h
      exact ⟨h.1, ih h.2⟩

theorem IsDisplay.isWritable {t : TypeRef} (h : t.IsDisplay) : t.IsWritable := by
  induction h with
  | keyword hword => exact ⟨_, rfl, hword.reserved⟩
  | @path segments args hsome hsegments _ ih =>
      have hnames : segments ≠ [] ∧ ∀ s ∈ segments, IsName s :=
        ⟨hsome, fun s hs => (hsegments s hs).isName⟩
      -- Without arguments there are no brackets either.
      cases args with
      | nil => exact hnames
      | cons u us => exact ⟨hnames, List.cons_ne_nil u us, areWritable_of_forall ih⟩
  | array _ ih => exact ih
  | @nullable inner _ honce ih =>
      refine ⟨ih, ?_⟩
      cases inner with
      | nullable t => exact absurd rfl (honce t)
      | named segments args => cases args <;> nofun
      | missing | predefined | array => nofun

end Program.TypeRef

namespace Grammar

/-- A file that is read whole is parsed without a report, unless the next token is looked at too
    often or, where tokens may not be enough, there are more of them than may be taken. -/
theorem parseLexemes_of_read_or (enough : Prop) {limits : Limits} {ls : List Lexeme} {k : Nat}
    {q : Place} (hk : enough → ∀ n, limits.tokens = some n → k ≤ n)
    (h : fileScript.read limits.depth (readProduction limits.depth (levels * (ls.length + 1)))
      ⟨ls, [], [], 0, 0, k⟩ = some ((), q)) :
    parseLexemes limits ls = .error .stuck ∨ (∃ parsed, parseLexemes limits ls = .ok parsed ∧
      parsed.tree = .node .root q.output ∧ parsed.diagnostics = []) ∨
      (¬enough ∧ parseLexemes limits ls = .error (.exceeded .tokens)) := by
  rw [parseLexemes_eq]
  have hfile : IsRun enough (fileScript.exec ⟨limits.depth, Lexeme.widthOf ls⟩
        (runProduction ⟨limits.depth, Lexeme.widthOf ls⟩ (levels * (ls.length + 1))))
      (fileScript.read limits.depth (readProduction limits.depth (levels * (ls.length + 1)))) :=
    run_of_script (runProduction_of_read _) fileScript
  have hstart : (State.initial limits ls).IsAt enough ⟨ls, [], [], 0, 0, k⟩ := ⟨k, rfl, hk⟩
  rcases hfile.reaches h ⟨rfl, rfl, rfl⟩ hstart with hstuck | ⟨t, hrun, ht, hat⟩ | ⟨hshort, hout⟩
  · left
    rw [runFile, hstuck]
    rfl
  · refine .inr (.inl ?_)
    rw [runFile, hrun, Outcome.result, State.result, ht.running]
    exact ⟨_, rfl, congrArg (Syntax.Tree.node .root) hat.output, ht.silent⟩
  · cases hrun : runFile limits ls with
    | ok u t =>
        rw [Outcome.result, State.result, hout u t hrun]
        exact .inr (.inr ⟨hshort, rfl⟩)
    | stuck => exact .inl rfl
    | broken fault =>
        rw [runFile_eq_watchFile] at hrun
        exact absurd hrun (watchFile_not_broken limits ls fault)

/-- A file that is read whole is parsed without a report if there are enough tokens, unless the
    next one is looked at too often. -/
theorem parseLexemes_of_read {limits : Limits} {ls : List Lexeme} {k : Nat} {q : Place}
    (hk : ∀ n, limits.tokens = some n → k ≤ n)
    (h : fileScript.read limits.depth (readProduction limits.depth (levels * (ls.length + 1)))
      ⟨ls, [], [], 0, 0, k⟩ = some ((), q)) :
    parseLexemes limits ls = .error .stuck ∨ ∃ parsed, parseLexemes limits ls = .ok parsed ∧
      parsed.tree = .node .root q.output ∧ parsed.diagnostics = [] := by
  rcases parseLexemes_of_read_or True (fun _ => hk) h with hstuck | hok | ⟨hshort, _⟩
  · exact .inl hstuck
  · exact .inr hok
  · exact absurd trivial hshort

variable {form : ClassForm}

/-- The class is the only item of the file. -/
theorem read_file (hform : form.IsWritable) (layout : Layout) :
    ∃ q, fileScript.read none (readProduction none (levels * ((form.tree layout).leaves.length + 1)))
        ⟨(form.tree layout).leaves, [], [], 0, 0, (kindsOf (form.tree layout).leaves).length⟩
      = some ((), q) ∧ q.output = [form.tree layout] := by
  -- The items of the file, the members of the class and their types use up three references.
  let k : Nat := 16 * (form.tree layout).leaves.length + 14
  let p : Place :=
    ⟨(form.tree layout).leaves, [], [], 0, 0, (kindsOf (form.tree layout).leaves).length⟩
  let q : Place := ⟨[], [], [form.tree layout], 0, 0, 0⟩
  have hlevels : levels * ((form.tree layout).leaves.length + 1) = k + 1 + 1 := by
    simp only [levels, k]
    omega
  have hreads : ∀ m ∈ form.members, ReadsMember (readProduction none (k + 1)) form.style m :=
    fun m hm => by
      have hlength := form.length_member layout hm
      exact readsMember_readProduction none k (hform.members m hm).2 (by simp only [k]; omega)
  have hleaves := congrArg Tree.leaves (form.tree_eq layout)
  rw [Tree.leaves] at hleaves
  have hclass : (item false).read none (readProduction none (k + 1)) p = some (true, q) := by
    have hrest : p.rest = [] ++ (Tree.leavesOf (classTrees form.name
        (ClassForm.lineLexemes layout layout.baseIndent)
        (ClassForm.lineLexemes layout (layout.baseIndent ++ form.indent)) form.style form.members)
          ++ []) := by
      rw [List.append_nil, List.nil_append, ← hleaves]
    have hfuel : p.fuel = 0 + (kindsOf (Tree.leavesOf (classTrees form.name
        (ClassForm.lineLexemes layout layout.baseIndent)
        (ClassForm.lineLexemes layout (layout.baseIndent ++ form.indent)) form.style
          form.members))).length := by
      rw [Nat.zero_add, ← hleaves]
    refine (read_classItem (ClassForm.trivia_lineLexemes layout layout.baseIndent)
      (ClassForm.trivia_lineLexemes layout (layout.baseIndent ++ form.indent)) hreads
      (List.forall_mem_nil _) hrest rfl hfuel).trans ?_
    rw [← form.tree_eq layout]
    rfl
  have hend : (item false).read none (readProduction none (k + 1)) q = some (false, q) := by
    rw [item_read]
    exact if_pos rfl
  have hsome : 0 < p.rest.length := by
    rw [show p.rest = (form.tree layout).leaves from rfl, hleaves, leavesOf_classTrees, classStart]
    exact Nat.succ_pos _
  have hitems : readProduction none (k + 1 + 1) (.items false) p = some ((), q) :=
    repeatWhile_again hclass hsome (repeatWhile_stop hend)
  refine ⟨q, ?_, rfl⟩
  rw [hlevels, fileScript, read_bind_of ((read_call (.items false) p).trans hitems)]
  rfl

/-- The text of a written class is parsed as this class, unless the next token is looked at too
    often. -/
theorem parse_declared (form : ClassForm) (layout : Layout) (hlayout : layout.IsBlank)
    (hindent : ∀ c ∈ form.indent.toList, isBlank c = true) (hname : IsTokenOf .id form.name)
    (hmembers : ∀ m ∈ form.members, IsTokenOf .id m.name ∧ m.type.IsDisplay) :
    parseWith ⟨none, none⟩ (form.tree layout).text = .error .stuck ∨
      ∃ parsed, parseWith ⟨none, none⟩ (form.tree layout).text = .ok parsed ∧
        parsed.tree = .node .root [form.tree layout] ∧ parsed.diagnostics = [] := by
  have hform : form.IsWritable :=
    ⟨hname.isName, fun m hm => ⟨(hmembers m hm).1.isName, (hmembers m hm).2.isWritable⟩⟩
  have hlex : lex (form.tree layout).text = (form.tree layout).leaves := by
    have hinset : AreInset (form.tree layout).leaves ([] : List Char).head? :=
      areInset_class hlayout hform hindent none
    have happend := lexemes_append hinset
    rw [List.append_nil, show lexemes [] = [] from rfl, List.append_nil] at happend
    rw [Tree.text, lex, toList_textOf]
    exact happend
  rcases read_file hform layout with ⟨q, hread, houtput⟩
  rw [parseWith, hlex]
  rcases @parseLexemes_of_read ⟨none, none⟩ _ _ _ (fun _ hlimit => by cases hlimit) hread with
    hstuck | ⟨parsed, hok, htree, hsilent⟩
  · exact .inl hstuck
  · exact .inr ⟨parsed, hok, htree.trans (congrArg _ houtput), hsilent⟩

/-- A property of a type that is nested and one of a built-in type, on lines that end in a carriage
    return and a line feed. -/
theorem parse_declared_order :
    ∃ form layout parsed, form = (⟨"Order", [⟨"Lines", .nullable (.array (.path ["Data", "Map"]
          [.predefined (some "string"), .array (.path ["Line"] [])]))⟩,
        ⟨"Total", .predefined (some "int")⟩], .property, "\t"⟩ : ClassForm) ∧
      layout = (⟨"  ", "\r\n"⟩ : Layout) ∧
      parseWith ⟨none, none⟩ (form.tree layout).text = .ok parsed ∧
      parsed.tree = .node .root [form.tree layout] ∧ parsed.diagnostics = [] := by
  generalize htype : TypeRef.nullable (.array (.path ["Data", "Map"]
    [.predefined (some "string"), .array (.path ["Line"] [])])) = lines
  generalize hform : (⟨"Order", [⟨"Lines", lines⟩, ⟨"Total", .predefined (some "int")⟩], .property,
    "\t"⟩ : ClassForm) = form
  generalize hlayout : (⟨"  ", "\r\n"⟩ : Layout) = layout
  have hlines : lines.IsDisplay := by
    have hline : (TypeRef.array (.path ["Line"] [])).IsDisplay :=
      .array (.path nofun (by decide) nofun)
    have hword : (TypeRef.predefined (some "string")).IsDisplay :=
      .keyword (show IsTokenOf .predefinedType "string" by decide)
    rw [← htype]
    exact .nullable (.array (.path nofun (by decide)
      (List.forall_mem_cons.mpr ⟨hword, List.forall_mem_singleton.mpr hline⟩))) nofun
  have hmembers : ∀ m ∈ form.members, IsTokenOf .id m.name ∧ m.type.IsDisplay := by
    have hfirst : IsTokenOf .id "Lines" := by decide
    have hsecond : IsTokenOf .id "Total" := by decide
    have htotal : IsTokenOf .predefinedType "int" := by decide
    rw [← hform]
    exact List.forall_mem_cons.mpr ⟨⟨hfirst, hlines⟩,
      List.forall_mem_singleton.mpr ⟨hsecond, .keyword htotal⟩⟩
  have hname : IsTokenOf .id "Order" := by decide
  have htab : ∀ c ∈ "\t".toList, isBlank c = true := List.all_eq_true.mp (by decide)
  have hblank : layout.IsBlank := hlayout ▸ ⟨.inr rfl, List.all_eq_true.mp (by decide)⟩
  have hparse := parse_declared form layout hblank (hform ▸ htab) (hform ▸ hname) hmembers
  have hrun : (parseWith ⟨none, none⟩ (form.tree layout).text).isOk = true := by
    rw [← hform, ← hlayout, ← htype]
    decide +kernel
  rcases hparse with hstuck | ⟨parsed, hok, htree, hsilent⟩
  · rw [hstuck] at hrun
    cases hrun
  · exact ⟨form, layout, parsed, rfl, rfl, hok, htree, hsilent⟩

end Grammar

end Nominal
