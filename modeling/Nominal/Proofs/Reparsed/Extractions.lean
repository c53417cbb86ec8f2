import Nominal.Proofs.Reparsed.Edited
import Nominal.Proofs.Reparsed.Planned

/-!
# The Text of an Extraction

An extraction puts a tree together by hand. Where the source has no mistakes, this is the very tree
that the parser builds of the text, and there are no mistakes in the text either. The text is longer
than the source, so it may have too many tokens, and the parser may look at a token too often; but
nothing else can happen.

## Theorems

* `Document.parse_of_isSound`: A document has no mistakes if the parser reports nothing and its tree
  is sound.
* `Document.reads_extraction`: The text of an extraction is cut into the lexemes of its tree and
  parsed as that tree.
* `extraction_reparsed`: The text of an extraction is parsed as the tree of the extraction, and
  nothing is reported about it.
-/

namespace Nominal

open Syntax (Tree Lexeme isBlank)
open Grammar (ParseFailure)

/-- A text about which the parser reports nothing is a document without mistakes, if its tree is
    sound. -/
theorem Document.parse_of_isSound {text : String} {parsed : Grammar.Parsed}
    (hparsed : Grammar.parse text = .ok parsed) (hsilent : parsed.diagnostics = [])
    {children : List Tree} (htree : parsed.tree = .node .root children)
    (hsound : (Syntax.Tree.node .root children).isSound = true) :
    ∃ d, Document.parse text = .ok d ∧ d.tree = .node .root children ∧ d.diagnostics = [] := by
  have hconforms : (Syntax.Tree.node .root children).Conforms :=
    htree ▸ Grammar.conforms_parseLexemes hparsed
  have hreports : (Model.ofTree parsed.tree).2 = [] := by
    rw [htree]
    exact (Model.silent_iff hconforms rfl).mpr hsound
  refine ⟨⟨text, parsed.tree, (Model.ofTree parsed.tree).1,
    parsed.diagnostics ++ (Model.ofTree parsed.tree).2, parsed.taken⟩, ?_, htree, ?_⟩
  · rw [Document.parse, hparsed]
    rfl
  · rw [hsilent, hreports]
    rfl

/-- The text of an extraction from a source without mistakes is cut into the lexemes of the tree
    that the extraction put together. It is parsed as that tree and nothing is reported about it,
    unless the parser has to take too many tokens or looks at one of them too often. -/
theorem Document.reads_extraction {source : String} {d : Document} (hd : Document.parse source = .ok d)
    (hsilent : d.diagnostics = []) {anchor : Site} (hsite : anchor ∈ d.sites) {request : Request}
    (hindent : ∀ c ∈ request.indent.toList, c = ' ' ∨ c = '\t') {p : Plan}
    (hplan : d.model.planAt d.tree anchor request = .ok p) {isCancelled : Bool} {e : Extraction}
    (happly : p.apply d.model isCancelled = .ok e) :
    Syntax.lex e.text = e.tree.leaves ∧
      (Document.parse e.text = .error .stuck ∨
        Document.parse e.text = .error (.exceeded .tokens) ∨
        ∃ d', Document.parse e.text = .ok d' ∧ d'.tree = e.tree ∧ d'.diagnostics = []) := by
  rcases Document.parse_eq_ok hd with
    ⟨_, _, hconforms, _, parsed, hparsed, htree, hdiagnostics⟩
  rw [hsilent, eq_comm, List.append_eq_nil_iff] at hdiagnostics
  rcases d.writes hd hsilent hsite hplan with
    ⟨form, hname, hunit, hdeclaration, hform, hnameable⟩
  have hplanned := Model.planAt_eq_ok hplan
  have hcontainer := (Model.scopeOf_eq_ok hplanned.1).1
  have hmembers : ∀ l ∈ p.scope.container :: locationsBelow p.scope.container,
      d.model.creates p.target l = true → AreNameable l.node.children := by
    intro l hl
    refine hnameable l ?_
    have hanchor := Model.mem_locations_of_mem_sites hsite
    have hsuffix := (Syntax.outermost?_eq_some hcontainer).1
    rw [← Syntax.filter_isWithin (Syntax.mem_locations_of_suffix hanchor hsuffix)] at hl
    exact List.mem_of_mem_filter hl
  rcases Document.Extracts.altered hd ⟨hsite, ⟨request, hplan⟩, ⟨isCancelled, happly⟩⟩ hname
    hdeclaration hmembers with ⟨children, us, hroot, hedited, haltered, hlength⟩
  have hlayout : p.layout.IsBlank := by
    rw [hplanned.2.2.2.2.2.1]
    exact isBlank_layoutAt _ _
  have hblank : ∀ c ∈ form.indent.toList, isBlank c = true := by
    intro c hc
    rw [hunit] at hc
    rcases hindent c hc with rfl | rfl
    · rfl
    · rfl
  have htext : e.text = Lexeme.textOf (Tree.leavesOf us) := by
    rw [Extraction.text, hedited]
    rfl
  -- Typing comes across the same names as before, so it has nothing to report either.
  have hsound : (Syntax.Tree.node .root us).isSound = true := by
    have hbefore := (Model.silent_iff hconforms hroot).mp hdiagnostics.2
    rw [hroot] at hbefore
    exact haltered.sound (isSound_class form p.layout) rfl hbefore
  rw [htree] at hroot
  rw [htext]
  rcases Grammar.parse_altered hparsed hdiagnostics.1 hform hlayout hblank hroot haltered hlength with
    ⟨hlex, hread⟩
  refine ⟨hlex.trans (by rw [hedited, Tree.leaves]), ?_⟩
  rcases hread with hstuck | ⟨parsed', hparsed', htree', hsilent'⟩ | hmany
  · left
    rw [Document.parse, hstuck]
    rfl
  · rcases Document.parse_of_isSound hparsed' hsilent' htree' hsound with ⟨d', hd', htree, hreports⟩
    exact .inr (.inr ⟨d', hd', htree.trans hedited.symm, hreports⟩)
  · right
    left
    rw [Document.parse, hmany]
    rfl

/-- The text of an extraction from a source without mistakes is parsed as the tree that the
    extraction put together, and nothing is reported about it, unless the parser has to take too
    many tokens or looks at one of them too often. -/
theorem extraction_reparsed {source : String} {d : Document} (hd : Document.parse source = .ok d)
    (hsilent : d.diagnostics = []) {anchor : Site} (hsite : anchor ∈ d.sites) {request : Request}
    (hindent : ∀ c ∈ request.indent.toList, c = ' ' ∨ c = '\t') {p : Plan}
    (hplan : d.model.planAt d.tree anchor request = .ok p) {isCancelled : Bool} {e : Extraction}
    (happly : p.apply d.model isCancelled = .ok e) :
    Document.parse e.text = .error .stuck ∨ Document.parse e.text = .error (.exceeded .tokens) ∨
      ∃ d', Document.parse e.text = .ok d' ∧ d'.tree = e.tree ∧ d'.diagnostics = [] :=
  (Document.reads_extraction hd hsilent hsite hindent hplan happly).2

/-- An object with a comment before its members is created around another one, and one of its
    members is named after what it holds, in a text with carriage returns. -/
theorem extraction_reparsed_nested :
    ∃ d anchor p e, Document.parse ("using B;\r\n"
        ++ "class C { object F(object o, string s) => new /* c */ { A = F(new { A = 2 }, s), s.Length }; }")
          = .ok d
      ∧ d.diagnostics = [] ∧ anchor ∈ d.sites
      ∧ (∀ c ∈ Request.plain.indent.toList, c = ' ' ∨ c = '\t')
      ∧ d.model.planAt d.tree anchor Request.plain = .ok p ∧ p.apply d.model false = .ok e
      ∧ ∃ d', Document.parse e.text = .ok d' ∧ d'.tree = e.tree ∧ d'.diagnostics = [] := by
  rcases exists_plan
    ("using B;\r\n"
      ++ "class C { object F(object o, string s) => new /* c */ { A = F(new { A = 2 }, s), s.Length }; }")
    Request.plain (fun d p => d.diagnostics.isEmpty && (p.apply d.model false).toOption.any fun e =>
      (Document.parse e.text).toOption.isSome) (by decide +kernel)
    with ⟨d, anchor, p, hd, hanchor, hplan, hcheck⟩
  rw [Bool.and_eq_true, List.isEmpty_iff] at hcheck
  have hindent : ∀ c ∈ Request.plain.indent.toList, c = ' ' ∨ c = '\t' := by
    have hall : (Request.plain.indent.toList.all fun c => c == ' ' || c == '\t') = true := by
      decide +kernel
    intro c hc
    have hc := List.all_eq_true.mp hall c hc
    rwa [Bool.or_eq_true, beq_iff_eq, beq_iff_eq] at hc
  cases happly : p.apply d.model false with
  | error refusal =>
      rw [happly] at hcheck
      exact absurd hcheck.2 nofun
  | ok e =>
      have hok : (Document.parse e.text).toOption.isSome = true := by
        rw [happly] at hcheck
        exact hcheck.2
      refine ⟨d, anchor, p, e, hd, hcheck.1, hanchor, hindent, hplan, happly, ?_⟩
      rcases extraction_reparsed hd hcheck.1 hanchor hindent hplan happly with
        hstuck | hmany | hparsed
      · rw [hstuck] at hok
        cases hok
      · rw [hmany] at hok
        cases hok
      · exact hparsed

end Nominal
