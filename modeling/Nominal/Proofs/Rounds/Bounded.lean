import Nominal.Proofs.Rounds.Openings
import Nominal.Proofs.Reparsed.Extractions
import Nominal.Proofs.Limited

/-!
# Extracting Everything Comes to an End

Each extraction names at least the creation that it starts from, and so the tree that it gives
has an opening less. The next extraction starts from the text of that tree, though. As long as
each text is cut into the lexemes of the tree that it was written from, the openings are used up
one after another, and there are no more extractions than there were openings at first. The
parser takes no more tokens than its limit, so extracting everything never runs into the bound
on its rounds.

A text may be cut in another way if there is rejected text in the source: what is put in front of
a member can complete a quote before it. In a document without mistakes there is no such text,
and no extraction brings any.

## Main definitions

* `Document.openings`: How often a creation of an anonymous object opens in a document.
* `Document.Leads`: So many extractions lead from one document to another.
* `Document.KeepsLexemes`: The texts on the way are cut into the lexemes of their trees.

## Theorems

* `Document.Extracts.openings_lt`: An extraction leaves fewer openings.
* `Document.Leads.openings_le`: Several extractions leave so many openings fewer.
* `fixAll_bounded`: Extracting everything ends within as many extractions as there are openings.
-/

namespace Nominal

open Syntax (Tree Kind Lexeme Location)

/-- Nothing but trivia stands between a type and the declaration behind it. -/
theorem Plan.isTrivia_separator (p : Plan) :
    ∀ l ∈ Tree.leavesOf p.separator, l.isTrivia = true := by
  have hall : ((Tree.leavesOf p.separator).all Lexeme.isTrivia) = true := by
    rw [Plan.separator, blanks]
    split <;> rfl
  exact List.all_eq_true.mp hall

namespace Document

/-- How often the keyword of a creation is followed by a brace in the source. -/
def openings (d : Document) : Nat := Nominal.openings (kindsOf (Syntax.lex d.source))

/-- So many extractions, each of the first type that can be extracted, lead from one document to
    another. -/
inductive Leads (request : Request) : Nat → Document → Document → Prop where
  | none (d : Document) : Leads request 0 d d
  | next {n : Nat} {d next last : Document} {e : Extraction} :
    d.extractNext? request = some e → parse e.text = .ok next → Leads request n next last →
    Leads request (n + 1) d last

/-- Every extraction on the way from a document gives a text that is cut into the lexemes of its
    tree. -/
def KeepsLexemes (request : Request) (d : Document) : Prop :=
  ∀ n last e, Leads request n d last → last.extractNext? request = some e →
    Syntax.lex e.text = e.tree.leaves

variable {source : String} {d : Document} {request : Request} {e : Extraction}

/-- The first type that can be extracted has a site that its extraction starts from. -/
theorem extractNext?_eq_some (h : d.extractNext? request = some e) :
    ∃ anchor ∈ d.sites, ∃ p, d.model.planAt d.tree anchor request = .ok p
      ∧ p.apply d.model request.isCancelled = .ok e := by
  rcases List.exists_of_findSome?_eq_some h with ⟨target, _, hextract⟩
  cases he : d.model.extract d.tree target request with
  | error refusal =>
      rw [he] at hextract
      cases hextract
  | ok e' =>
      rw [he] at hextract
      cases hextract
      exact Model.extract_eq_ok he

/-- An extraction leaves fewer openings: the creation that it starts from is named. -/
theorem Extracts.openings_lt (hd : parse source = .ok d) {anchor : Site} {p : Plan}
    (h : d.Extracts anchor p e) :
    Nominal.openings (kindsOf e.tree.leaves) < Nominal.openings (kindsOf d.tree.leaves) := by
  rcases parse_eq_ok hd with ⟨_, _, hconforms, _, _⟩
  rcases h with ⟨hsite, ⟨request, hplan⟩, ⟨isCancelled, happly⟩⟩
  rcases Model.planAt_eq_ok hplan with ⟨hscope, htarget, _, _, _, _, forms, _, hdeclaration⟩
  rcases Plan.apply_eq_ok happly with ⟨habove, objects, hobjects, htree, _⟩
  have hrenamed := (Model.nameObjects_eq_ok hobjects).2.1
  have hcontainer := (Model.scopeOf_eq_ok hscope).1
  have hanchor := Model.mem_locations_of_mem_sites hsite
  rcases linked_container hanchor hcontainer with ⟨hlinked, htop⟩
  have hsuffix := (Syntax.outermost?_eq_some hcontainer).1
  have hbelow : anchor.location ∈ p.scope.container :: locationsBelow p.scope.container := by
    rw [← Syntax.filter_isWithin (Syntax.mem_locations_of_suffix hanchor hsuffix)]
    exact List.mem_filter.mpr ⟨hanchor, Syntax.isWithin_of_suffix hsuffix⟩
  have hseparator := p.isTrivia_separator
  generalize p.scope.container = container at *
  rcases Syntax.leaves_around hlinked habove with ⟨front, back, _, hold, hnew⟩
  have hnamed := @fewer_nameCreations
    (fun span => d.model.typeAt? ⟨.anonObjectCreation, span⟩ == some p.target) p.newName _
    (hlinked.conforms (htop ▸ hconforms)) container.above container.node.start container.node.index
  rw [← hrenamed] at hnamed
  -- The anchor is one of the creations that are named.
  have hsome : 0 < (Tree.locationsAt container.above container.node.start container.node.index
      container.node.tree).countP (isNamed fun span =>
        d.model.typeAt? ⟨.anonObjectCreation, span⟩ == some p.target) := by
    rw [List.countP_pos_iff]
    refine ⟨anchor.location, hbelow, ?_⟩
    rw [Model.isNamed_eq_creates, htarget]
    exact Model.creates_of_mem_sites hsite
  have hafter := fewer_declared ⟨p.newName, forms, request.style, request.indent⟩ p.layout hseparator
    (kindsOf back)
  have hwhole := ((Fewer.refl (kindsOf front)).append (hnamed.append hafter)).openings_le
  have hbefore : kindsOf d.tree.leaves
      = kindsOf front ++ (kindsOf container.node.tree.leaves ++ kindsOf back) := by
    rw [← htop, hold, kindsOf_append, kindsOf_append, List.append_assoc]
  have hbehind : kindsOf e.tree.leaves = kindsOf front ++ (kindsOf objects.tree.leaves
      ++ (kindsOf (Tree.leavesOf (p.separator ++ [p.declaration])) ++ kindsOf back)) := by
    rw [htree, Syntax.replaceAt_eq_rebuilt hlinked habove, hnew, List.cons_append,
      kindsOf_append, kindsOf_append, kindsOf_leavesOf_cons]
    simp only [List.append_assoc]
  rw [hbefore, hbehind, hdeclaration]
  omega

/-- A document has no more openings than the parser may take tokens. -/
theorem openings_le_limit (hd : parse source = .ok d) {limit : Nat}
    (hlimit : Grammar.defaultLimits.tokens = some limit) : d.openings ≤ limit := by
  rcases parse_eq_ok hd with ⟨hsource, _, _, _, parsed, hparsed, _⟩
  rcases Grammar.runFile_of_ok hparsed with ⟨s, hrun, hlost, _⟩
  have hwithin := (Grammar.counted_runFile hrun).within hlost limit hlimit
  rw [Grammar.taken_runFile _ hrun hlost] at hwithin
  have htokens : (kindsOf (Syntax.lex source)).length = (Lexeme.bare (Syntax.lex source)).length :=
    List.length_map _
  rw [openings, hsource]
  exact Nat.le_trans (openings_le_length _) (htokens ▸ hwithin)

theorem openings_eq (hd : parse source = .ok d) :
    d.openings = Nominal.openings (kindsOf d.tree.leaves) := by
  rcases parse_eq_ok hd with ⟨hsource, hleaves, _⟩
  rw [openings, hsource, hleaves]

/-! ### Rounds -/

/-- The extraction of the next type leaves fewer openings in its tree. -/
theorem openings_extractNext (hd : parse source = .ok d) (h : d.extractNext? request = some e) :
    Nominal.openings (kindsOf e.tree.leaves) < d.openings := by
  rcases extractNext?_eq_some h with ⟨anchor, hsite, p, hplan, happly⟩
  rw [openings_eq hd]
  exact Extracts.openings_lt hd ⟨hsite, ⟨request, hplan⟩, ⟨_, happly⟩⟩

namespace KeepsLexemes

/-- The document of the next text has fewer openings, and from there on the lexemes are kept. -/
theorem next (h : KeepsLexemes request d) (hd : parse source = .ok d)
    (he : d.extractNext? request = some e) {next : Document} (hnext : parse e.text = .ok next) :
    next.openings < d.openings ∧ KeepsLexemes request next := by
  constructor
  · have hleaves := h 0 d e (.none d) he
    rw [openings, (parse_eq_ok hnext).1, hleaves]
    exact openings_extractNext hd he
  · intro n last e' hleads he'
    exact h (n + 1) last e' (.next he hnext hleads) he'

/-- Several extractions leave so many openings fewer. -/
theorem openings_le (h : KeepsLexemes request d) (hd : parse source = .ok d) {n : Nat}
    {last : Document} (hleads : Leads request n d last) :
    last.openings + n ≤ d.openings ∧ ∃ text, parse text = .ok last := by
  induction hleads generalizing source with
  | none d => exact ⟨Nat.le_refl _, source, hd⟩
  | next he hnext hleads ih =>
      rcases h.next hd he hnext with ⟨hfewer, hkeeps⟩
      rcases ih hkeeps hnext with ⟨hcount, hlast⟩
      exact ⟨by omega, hlast⟩

/-- More rounds than there are openings are enough, and no more types than that are extracted. -/
theorem fixUpTo_bounded (h : KeepsLexemes request d) (hd : parse source = .ok d) {n : Nat}
    (hn : d.openings < n) :
    fixUpTo request n d ≠ .error .endless ∧
      ∀ f, fixUpTo request n d = .ok f → f.typeNames.length ≤ d.openings := by
  induction n generalizing source d with
  | zero => exact absurd hn (Nat.not_lt_zero _)
  | succ n ih =>
      rw [fixUpTo]
      cases he : d.extractNext? request with
      | none =>
          refine ⟨nofun, fun f hf => ?_⟩
          cases hf
          exact Nat.zero_le _
      | some e =>
          dsimp only
          cases hnext : parse e.text with
          | error failure => exact ⟨nofun, nofun⟩
          | ok next =>
              rcases h.next hd he hnext with ⟨hfewer, hkeeps⟩
              rcases ih hkeeps hnext (by omega) with ⟨hends, hnames⟩
              dsimp only
              cases hrest : fixUpTo request n next with
              | error failure =>
                  refine ⟨fun hendless => ?_, nofun⟩
                  cases hendless
                  exact hends hrest
              | ok g =>
                  refine ⟨nofun, fun f hf => ?_⟩
                  cases hf
                  have hcount := hnames g hrest
                  rw [List.length_cons]
                  omega

end KeepsLexemes

/-- A document without mistakes keeps its lexemes: the next one has no mistakes either. -/
theorem keepsLexemes_of_silent (hd : parse source = .ok d) (hsilent : d.diagnostics = [])
    (hindent : ∀ c ∈ request.indent.toList, c = ' ' ∨ c = '\t') : KeepsLexemes request d := by
  intro n last e hleads he
  have hread : ∀ {text : String} {d : Document} {e : Extraction}, parse text = .ok d →
      d.diagnostics = [] → d.extractNext? request = some e →
        Syntax.lex e.text = e.tree.leaves ∧
          ∀ next, parse e.text = .ok next → next.diagnostics = [] := by
    intro text d e hd hsilent he
    rcases extractNext?_eq_some he with ⟨anchor, hsite, p, hplan, happly⟩
    rcases reads_extraction hd hsilent hsite hindent hplan happly with
      ⟨hlex, hstuck | hmany | ⟨d', hd', _, hsilent'⟩⟩
    · exact ⟨hlex, fun next hnext => nomatch hstuck.symm.trans hnext⟩
    · exact ⟨hlex, fun next hnext => nomatch hmany.symm.trans hnext⟩
    · refine ⟨hlex, fun next hnext => ?_⟩
      cases hd'.symm.trans hnext
      exact hsilent'
  induction hleads generalizing source with
  | none d => exact (hread hd hsilent he).1
  | next he' hnext hleads ih => exact ih hnext ((hread hd hsilent he').2 _ hnext) he

end Document

/-- Extracting everything comes to an end if each text on the way is cut into the lexemes of the
    tree that it was written from. It does not run into the bound on its rounds, and it carries
    out at most as many extractions as there are openings of creations in the source; so there
    are no more names of new types. The texts are cut like that if the document has no mistakes
    and the request indents by blanks. -/
theorem fixAll_bounded {source : String} {d : Document} (hd : Document.parse source = .ok d)
    (request : Request) :
    (d.KeepsLexemes request →
      d.fixAll request ≠ .error .endless ∧
      (∀ n last e, Document.Leads request n d last → last.extractNext? request = some e →
        n < openings (kindsOf (Syntax.lex source))) ∧
      ∀ f, d.fixAll request = .ok f →
        f.typeNames.length ≤ openings (kindsOf (Syntax.lex source))) ∧
    (d.diagnostics = [] → (∀ c ∈ request.indent.toList, c = ' ' ∨ c = '\t') →
      d.KeepsLexemes request) := by
  have hopenings : d.openings = openings (kindsOf (Syntax.lex source)) := by
    rw [Document.openings, (Document.parse_eq_ok hd).1]
  refine ⟨fun h => ?_, Document.keepsLexemes_of_silent hd⟩
  have hlimit : d.openings ≤ 1000000 := Document.openings_le_limit hd rfl
  rw [← hopenings]
  have hbounded := h.fixUpTo_bounded hd (Nat.lt_succ_of_le hlimit)
  refine ⟨hbounded.1, fun n last e hleads he => ?_, hbounded.2⟩
  rcases h.openings_le hd hleads with ⟨hcount, text, hlast⟩
  have hfewer := Document.openings_extractNext hlast he
  omega

/-- Two types are extracted where there are two openings, and then there is nothing left. -/
theorem fixAll_bounded_two :
    ∃ source d f, source = "class C { void M() { var a = new { A = 1 }; var b = new { B = 2 }; } }"
      ∧ Document.parse source = .ok d ∧ d.diagnostics = []
      ∧ (∀ c ∈ Request.plain.indent.toList, c = ' ' ∨ c = '\t')
      ∧ d.KeepsLexemes Request.plain ∧ d.fixAll Request.plain = .ok f
      ∧ f.typeNames.length = 2 ∧ f.typeNames.length ≤ openings (kindsOf (Syntax.lex source)) := by
  generalize hsource : "class C { void M() { var a = new { A = 1 }; var b = new { B = 2 }; } }"
    = source
  have hok : ((Document.parse source).toOption.any fun d => d.diagnostics.isEmpty
      && (d.fixAll Request.plain).toOption.any fun f => f.typeNames.length == 2) = true := by
    rw [← hsource]
    decide +kernel
  rcases (Option.any_eq_true _ _).mp hok with ⟨d, hd, hboth⟩
  rw [Bool.and_eq_true, List.isEmpty_iff] at hboth
  rcases hboth with ⟨hsilent, hfixed⟩
  rcases (Option.any_eq_true _ _).mp hfixed with ⟨f, hf, htwo⟩
  cases hparse : Document.parse source with
  | error failure =>
      rw [hparse] at hd
      cases hd
  | ok d' =>
      rw [hparse] at hd
      cases hd
      cases hall : d.fixAll Request.plain with
      | error failure =>
          rw [hall] at hf
          cases hf
      | ok f' =>
          rw [hall] at hf
          cases hf
          have hindent : ∀ c ∈ Request.plain.indent.toList, c = ' ' ∨ c = '\t' := by
            have hall : (Request.plain.indent.toList.all fun c => c == ' ' || c == '\t') = true := by
              decide +kernel
            intro c hc
            simpa only [Bool.or_eq_true, beq_iff_eq] using List.all_eq_true.mp hall c hc
          have hkeeps := (fixAll_bounded hparse Request.plain).2 hsilent hindent
          exact ⟨source, d, f, rfl, hparse, hsilent, hindent, hkeeps, hall, eq_of_beq htwo,
            ((fixAll_bounded hparse Request.plain).1 hkeeps).2.2 f hall⟩

end Nominal
