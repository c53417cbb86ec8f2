import Nominal.Proofs.Derived.Declarations
import Nominal.Proofs.Located
import Nominal.Proofs.Relexed

/-!
# A Parse Without Diagnostics Is Complete

The tree of a source about which nothing is reported is derived: each of its nodes follows the
rule of its kind. What a node must have is read off the rule.

A report is left out where the one before it was made at the same place. So silence has to be
told apart from reports that were left out: the first report of a run is always kept.

## Main definitions

* `Kind.parts`: What a node of a kind must have.
* `State.IsTold`: Where something was to be reported, something has been reported.

## Theorems

* `rule_of_mem_lex`: No token has the kind of a node.
* `isDerived_of_parse`: The tree of a source without mistakes is derived.
* `parse_complete`: It has no skipped tokens, its brackets are balanced, and no node lacks a
  part.
-/

namespace Nominal

namespace Syntax

/-- No token has the kind of a node. -/
theorem rule_of_mem_lex {source : String} {l : Lexeme} (hl : l ∈ lex source) :
    l.kind.rule = .never := by
  by_contra hrule
  have hgarbage : l.kind ≠ .garbage := fun h => hrule (h ▸ rfl)
  rcases matched_of_mem hl hgarbage with ⟨q, hrun, hkind⟩
  generalize l.kind = kind at hrule hkind
  have hspelling : ∀ k : Kind, k.rule ≠ .never → k.spelling? = none := by
    intro k
    cases k with
    | _ => first | exact fun _ => rfl | exact fun h => absurd rfl h
  cases q with
  | operator k =>
      -- An operator has a spelling, which no node has.
      have hspelled := Pattern.isSpelled_of_run hrun
      rw [Pattern.IsSpelled, Option.some.inj hkind, hspelling _ hrule] at hspelled
      cases hspelled
  | word =>
      rw [Pattern.kind?] at hkind
      rw [← Option.some.inj hkind] at hrule
      cases hreserved : Kind.reserved? l.text with
      | none =>
          rw [hreserved] at hrule
          exact hrule rfl
      | some k =>
          rw [hreserved] at hrule
          rcases Pattern.reserved_cases hreserved with rfl | ⟨_, htext⟩
          · exact hrule rfl
          · exact absurd (htext.symm.trans (hspelling _ hrule)) (Option.some_ne_none _)
  | _ =>
      cases hkind
      try exact hrule rfl

/-- What a node of a kind must have, from left to right. For each part the kinds are listed
    that will do. -/
def Kind.parts : Kind → List (List Kind)
  | .usingDirective | .namespaceDecl => [[.path]]
  | .typeDecl => [[.kwClass, .kwStruct], [.id], [.braceClose]]
  | .fieldDecl => [types, [.varDeclarator]]
  | .varDeclarator | .methodDecl | .constructorDecl | .propertyDecl => [[.id]]
  | .localDecl => [.kwVar :: types, [.varDeclarator], [.semicolon]]
  | .ifStmt => [expressions, statements]
  | .foreachStmt => [[.id], expressions, statements]
  | .binaryExpr | .assignExpr | .indexExpr => [expressions, expressions]
  | .conditionalExpr => [expressions, expressions, expressions]
  | .prefixExpr => [expressions]
  | .castExpr => [types, expressions]
  | .memberAccess => [expressions, [.id]]
  | .lambda => [.block :: expressions]
  | .anonMember | .memberInit => [expressions]
  | .objectCreation => [types]
  | _ => []

/-- The rule of a kind fills in all that a node of the kind must have. -/
theorem fill_parts (k : Kind) : k.rule.fill k.parts = [] := by
  cases k <;> decide

/-- No rule mentions rejected text. -/
theorem garbage_not_mem_rule (k : Kind) : .garbage ∉ k.rule.kinds := by
  cases k <;> decide

namespace Tree

theorem mem_leavesOf {l : Lexeme} {ts : List Tree} (h : l ∈ leavesOf ts) :
    ∃ t ∈ ts, l ∈ t.leaves := by
  induction ts with
  | nil => cases h
  | cons t ts ih =>
      rcases List.mem_append.mp h with h | h
      · exact ⟨t, List.mem_cons_self .., h⟩
      · rcases ih h with ⟨u, hu, hl⟩
        exact ⟨u, List.mem_cons_of_mem _ hu, hl⟩

namespace IsDerived

/-- Rejected text is no part of a derived tree, unless it is all of it. -/
theorem clean {t : Tree} (h : t.IsDerived) (ht : t.kind ≠ .garbage) :
    ∀ l ∈ t.leaves, l.kind ≠ .garbage := by
  induction h with
  | token l =>
      intro x hx
      rw [List.mem_singleton.mp hx]
      exact ht
  | @node kind children hword _ ih =>
      intro x hx
      rcases mem_leavesOf hx with ⟨c, hc, hx⟩
      refine ih c hc (fun hgarbage => ?_) x hx
      have hmem : c.kind ∈ word children := by
        refine List.mem_filter.mpr ⟨List.mem_map_of_mem hc, ?_⟩
        rw [hgarbage]
        rfl
      rw [hgarbage] at hmem
      exact garbage_not_mem_rule kind (Phrase.mem_kinds hword hmem)

/-- A derived node is none around skipped tokens and has all its parts. -/
theorem complete {kind : Kind} {children : List Tree} (h : IsDerived (.node kind children)) :
    kind ≠ .error ∧ Has kind.parts (word children) := by
  cases h with
  | node hword _ =>
      refine ⟨?_, ?_⟩
      · rintro rfl
        exact absurd hword (Language.notMem_zero _)
      · have hfill : Has (kind.rule.fill kind.parts) [] := by
          rw [fill_parts]
          exact .nil
        have hparts := hfill.fill hword
        rwa [List.append_nil] at hparts

/-- Every node of a derived tree is derived. -/
theorem of_mem_locationsAt {t : Tree} {above : List Node} {start index : Nat} {l : Location}
    (ht : t.IsDerived) (hl : l ∈ locationsAt above start index t) : l.node.tree.IsDerived := by
  refine holds_of_mem_locationsAt (fun kind children h => ?_) ht hl
  cases h with
  | node _ hchildren => exact hchildren

end IsDerived

end Tree

end Syntax

namespace Grammar

open Syntax (Kind Lexeme Tree Has openBrackets)

/-! ### Silence -/

/-- Where something was to be reported, something has been reported; and tokens are counted. -/
structure State.IsTold (s : State) : Prop where
  told : s.diagnostics = [] → s.reportedAt = none
  counted : s.fuel.isSome

theorem told_reportAt {s : State} (h : s.IsTold) (offset : Nat) (d : Diagnostic) :
    (s.reportAt offset d).IsTold := by
  unfold State.reportAt
  split
  · exact h
  · exact ⟨fun hnil => absurd hnil (List.append_ne_nil_of_right_ne_nil _ (List.cons_ne_nil d [])),
      h.counted⟩

theorem told_spend {s : State} (h : s.IsTold) : s.spend.IsTold := by
  unfold State.spend
  split
  · exact h
  · exact ⟨h.told, h.counted⟩
  · exact ⟨h.told, rfl⟩

/-- The first report of a run is kept. -/
theorem told_run {setting : Setting} {op : Op} {s t : State} {a : op.Answer}
    (h : op.run setting s = .ok a t) (hs : s.IsTold) : t.IsTold := by
  have hspend := told_spend hs
  cases acts_run h with
  | take => exact ⟨hspend.told, hspend.counted⟩
  | report | semicolonBehind | semicolonAhead | unclosed =>
      refine told_reportAt ?_ _ _
      exact ⟨hs.told, hs.counted⟩
  | _ => exact ⟨hs.told, hs.counted⟩

theorem relation_told (setting : Setting) : Relation setting fun s t => s.IsTold → t.IsTold where
  refl _ h := h
  trans hst htu h := htu (hst h)
  op _ _ _ _ h := told_run h
  group g s t h hs := by
    have ht : t.IsTold := h (by cases g <;> exact ⟨hs.told, hs.counted⟩)
    cases g <;> exact ⟨ht.told, ht.counted⟩

/-- A source about which nothing is reported has a reading, and its tree is what this collects. -/
theorem read_of_parse {source : String} {parsed : Parsed} (h : parse source = .ok parsed)
    (hsilent : parsed.diagnostics = []) :
    ∃ p, fileScript.read defaultLimits.depth
        (readProduction defaultLimits.depth (levels * ((Syntax.lex source).length + 1)))
        (State.initial defaultLimits (Syntax.lex source)).place = some ((), p) ∧
      parsed.tree = .node .root p.output := by
  rw [parse, parseWith, parseLexemes] at h
  split at h
  · next u t hrun =>
      rw [State.result] at h
      split at h
      · cases h
      · next hlost =>
          cases h
          have htold : t.IsTold := by
            refine (relation_told _).exec (fun hq => (relation_told _).runProduction hq) hrun ?_
            exact ⟨fun _ => rfl, rfl⟩
          have hclean : t.IsClean := ⟨hsilent, htold.told hsilent, hlost, htold.counted⟩
          have hread := (read_of_exec (read_of_runProduction _) _ _ _ _ hrun hclean).2
          exact ⟨t.place, hread, rfl⟩
  · cases h
  · cases h

/-- The tree of a source without mistakes is derived. -/
theorem isDerived_of_parse {source : String} {parsed : Parsed} (h : parse source = .ok parsed)
    (hsilent : parsed.diagnostics = []) :
    ∃ children, parsed.tree = .node .root children ∧
      (Syntax.Tree.node .root children).IsDerived := by
  rcases read_of_parse h hsilent with ⟨p, hread, htree⟩
  have hstart : (State.initial defaultLimits (Syntax.lex source)).place.Spells 1 0 .univ :=
    ⟨List.forall_mem_nil _, rfl, List.forall_mem_nil _, rfl, .inl rfl⟩
  have hspells := leads_fileScript _ _ _ _ _ hstart hread
  exact ⟨p.output, htree, .node hspells.word hspells.derived⟩

/-- A source about which nothing is reported has a tree without skipped tokens and rejected
    text, its brackets are balanced, and every node has its parts. -/
theorem parse_complete {source : String} {parsed : Parsed} (h : parse source = .ok parsed)
    (hsilent : parsed.diagnostics = []) :
    (∀ l ∈ parsed.tree.locations, l.node.kind ≠ .error) ∧
      (∀ l ∈ parsed.tree.leaves, l.kind ≠ .garbage) ∧
      openBrackets [] ((Syntax.lex source).map Lexeme.kind) = some [] ∧
      ∀ l ∈ parsed.tree.locations, Has l.node.kind.parts (Tree.word l.node.children) := by
  rcases isDerived_of_parse h hsilent with ⟨children, htree, hderived⟩
  have hleaves : parsed.tree.leaves = Syntax.lex source := leaves_parseLexemes h
  have hnodes : ∀ l ∈ parsed.tree.locations,
      l.node.kind ≠ .error ∧ Has l.node.kind.parts (Tree.word l.node.children) := by
    rw [htree]
    exact fun l hl => (Tree.IsDerived.of_mem_locationsAt hderived hl).complete
  refine ⟨fun l hl => (hnodes l hl).1, ?_, ?_, fun l hl => (hnodes l hl).2⟩
  · rw [htree]
    exact hderived.clean nofun
  · rw [← hleaves, htree]
    exact hderived.balanced.openBrackets_eq []

/-- Two classes with statements and expressions of many forms, in which nothing is missing. -/
theorem parse_complete_classes :
    ∃ source parsed, source =
        "class C { int M(int[] a) { foreach (var x in a) F(y => (int)y[0]); return 1; } } "
          ++ "class D { object P => a == null ? 1 : new { A = 2, a.Length }; }" ∧
      parse source = .ok parsed ∧ parsed.diagnostics = [] ∧
      (∀ l ∈ parsed.tree.locations, l.node.kind ≠ .error) ∧
      (∀ l ∈ parsed.tree.leaves, l.kind ≠ .garbage) ∧
      openBrackets [] ((Syntax.lex source).map Lexeme.kind) = some [] ∧
      ∀ l ∈ parsed.tree.locations, Has l.node.kind.parts (Tree.word l.node.children) := by
  generalize hsource :
    "class C { int M(int[] a) { foreach (var x in a) F(y => (int)y[0]); return 1; } } "
      ++ "class D { object P => a == null ? 1 : new { A = 2, a.Length }; }" = source
  have hsilent : ((parse source).toOption.any fun parsed => parsed.diagnostics.isEmpty) = true := by
    rw [← hsource]
    decide +kernel
  cases hparse : parse source with
  | error failure =>
      rw [hparse] at hsilent
      cases hsilent
  | ok parsed =>
      rw [hparse] at hsilent
      have hnil : parsed.diagnostics = [] := List.isEmpty_iff.mp hsilent
      exact ⟨source, parsed, rfl, hparse, hnil, parse_complete hparse hnil⟩

end Grammar

end Nominal
