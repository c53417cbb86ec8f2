import Nominal.Proofs.Derived.Complete
import Nominal.Proofs.Layout.Squeezed
import Nominal.Proofs.Preview
import Nominal.Proofs.Tight.Productions

/-!
# Spans Without Trivia Around Them

The nodes of a source without mistakes start and end with a token, and so do their spans. The
parameters of a method are the one exception. What stands between its name and them belongs to
them, also where it is a comment.

All spans that an extraction goes by are those of nodes: the span in which an offset means a site,
the spans of the creations that get a name, and that of the type which the declaration is put
behind. None of them takes in blanks, line breaks or comments around the node.

## Main definitions

* `Lexeme.Hugs`: A span of a text starts in front of a token and stops behind one.

## Theorems

* `hugs_of_mem_locations`: A node that starts and ends with a token has such a span.
* `nodes_tight`: Nodes have such spans in a source without mistakes, and so do the places that an
  extraction goes by.
-/

namespace Nominal

open Syntax (Tree Kind Lexeme Location)
open Text (Span)

namespace Syntax

/-- A span of some lexemes that starts in front of a token and stops behind one. -/
def Lexeme.Hugs (ls : List Lexeme) (span : Span) : Prop :=
  ∃ before inside behind, ls = before ++ inside ++ behind
    ∧ span = Span.ofWidth (widthOf before) (widthOf inside)
    ∧ (∃ l, inside.head? = some l ∧ l.isTrivia = false)
    ∧ ∃ l, inside.getLast? = some l ∧ l.isTrivia = false

/-- The span of a node hugs its leaves. -/
theorem hugs_of_mem_locations {t : Tree} {l : Location} (hl : l ∈ t.locations)
    (hstarts : Tree.StartsWithToken l.node.children) (hends : Tree.EndsWithToken l.node.children) :
    Lexeme.Hugs t.leaves l.span := by
  rcases Tree.split_of_mem_locationsAt hl with ⟨before, behind, hleaves, hstart⟩
  refine ⟨before, Tree.leavesOf l.node.children, behind, hleaves, ?_, hstarts, hends⟩
  rw [Nat.zero_add] at hstart
  rw [← hstart, ← Tree.widthOf_eq]
  rfl

/-- The nodes of a tight tree are tight. -/
theorem Tree.IsTight.of_mem_locationsOf {ts : List Tree} (hts : ∀ t ∈ ts, t.IsTight)
    {above : List Node} {start index : Nat} {l : Location}
    (hl : l ∈ locationsOf above start index ts) : l.node.tree.IsTight := by
  refine holds_of_mem_locationsOf (fun kind children h => ?_) hts hl
  cases h with
  | node _ _ hchildren => exact hchildren

end Syntax

/-! ### Where an extraction looks -/

namespace Model

variable {m : Model} {t : Tree}

/-- The variable that makes a creation known is right above it. -/
theorem declaratorOf?_eq_some {l declarator : Location} {type : Types.TypeId}
    (h : m.declaratorOf? l type = some declarator) :
    declarator.node.kind = .varDeclarator ∧ declarator.lineage <:+ l.lineage := by
  rw [declaratorOf?] at h
  split at h
  · next parent statement above habove =>
      simp only at h
      split at h
      · next hdeclares =>
          cases h
          refine ⟨hdeclares.1, [l.node], ?_⟩
          rw [Location.lineage_eq, Location.lineage_eq, habove]
          rfl
      · cases h
  · cases h

/-- The span in which an offset means a site is that of a node, of a creation or a variable. -/
theorem covering_of_mem_sites {s : Site} (h : s ∈ m.sites t) :
    ∃ l ∈ t.locations, s.covering = l.span
      ∧ (l.node.kind = .anonObjectCreation ∨ l.node.kind = .varDeclarator) := by
  rcases List.mem_filterMap.mp h with ⟨l, hl, hsite⟩
  rw [siteOf?] at hsite
  split at hsite
  · next hkind =>
      split at hsite
      · next type _ =>
          split at hsite
          · cases hsite
            cases hdeclarator : m.declaratorOf? l type with
            | none => exact ⟨l, hl, rfl, .inl hkind⟩
            | some declarator =>
                rcases declaratorOf?_eq_some hdeclarator with ⟨hvariable, hsuffix⟩
                exact ⟨declarator, Syntax.mem_locations_of_suffix hl hsuffix, rfl, .inr hvariable⟩
          · cases hsite
      · cases hsite
  · cases hsite

/-- What gets a name is a creation of the tree. -/
theorem named_of_apply {anchor : Site} {request : Request} {p : Plan} {isCancelled : Bool}
    {e : Extraction} (hanchor : anchor ∈ m.sites t) (hplan : m.planAt t anchor request = .ok p)
    (h : p.apply m isCancelled = .ok e) {span : Span} (hspan : span ∈ e.named) :
    ∃ l ∈ t.locations, span = l.span ∧ l.node.kind = .anonObjectCreation := by
  rcases Plan.apply_eq_ok h with ⟨_, objects, hobjects, _, _, hnamed, _⟩
  rcases nameObjects_eq_ok hobjects with ⟨_, _, hsites⟩
  have hcontainer := (scopeOf_eq_ok (planAt_eq_ok hplan).1).1
  have hinside := Syntax.filter_isWithin (Syntax.mem_locations_of_suffix
    (mem_locations_of_mem_sites hanchor) (Syntax.outermost?_eq_some hcontainer).1)
  rw [hnamed, hsites, ← hinside, List.mem_map] at hspan
  rcases hspan with ⟨l, hl, rfl⟩
  rcases List.mem_filter.mp hl with ⟨hwithin, hcreates⟩
  rw [creates, Bool.and_eq_true, beq_iff_eq] at hcreates
  exact ⟨l, List.mem_of_mem_filter hwithin, rfl, hcreates.1⟩

end Model

namespace Grammar

open Syntax.Tree (StartsWithToken EndsWithToken)

/-- The nodes of a source about which nothing is reported start and end with a token, and so do
    their spans, apart from the whole and from the parameters of methods. So trivia around a node
    is no part of the span in which an offset means a site, nor of the outermost type that a new
    one is put behind, nor of what gets a name. -/
theorem nodes_tight {source : String} {parsed : Parsed} (h : parse source = .ok parsed)
    (hsilent : parsed.diagnostics = []) :
    (∀ l ∈ parsed.tree.locations, l.node.kind ≠ .root → l.node.kind ≠ .paramList →
      StartsWithToken l.node.children ∧ EndsWithToken l.node.children
        ∧ Lexeme.Hugs (Syntax.lex source) l.span)
    ∧ ∀ m : Model,
      (∀ s ∈ m.sites parsed.tree, Lexeme.Hugs (Syntax.lex source) s.covering)
      ∧ ∀ anchor ∈ m.sites parsed.tree, ∀ request p,
        m.planAt parsed.tree anchor request = .ok p →
          Lexeme.Hugs (Syntax.lex source) p.scope.container.span
          ∧ ∀ isCancelled e, p.apply m isCancelled = .ok e →
            ∀ span ∈ e.named, Lexeme.Hugs (Syntax.lex source) span := by
  rcases read_of_parse h hsilent with ⟨p, hread, htree⟩
  have hstart : (State.initial defaultLimits (Syntax.lex source)).place.Tidy false false false :=
    ⟨List.forall_mem_nil _, (absurd · Bool.false_ne_true), .inr ⟨rfl, rfl⟩,
      (absurd · Bool.false_ne_true)⟩
  have htight := tight_of_read hstart hread
  have hleaves : parsed.tree.leaves = Syntax.lex source := leaves_parseLexemes h
  have hnodes : ∀ l ∈ parsed.tree.locations, l.node.kind ≠ .root → l.node.kind ≠ .paramList →
      StartsWithToken l.node.children ∧ EndsWithToken l.node.children
        ∧ Lexeme.Hugs (Syntax.lex source) l.span := by
    intro l hl hroot hparams
    have hbelow := hl
    rw [htree, Tree.locations, Tree.locationsAt, List.mem_cons] at hbelow
    rcases hbelow with rfl | hbelow
    · exact absurd rfl hroot
    · cases Tree.IsTight.of_mem_locationsOf htight hbelow with
      | node hstarts hends _ =>
          have hhugs := Syntax.hugs_of_mem_locations hl (hstarts hparams) hends
          exact ⟨hstarts hparams, hends, hleaves ▸ hhugs⟩
  have hspan : ∀ l ∈ parsed.tree.locations, ∀ kind, l.node.kind = kind → kind ≠ .root →
      kind ≠ .paramList → Lexeme.Hugs (Syntax.lex source) l.span := by
    rintro l hl _ rfl hroot hparams
    exact (hnodes l hl hroot hparams).2.2
  refine ⟨hnodes, fun m => ⟨fun s hs => ?_, fun anchor hanchor request p hplan => ⟨?_, ?_⟩⟩⟩
  · rcases Model.covering_of_mem_sites hs with ⟨l, hl, hcovering, hkind | hkind⟩
    · exact hcovering ▸ hspan l hl _ hkind (by decide) (by decide)
    · exact hcovering ▸ hspan l hl _ hkind (by decide) (by decide)
  · have hcontainer := (Model.scopeOf_eq_ok (Model.planAt_eq_ok hplan).1).1
    rcases Syntax.outermost?_eq_some hcontainer with ⟨hsuffix, hkind⟩
    have hmem := Syntax.mem_locations_of_suffix (Model.mem_locations_of_mem_sites hanchor) hsuffix
    exact hspan _ hmem _ hkind (by decide) (by decide)
  · intro isCancelled e he span hmem
    rcases Model.named_of_apply hanchor hplan he hmem with ⟨l, hl, rfl, hkind⟩
    exact hspan l hl _ hkind (by decide) (by decide)

/-- A class with comments around its nodes. The parameters of its method start with a blank. -/
theorem nodes_tight_comments :
    ∃ source parsed, source = "/* a */ class C \x7b // b\n  void M (int n) \x7b /* c */ var x = "
        ++ "/* d */ new \x7b A = n /* e */ \x7d /* f */ ; \x7d /* g */ \x7d // h"
      ∧ parse source = .ok parsed ∧ parsed.diagnostics = []
      ∧ (∃ l ∈ parsed.tree.locations, l.node.kind = .paramList
        ∧ (Tree.leavesOf l.node.children).head?.any Lexeme.isTrivia = true)
      ∧ (∀ l ∈ parsed.tree.locations, l.node.kind ≠ .root → l.node.kind ≠ .paramList →
        StartsWithToken l.node.children ∧ EndsWithToken l.node.children
          ∧ Lexeme.Hugs (Syntax.lex source) l.span)
      ∧ ∀ m : Model,
        (∀ s ∈ m.sites parsed.tree, Lexeme.Hugs (Syntax.lex source) s.covering)
        ∧ ∀ anchor ∈ m.sites parsed.tree, ∀ request p,
          m.planAt parsed.tree anchor request = .ok p →
            Lexeme.Hugs (Syntax.lex source) p.scope.container.span
            ∧ ∀ isCancelled e, p.apply m isCancelled = .ok e →
              ∀ span ∈ e.named, Lexeme.Hugs (Syntax.lex source) span := by
  generalize hsource : "/* a */ class C \x7b // b\n  void M (int n) \x7b /* c */ var x = "
    ++ "/* d */ new \x7b A = n /* e */ \x7d /* f */ ; \x7d /* g */ \x7d // h" = source
  have hcheck : ((parse source).toOption.any fun parsed => parsed.diagnostics.isEmpty
      && parsed.tree.locations.any fun l => l.node.kind == .paramList
        && (Tree.leavesOf l.node.children).head?.any Lexeme.isTrivia) = true := by
    rw [← hsource]
    decide +kernel
  cases hparse : parse source with
  | error failure =>
      rw [hparse] at hcheck
      cases hcheck
  | ok parsed =>
      rw [hparse] at hcheck
      simp only [Except.toOption, Option.any_some, Bool.and_eq_true, List.any_eq_true,
        beq_iff_eq] at hcheck
      have hsilent : parsed.diagnostics = [] := List.isEmpty_iff.mp hcheck.1
      exact ⟨source, parsed, rfl, hparse, hsilent, hcheck.2, nodes_tight hparse hsilent⟩

end Grammar

end Nominal
