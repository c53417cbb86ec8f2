import Nominal.Proofs.Contexts
import Nominal.Proofs.Reparsed.Planned
import Nominal.Proofs.Typed.Known

/-!
# What a File Declares After an Extraction

An extraction adds one declaration to a file, right behind the outermost type, so in the same
namespace and with the same using directives in effect. Nothing else of what a file declares
changes: creations that get a name are inside of types, and the types of a file and the namespaces
that they are in are a matter of their names.

The declaration is followed from the items that it is put among through the namespaces around them
up to the file.

## Main definitions

* `typeNames`: The names of the types among trees, each with its context.
* `Gains`: Trees among which there is one type more.

## Theorems

* `Gains.here`, `Gains.around`, `Gains.inside`: A type more among items is one more in the namespace
  around them.
* `gains_rebuilt`: A type more among trees is one more in the file.
* `Document.Extracts.gains`: The tree of an extraction has one type more than that of the document.
-/

namespace Nominal

open Syntax (Tree Kind Lexeme Location Node Linked rebuilt topOf_cons)
open Text (Span)
open Program (Part Item SourceFile TypeDecl)
open Nominal.Types (NameContext Namespace DeclaredTypes Registry typesOfItem typesOfItems
  typesInContext)

/-! ### Parts that stay -/

namespace Program.Part

theorem ofTrees_append (start : Nat) (ts us : List Tree) :
    ofTrees start (ts ++ us) = ofTrees start ts ++ ofTrees (start + Tree.widthOf ts) us := by
  induction ts generalizing start with
  | nil => rfl
  | cons t ts ih =>
      rw [List.cons_append, ofTrees, ih, ofTrees, Tree.widthOf, Nat.add_assoc, List.cons_append]

/-- The path that a part is. -/
def pathOf? : Part → Option (List String)
  | .path segments => some segments
  | _ => Option.none

/-- The namespace that a part makes known. -/
def usingOf? : Part → Option Namespace
  | .item (.usingDirective (some segments)) => some (NameContext.pathOf (some segments))
  | _ => Option.none

theorem path?_eq (ps : List Part) : path? ps = (ps.filterMap pathOf?).head? :=
  (List.head?_filterMap ..).symm

theorem usingsOf_items (ps : List Part) :
    NameContext.usingsOf (items ps) = ps.filterMap usingOf? := by
  rw [NameContext.usingsOf, items, List.filterMap_filterMap]
  congr 1
  funext p
  cases p with
  | item item =>
      cases item with
      | usingDirective segments => cases segments <;> rfl
      | _ => rfl
  | _ => rfl

end Program.Part

namespace Altered

variable {e : Edit} {ts us : List Tree}

/-- Unless a declaration is put among trees, the paths among them stay. -/
theorem filterMap_pathOf? (h : Altered e false ts us) (a b : Nat) :
    (Part.ofTrees b us).filterMap Part.pathOf? = (Part.ofTrees a ts).filterMap Part.pathOf? := by
  refine h.filterMap_ofTrees (fun kind cs ds a b hcs => ?_) (fun _ _ _ _ => rfl) a b
  cases kind with
  | path =>
      simp only [Part.ofTree, Part.assemble, Part.pathOf?, Part.names, Part.tokens_ofTrees,
        hcs.filterMap_leaf?]
  | _ => rfl

/-- So do the using directives. -/
theorem filterMap_usingOf? (h : Altered e false ts us) (a b : Nat) :
    (Part.ofTrees b us).filterMap Part.usingOf? = (Part.ofTrees a ts).filterMap Part.usingOf? := by
  refine h.filterMap_ofTrees (fun kind cs ds a b hcs => ?_) (fun _ _ _ _ => rfl) a b
  cases kind with
  | usingDirective =>
      simp only [Part.ofTree, Part.assemble, Part.path?_eq, hcs.filterMap_pathOf? a b]
  | _ => rfl

/-- So does the name. -/
theorem name?_eq (h : Altered e false ts us) (a b : Nat) :
    Part.name? (Part.ofTrees b us) = Part.name? (Part.ofTrees a ts) := by
  rw [Part.name?, Part.token?, Part.tokens_ofTrees, h.filterMap_leaf?, Part.name?, Part.token?,
    Part.tokens_ofTrees]

end Altered

/-- Trees are altered in no way, to compare them at two offsets. -/
theorem unaltered (ts : List Tree) : Altered ⟨"", [], default⟩ false ts ts := .refl _ _ ts

/-! ### Names of types among trees -/

/-- The context inside a namespace, from its children. -/
def Types.NameContext.within (c : NameContext) (start : Nat) (children : List Tree) : NameContext :=
  c.enter (Part.path? (Part.ofTrees start children)) (Part.items (Part.ofTrees start children))

theorem Types.NameContext.within_congr {c : NameContext} {ts us : List Tree} {a b : Nat}
    (hpath : Part.path? (Part.ofTrees b us) = Part.path? (Part.ofTrees a ts))
    (husings : NameContext.usingsOf (Part.items (Part.ofTrees b us))
      = NameContext.usingsOf (Part.items (Part.ofTrees a ts))) : c.within b us = c.within a ts := by
  rw [within, within, NameContext.enter, NameContext.enter, hpath, husings]

/-- It does not depend on where the namespace stands. -/
theorem Types.NameContext.within_offset (c : NameContext) (a b : Nat) (ts : List Tree) :
    c.within a ts = c.within b ts := by
  refine within_congr ?_ ?_
  · rw [Part.path?_eq, Part.path?_eq, (unaltered ts).filterMap_pathOf? b a]
  · rw [Part.usingsOf_items, Part.usingsOf_items, (unaltered ts).filterMap_usingOf? b a]

/-- The names of the types among trees that start at an offset, each with its context. -/
def typeNames (c : NameContext) (start : Nat) (ts : List Tree) :
    List (Option String × NameContext) :=
  (typesOfItems c (Part.items (Part.ofTrees start ts))).map fun x => (x.1.name, x.2)

theorem typeNames_append (c : NameContext) (start : Nat) (ts us : List Tree) :
    typeNames c start (ts ++ us)
      = typeNames c start ts ++ typeNames c (start + Tree.widthOf ts) us := by
  have hitems : ∀ ps qs : List Part, Part.items (ps ++ qs) = Part.items ps ++ Part.items qs :=
    fun _ _ => List.filterMap_append
  rw [typeNames, Part.ofTrees_append, hitems, typesOfItems_append, List.map_append]
  rfl

theorem typeNames_token (c : NameContext) (start : Nat) (l : Lexeme) :
    typeNames c start [.token l] = [] := rfl

theorem typeNames_tokens (c : NameContext) (start : Nat) (ls : List Lexeme) :
    typeNames c start (ls.map .token) = [] := by
  induction ls generalizing start with
  | nil => rfl
  | cons l ls ih =>
      rw [List.map_cons, ← List.singleton_append, typeNames_append, typeNames_token, ih,
        List.append_nil]

theorem typeNames_typeDecl (c : NameContext) (start : Nat) (children : List Tree) :
    typeNames c start [.node .typeDecl children]
      = [(Part.name? (Part.ofTrees start children), c)] := rfl

theorem typeNames_namespaceDecl (c : NameContext) (start : Nat) (children : List Tree) :
    typeNames c start [.node .namespaceDecl children]
      = typeNames (c.within start children) start children := by
  change (typesOfItems _ _ ++ typesOfItems c []).map _ = _
  rw [typesOfItems, List.append_nil]
  rfl

theorem typeNames_other {kind : Kind} (hkind : kind ≠ .typeDecl) (hspace : kind ≠ .namespaceDecl)
    (c : NameContext) (start : Nat) (children : List Tree) :
    typeNames c start [.node kind children] = [] := by
  revert hkind hspace
  cases kind with
  | typeDecl => exact fun h => absurd rfl h
  | namespaceDecl => exact fun _ h => absurd rfl h
  | _ => exact fun _ _ => rfl

mutual

/-- Names and contexts of types do not depend on where the trees stand. -/
theorem typeNames_single (c : NameContext) (a b : Nat) (t : Tree) :
    typeNames c a [t] = typeNames c b [t] := by
  cases t with
  | token l => rfl
  | node kind children =>
      by_cases htype : kind = .typeDecl
      · subst htype
        rw [typeNames_typeDecl, typeNames_typeDecl, (unaltered children).name?_eq b a]
      · by_cases hspace : kind = .namespaceDecl
        · subst hspace
          rw [typeNames_namespaceDecl, typeNames_namespaceDecl, typeNames_offset _ a b children,
            NameContext.within_offset c a b children]
        · rw [typeNames_other htype hspace, typeNames_other htype hspace]

theorem typeNames_offset (c : NameContext) (a b : Nat) (ts : List Tree) :
    typeNames c a ts = typeNames c b ts := by
  cases ts with
  | nil => rfl
  | cons t ts =>
      rw [← List.singleton_append, typeNames_append, typeNames_append, typeNames_single c a b t,
        typeNames_offset c (a + Tree.widthOf [t]) (b + Tree.widthOf [t]) ts]

end

/-! ### A type more -/

namespace Program.Part

/-- What is picked from the parts of trees. -/
def picked {γ : Type} (pick : Part → Option γ) (ts : List Tree) : List γ :=
  (ofTrees 0 ts).filterMap pick

/-- It does not matter for a way to pick parts where the trees stand. -/
def IsPlaceless {γ : Type} (pick : Part → Option γ) : Prop :=
  ∀ (ts : List Tree) (a : Nat), (ofTrees a ts).filterMap pick = picked pick ts

theorem isPlaceless_pathOf? : IsPlaceless pathOf? :=
  fun ts a => (unaltered ts).filterMap_pathOf? 0 a

theorem isPlaceless_usingOf? : IsPlaceless usingOf? :=
  fun ts a => (unaltered ts).filterMap_usingOf? 0 a

theorem IsPlaceless.append {γ : Type} {pick : Part → Option γ} (h : IsPlaceless pick)
    (ts us : List Tree) : picked pick (ts ++ us) = picked pick ts ++ picked pick us := by
  rw [picked, ofTrees_append, List.filterMap_append, h us]
  rfl

end Program.Part

open Program.Part (picked pathOf? usingOf? isPlaceless_pathOf? isPlaceless_usingOf?)

/-- Trees among which there is one type more, behind one in the same context. -/
structure Gains (name : String) (home : NameContext) (c : NameContext) (ts us : List Tree) :
    Prop where
  path : picked pathOf? us = picked pathOf? ts
  usings : picked usingOf? us = picked usingOf? ts
  names : ∃ front back known, typeNames c 0 ts = front ++ (some known, home) :: back ∧
    typeNames c 0 us = front ++ (some known, home) :: (some name, home) :: back

namespace Gains

variable {name : String} {home c : NameContext} {ts us : List Tree}

theorem mem_typeNames_iff (h : Gains name home c ts us) {x : Option String × NameContext} :
    x ∈ typeNames c 0 us ↔ x ∈ typeNames c 0 ts ∨ x = (some name, home) := by
  rcases h.names with ⟨front, back, known, hts, hus⟩
  rw [hts, hus]
  simp only [List.mem_append, List.mem_cons, or_assoc]
  rw [or_comm (a := x ∈ back)]

theorem exists_known (h : Gains name home c ts us) :
    ∃ known, (some known, home) ∈ typeNames c 0 ts := by
  rcases h.names with ⟨front, back, known, hts, _⟩
  exact ⟨known, hts ▸ List.mem_append_right _ List.mem_cons_self⟩

/-- What stands beside trees stays. -/
theorem around (h : Gains name home c ts us) (front back : List Tree) :
    Gains name home c (front ++ ts ++ back) (front ++ us ++ back) := by
  rcases h with ⟨hpath, husings, before, behind, known, hts, hus⟩
  refine ⟨?_, ?_, typeNames c 0 front ++ before, behind ++ typeNames c 0 back, known, ?_, ?_⟩
  · simp only [isPlaceless_pathOf?.append, hpath]
  · simp only [isPlaceless_usingOf?.append, husings]
  · rw [typeNames_append, typeNames_append, typeNames_offset c _ 0 ts, typeNames_offset c _ 0 back,
      hts]
    simp only [List.append_assoc, List.cons_append]
  · rw [typeNames_append, typeNames_append, typeNames_offset c _ 0 us, typeNames_offset c _ 0 back,
      hus]
    simp only [List.append_assoc, List.cons_append]

/-- The context inside is the same as before. -/
theorem within_eq (h : Gains name home c ts us) (c' : NameContext) (a b : Nat) :
    c'.within b us = c'.within a ts := by
  refine NameContext.within_congr ?_ ?_
  · rw [Part.path?_eq, Part.path?_eq, isPlaceless_pathOf?, isPlaceless_pathOf?, h.path]
  · rw [Part.usingsOf_items, Part.usingsOf_items, isPlaceless_usingOf?, isPlaceless_usingOf?,
      h.usings]

/-- A type more in a namespace is one more among the items that the namespace is one of. -/
theorem inside {n : Nat} (h : Gains name home (c.within n ts) ts us) :
    Gains name home c [.node .namespaceDecl ts] [.node .namespaceDecl us] := by
  rcases h.names with ⟨front, back, known, hts, hus⟩
  refine ⟨rfl, rfl, front, back, known, ?_, ?_⟩
  · rw [typeNames_namespaceDecl, ← hts, NameContext.within_offset c 0 n]
  · rw [typeNames_namespaceDecl, h.within_eq c n 0, hus]

/-- A declaration behind a type is one more in the same context. -/
theorem here (hleaves : us.filterMap Tree.leaf? = ts.filterMap Tree.leaf?) {known : String}
    (hknown : Part.name? (Part.ofTrees 0 ts) = some known) (separator : List Lexeme)
    {children : List Tree} (hname : Part.name? (Part.ofTrees 0 children) = some name) :
    Gains name c c [.node .typeDecl ts]
      (.node .typeDecl us :: (separator.map .token ++ [.node .typeDecl children])) := by
  have hpicked : ∀ {γ : Type} (pick : Part → Option γ), Part.IsPlaceless pick →
      (∀ l, pick (.token l) = none) → (∀ d, pick (.typeDecl d) = none) →
      picked pick (.node .typeDecl us :: (separator.map .token ++ [.node .typeDecl children]))
        = picked pick [.node .typeDecl ts] := by
    intro γ pick hpick htoken htype
    have htokens : ∀ ls : List Lexeme, picked pick (ls.map .token) = [] := by
      intro ls
      induction ls with
      | nil => rfl
      | cons l ls ih =>
          rw [List.map_cons, ← List.singleton_append, hpick.append, ih, List.append_nil]
          exact List.filterMap_cons_none (htoken l)
    have hnode : ∀ cs, picked pick [.node .typeDecl cs] = [] := fun cs =>
      List.filterMap_cons_none (htype _)
    rw [← List.singleton_append, hpick.append, hpick.append, htokens, hnode, hnode, hnode]
    rfl
  have hsame : ∀ a b, Part.name? (Part.ofTrees b us) = Part.name? (Part.ofTrees a ts) := by
    intro a b
    rw [Part.name?, Part.token?, Part.tokens_ofTrees, hleaves, Part.name?, Part.token?,
      Part.tokens_ofTrees]
  refine ⟨hpicked _ isPlaceless_pathOf? (fun _ => rfl) fun _ => rfl,
    hpicked _ isPlaceless_usingOf? (fun _ => rfl) fun _ => rfl, [], [], known, ?_, ?_⟩
  · rw [typeNames_typeDecl, hknown]
    rfl
  · rw [← List.singleton_append, typeNames_append, typeNames_append, typeNames_tokens,
      typeNames_offset c _ 0 [.node .typeDecl children], typeNames_typeDecl, typeNames_typeDecl,
      hsame 0 0, hknown, hname]
    rfl

end Gains

/-- A type more among trees is one more in the file. -/
theorem gains_rebuilt {name : String} {home : NameContext} {n : Node} {above : List Node}
    (h : Linked n above) (habove : above ≠ [])
    (hspaces : ∀ m ∈ above.dropLast, m.kind = .namespaceDecl)
    (hroot : (topOf ⟨n, above⟩).node.kind = .root) {new : List Tree}
    (hnew : Gains name home (NameContext.ofLocation ⟨n, above⟩) [n.tree] new) :
    ∃ us, rebuilt new n above = .node .root us ∧
      Gains name home
        (NameContext.ofFile (Part.items (Part.ofTrees 0 (topOf ⟨n, above⟩).node.children)))
        (topOf ⟨n, above⟩).node.children us := by
  induction above generalizing n new with
  | nil => exact absurd rfl habove
  | cons parent above ih =>
      have hwhole : parent.children = parent.children.take n.index ++ [n.tree]
          ++ parent.children.drop (n.index + 1) := by
        rcases List.getElem?_eq_some_iff.mp h.child with ⟨hlt, hat⟩
        rw [← hat, List.append_assoc, List.singleton_append, List.getElem_cons_drop,
          List.take_append_drop]
      have hchildren := hnew.around (parent.children.take n.index)
        (parent.children.drop (n.index + 1))
      rw [← hwhole, ofLocation_below] at hchildren
      rw [topOf_cons] at hroot ⊢
      cases above with
      | nil =>
          have hkind : parent.kind = .root := hroot
          have hcontext : (NameContext.ofLocation ⟨parent, []⟩).enterNode parent
              = NameContext.ofFile (Part.items (Part.ofTrees 0 parent.children)) := by
            rw [NameContext.enterNode, Node.tree, hkind]
            change NameContext.ofFile (Part.items (Part.ofTrees parent.start parent.children)) = _
            rw [NameContext.ofFile, NameContext.ofFile, Part.usingsOf_items, Part.usingsOf_items,
              isPlaceless_usingOf?, isPlaceless_usingOf?]
          rw [hcontext] at hchildren
          refine ⟨_, ?_, hchildren⟩
          rw [← hkind]
          rfl
      | cons next above =>
          rw [List.dropLast_cons_cons, List.forall_mem_cons] at hspaces
          have hcontext : ∀ c : NameContext, c.enterNode parent
              = c.within parent.start parent.children := by
            intro c
            rw [NameContext.enterNode, Node.tree, hspaces.1]
            rfl
          rw [hcontext] at hchildren
          have hparent : Gains name home (NameContext.ofLocation ⟨parent, next :: above⟩)
              [parent.tree] [parent.spliced n.index new] := by
            rw [Node.tree, Node.spliced, hspaces.1]
            exact hchildren.inside
          rw [rebuilt]
          exact ih h.above (List.cons_ne_nil _ _) hspaces.2 hroot hparent

/-! ### Extractions -/

/-- The name of a node is the first identifier among its tokens. -/
theorem name?_eq_token? (n : Node) :
    Part.name? (Part.ofTrees n.start n.children) = (n.token? .id).map fun t => t.1.text := by
  have hfst : ∀ (start : Nat) (ts : List Tree),
      (Tree.tokensAt start ts).map Prod.fst = ts.filterMap Tree.leaf? := by
    intro start ts
    induction ts generalizing start with
    | nil => rfl
    | cons t ts ih =>
        cases t with
        | token l => exact congrArg (l :: ·) (ih _)
        | node kind children => exact ih _
  rw [Part.name?, Part.token?, Part.tokens_ofTrees, ← hfst n.start, List.find?_map, Option.map_map]
  rfl

/-- The tree of an extraction has one type more than the one before: it has the name of the plan, and
    it is in the context of the type around. -/
theorem Document.Extracts.gains {source : String} {d : Document} {anchor : Site} {p : Plan}
    {e : Extraction} (hd : Document.parse source = .ok d) (h : d.Extracts anchor p e) :
    ∃ children us, d.tree = .node .root children ∧ e.tree = .node .root us ∧
      Gains p.newName p.scope.context (NameContext.ofFile (Part.items (Part.ofTrees 0 children)))
        children us := by
  rcases Document.parse_eq_ok hd with ⟨_, _, hconforms, _, parsed, hparsed, htree, _⟩
  rcases Grammar.kind_parseLexemes hparsed with ⟨children, hroot⟩
  rw [← htree] at hroot
  rcases h with ⟨hsite, ⟨request, hplan⟩, ⟨isCancelled, happly⟩⟩
  have hplanned := Model.planAt_eq_ok hplan
  rcases Plan.apply_eq_ok happly with ⟨habove, objects, hobjects, hedited, _⟩
  have hrenamed := (Model.nameObjects_eq_ok hobjects).2.1
  rcases Model.scopeOf_eq_ok hplanned.1 with ⟨hcontainer, hdeclared, _⟩
  rcases hplanned.2.2.2.2.2.2 with ⟨forms, _, hdeclaration⟩
  have hkind := (Syntax.outermost?_eq_some hcontainer).2
  rcases linked_container (Model.mem_locations_of_mem_sites hsite) hcontainer with ⟨hlinked, htop⟩
  have hspaces := namespaces_above hlinked (htop ▸ hconforms) (.inl hkind)
    (Syntax.outermost?_above hcontainer)
  have hseparator : p.separator = ([⟨.newline, p.layout.lineBreak⟩, ⟨.newline, p.layout.lineBreak⟩]
      ++ (if p.layout.baseIndent.isEmpty then [] else [⟨.whitespace, p.layout.baseIndent⟩]) :
        List Lexeme).map Tree.token := by
    rw [Plan.separator, blanks]
    split
    · rfl
    · rfl
  rw [declaredName?, if_pos hkind, ← name?_eq_token?] at hdeclared
  rw [Scope.context]
  generalize p.scope.container = container at *
  have hknown : Part.name? (Part.ofTrees 0 container.node.children)
      = some p.scope.containerName := by
    rw [← hdeclared, Part.name?, Part.token?, Part.tokens_ofTrees, Part.name?, Part.token?,
      Part.tokens_ofTrees]
  have hnew : Gains p.newName (NameContext.ofLocation container) (NameContext.ofLocation container)
      [container.node.tree] (objects.tree :: p.separator ++ [p.declaration]) := by
    rw [hrenamed, Node.tree, hkind, nameCreations,
      if_neg (fun hmeant => absurd hmeant.1 (by decide)),
      hseparator, hdeclaration, List.cons_append, ClassForm.tree]
    exact .here (leaves_nameCreationsOf _ _ _ _) hknown _ rfl
  rw [hroot] at htop
  have hrootKind : (topOf container).node.kind = .root := (Syntax.Tree.node.inj htop).1
  rcases gains_rebuilt hlinked habove hspaces hrootKind hnew with ⟨us, hus, hgains⟩
  rw [show (topOf container).node.children = children from (Syntax.Tree.node.inj htop).2] at hgains
  refine ⟨children, us, hroot, ?_, hgains⟩
  rw [hedited, ← hus]
  exact Syntax.replaceAt_eq_rebuilt hlinked habove _

end Nominal
