import Mathlib.Data.List.Basic
import Nominal.Document
import Nominal.Proofs.Conformity.Declarations
import Nominal.Proofs.Lossless
import Nominal.Proofs.Naming

/-!
# What an Extraction Does to the Text

An extraction changes the tree in two places: the creations of the type inside the
container get a name, and behind the container comes the declaration. Both only ever put
something in, so the new text is the old one with insertions.

A plan that succeeds says what each of its steps gave. The lemmas that take a success apart
say all of it once, so that no proof about extractions has to open the steps themselves.

## Main definitions

* `Document.Extracts`: An extraction that starts from a site of a document.

## Theorems

* `Model.planAt_eq_ok`, `Plan.apply_eq_ok`: What a success says about the steps.
* `leaves_around`: Replacing a node keeps the leaves before it and behind it.
* `Document.Extracts.of_extract`, `Document.Extracts.of_extractAt`: Every way to ask for an
  extraction starts from a site.
* `extracts_inserts`: The text of an extraction is the text of the document with insertions.
-/

namespace Nominal

open Syntax (Tree Kind Lexeme Location Node Linked rebuilt)
open Text (Span Insertion Inserted)
open Nominal.Types (TypeId)

/-! ### Successes taken apart -/

namespace Model

variable {m : Model} {t : Tree} {anchor : Site} {request : Request} {p : Plan}

/-- A scope is the one of the outermost declared type around, which has a name. -/
theorem scopeOf_eq_ok {l : Location} {scope : Scope} (h : m.scopeOf l = .ok scope) :
    l.outermost? .typeDecl = some scope.container
      ∧ declaredName? scope.container = some scope.containerName
      ∧ scope.home = (Types.NameContext.ofLocation scope.container).home
      ∧ m.isScattered scope.home scope.containerName = false
      ∧ scope.existing = m.declared.namesIn scope.home
      ∧ scope.reserved = m.reservedNames scope.container := by
  rw [scopeOf] at h
  split at h
  · cases h
  · next container hcontainer =>
      split at h
      · cases h
      · next name hname =>
          simp only at h
          split at h
          · cases h
          · next hscattered =>
              cases h
              exact ⟨hcontainer, hname, rfl, by simpa using hscattered, rfl, rfl⟩

/-- What each step of a plan that succeeds gave. -/
theorem planAt_eq_ok (h : m.planAt t anchor request = .ok p) :
    m.scopeOf anchor.location = .ok p.scope
      ∧ p.target = anchor.type
      ∧ p.sites = m.sitesWithin t anchor.type p.scope.container
      ∧ dataMembers m.isStructural (m.members anchor.type) = .ok p.members
      ∧ allocate (request.naming.base p.sites)
          (p.scope.taken ++ p.members.map Types.Field.name) = .ok p.newName
      ∧ p.layout = (Layout.at? t.text p.scope.container.node.start).getD Layout.plain
      ∧ ∃ forms, m.memberForms p.scope p.newName p.members = .ok forms
          ∧ p.declaration
            = ClassForm.tree ⟨p.newName, forms, request.style, request.indent⟩ p.layout := by
  simp only [planAt, bind, Except.bind] at h
  split at h
  · cases h
  · split at h
    · cases h
    · next scope hscope =>
        split at h
        · cases h
        · next members hmembers =>
            split at h
            · cases h
            · next newName hname =>
                split at h
                · cases h
                · next forms hforms =>
                    cases h
                    exact ⟨hscope, rfl, rfl, hmembers, hname, rfl, forms, hforms, rfl⟩

/-- A creation is meant to get a name if it creates an object of the type. -/
theorem isNamed_eq_creates (m : Model) (target : TypeId) :
    isNamed (fun span => m.typeAt? ⟨.anonObjectCreation, span⟩ == some target) = m.creates target := by
  funext s
  rw [isNamed, creates, typeOf?]
  cases hkind : s.node.kind == .anonObjectCreation with
  | false => rfl
  | true => rw [eq_of_beq hkind]

/-- Naming comes by the objects of the type in the order of the text, and fails if one of them
    is created inside a lambda. -/
theorem nameObjects_eq (l : Location) (target : TypeId) (name : String) :
    m.nameObjects l target name
      = if ((l :: locationsBelow l).filter (m.creates target)).any fun s => s.isUnder .lambda then
          .error .insideLambda
        else .ok ⟨nameCreations (fun span => m.typeAt? ⟨.anonObjectCreation, span⟩ == some target)
          name l.node.start l.node.tree,
          ((l :: locationsBelow l).filter (m.creates target)).map Location.span⟩ := by
  rw [nameObjects, nameObjectsAt_eq _ name l.node.start l.node.index l.above l.node.tree,
    isNamed_eq_creates]
  rfl

/-- Objects get a name unless one of them is created inside a lambda. -/
theorem nameObjects_eq_ok {l : Location} {target : TypeId} {name : String}
    {objects : NamedObjects} (h : m.nameObjects l target name = .ok objects) :
    (∀ s ∈ l :: locationsBelow l, m.creates target s = true → s.isUnder .lambda = false)
      ∧ objects.tree = nameCreations
          (fun span => m.typeAt? ⟨.anonObjectCreation, span⟩ == some target) name
          l.node.start l.node.tree
      ∧ objects.sites
        = ((l :: locationsBelow l).filter (m.creates target)).map Location.span := by
  rw [nameObjects_eq] at h
  split at h
  · cases h
  · next hlambda =>
      cases h
      refine ⟨fun s hs hcreates => ?_, rfl, rfl⟩
      rw [Bool.not_eq_true, List.any_eq_false] at hlambda
      simpa using hlambda s (List.mem_filter.mpr ⟨hs, hcreates⟩)

end Model

/-- What each step of an extraction that succeeds gave. -/
theorem Plan.apply_eq_ok {p : Plan} {m : Model} {isCancelled : Bool} {e : Extraction}
    (h : p.apply m isCancelled = .ok e) :
    p.scope.container.above ≠ [] ∧ ∃ objects,
      m.nameObjects p.scope.container p.target p.newName = .ok objects
        ∧ e.tree = (topOf p.scope.container).node.tree.replaceAt
            (objects.tree :: p.separator ++ [p.declaration]) p.scope.container.path
        ∧ e.typeName = p.newName
        ∧ e.named = objects.sites
        ∧ e.declarationSpan = Span.ofWidth
            (p.scope.container.node.start + objects.tree.width + Tree.widthOf p.separator)
            p.declaration.width := by
  cases isCancelled with
  | true => cases h
  | false =>
      simp only [apply, bind, Except.bind, Bool.false_eq_true, if_false, pure, Except.pure] at h
      split at h
      · cases h
      · next objects hobjects =>
          split at h
          · cases h
          · next habove =>
              cases h
              rw [List.isEmpty_iff] at habove
              exact ⟨habove, objects, hobjects, rfl, rfl, rfl, rfl⟩

/-! ### Places in a tree -/

namespace Syntax

/-- Around a place the leaves stay when other trees are put into it. -/
theorem leaves_around {n : Node} {above : List Node} (h : Linked n above) (habove : above ≠ []) :
    ∃ front back : List Lexeme, Lexeme.widthOf front = n.start
      ∧ (topOf ⟨n, above⟩).node.tree.leaves = front ++ n.tree.leaves ++ back
      ∧ ∀ new, (rebuilt new n above).leaves = front ++ Tree.leavesOf new ++ back := by
  induction above generalizing n with
  | nil => exact absurd rfl habove
  | cons parent above ih =>
      have hparent : parent.tree.leaves
          = Tree.leavesOf (parent.children.take n.index) ++ n.tree.leaves
            ++ Tree.leavesOf (parent.children.drop (n.index + 1)) := by
        have hcut := List.getElem?_eq_some_iff.mp h.child
        rcases hcut with ⟨hlt, hat⟩
        have hwhole : parent.children = parent.children.take n.index
            ++ n.tree :: parent.children.drop (n.index + 1) := by
          rw [← hat, List.getElem_cons_drop, List.take_append_drop]
        have hleaves := congrArg Tree.leavesOf hwhole
        rw [Tree.leavesOf_append, Tree.leavesOf] at hleaves
        rw [List.append_assoc]
        exact hleaves
      have hspliced : ∀ new, (parent.spliced n.index new).leaves
          = Tree.leavesOf (parent.children.take n.index) ++ Tree.leavesOf new
            ++ Tree.leavesOf (parent.children.drop (n.index + 1)) := by
        intro new
        rw [Node.spliced, Tree.leaves, Tree.leavesOf_append, Tree.leavesOf_append]
      cases above with
      | nil =>
          refine ⟨_, _, ?_, hparent, hspliced⟩
          have hzero : parent.start = 0 := h.above
          rw [h.2.1, hzero, Nat.zero_add, Tree.widthOf_eq]
      | cons next above =>
          rcases ih h.above (List.cons_ne_nil next above) with ⟨front, back, hwidth, htop, hnew⟩
          refine ⟨front ++ Tree.leavesOf (parent.children.take n.index),
            Tree.leavesOf (parent.children.drop (n.index + 1)) ++ back, ?_, ?_, fun new => ?_⟩
          · rw [Lexeme.widthOf_append, hwidth, h.2.1, Tree.widthOf_eq]
          · rw [topOf_cons, htop, hparent]
            simp only [List.append_assoc]
          · rw [rebuilt, hnew, Tree.leavesOf, hspliced, Tree.leavesOf, List.append_nil]
            simp only [List.append_assoc]

/-- The nodes of a tree in which every node has its shape have theirs. -/
theorem Linked.conforms {n : Node} {above : List Node} (h : Linked n above)
    (htop : (topOf ⟨n, above⟩).node.tree.Conforms) : n.tree.Conforms := by
  induction above generalizing n with
  | nil => exact htop
  | cons parent above ih =>
      rw [topOf_cons] at htop
      cases ih h.above htop with
      | node hfits hopens hchildren => exact hchildren n.tree (List.mem_of_getElem? h.child)

mutual

/-- The parent of a location below another node is a location of its own. -/
theorem mem_locationsAt_of_parent {t : Tree} {above : List Node} {start index : Nat} {n : Node}
    {parent : Node} {rest : List Node}
    (h : ⟨n, parent :: rest⟩ ∈ Tree.locationsAt above start index t) :
    parent :: rest = above ∨ ⟨parent, rest⟩ ∈ Tree.locationsAt above start index t := by
  cases t with
  | token lexeme => cases h
  | node kind children =>
      rw [Tree.locationsAt, List.mem_cons] at h
      rcases h with heq | h
      · rw [Location.mk.injEq] at heq
        exact .inl heq.2
      · rw [Tree.locationsAt, List.mem_cons]
        rcases mem_locationsOf_of_parent h with heq | hmem
        · rw [List.cons.injEq] at heq
          exact .inr (.inl (by rw [heq.1, heq.2]))
        · exact .inr (.inr hmem)

theorem mem_locationsOf_of_parent {ts : List Tree} {above : List Node} {start index : Nat}
    {n : Node} {parent : Node} {rest : List Node}
    (h : ⟨n, parent :: rest⟩ ∈ Tree.locationsOf above start index ts) :
    parent :: rest = above ∨ ⟨parent, rest⟩ ∈ Tree.locationsOf above start index ts := by
  cases ts with
  | nil => cases h
  | cons t ts =>
      rw [Tree.locationsOf, List.mem_append] at h
      rw [Tree.locationsOf, List.mem_append]
      rcases h with h | h
      · exact (mem_locationsAt_of_parent h).imp_right .inl
      · exact (mem_locationsOf_of_parent h).imp_right .inr

end

end Syntax

/-! ### Extractions of a document -/

/-- Extracting a type that succeeds carries out the plan that starts from a site. -/
theorem Model.extract_eq_ok {m : Model} {t : Tree} {target : TypeId} {request : Request}
    {e : Extraction} (h : m.extract t target request = .ok e) :
    ∃ anchor ∈ m.sites t, ∃ p, m.planAt t anchor request = .ok p
      ∧ p.apply m request.isCancelled = .ok e := by
  simp only [Model.extract, Model.plan, bind, Except.bind] at h
  split at h
  · cases h
  · next p hplan =>
      split at hplan
      · cases hplan
      · split at hplan
        · cases hplan
        · next anchor hfind =>
            exact ⟨anchor, List.mem_of_find?_eq_some hfind, p, hplan, h⟩

/-- An extraction that starts from a site of a document, with its plan. -/
structure Document.Extracts (d : Document) (anchor : Site) (p : Plan) (e : Extraction) : Prop where
  site : anchor ∈ d.sites
  planned : ∃ request, d.model.planAt d.tree anchor request = .ok p
  applied : ∃ isCancelled, p.apply d.model isCancelled = .ok e

namespace Document.Extracts

variable {d : Document} {request : Request} {e : Extraction}

/-- Extracting a type starts from its first site. -/
theorem of_modelExtract {target : TypeId}
    (h : d.model.extract d.tree target request = .ok e) : ∃ anchor p, d.Extracts anchor p e := by
  rcases Model.extract_eq_ok h with ⟨anchor, hsite, p, hplan, happly⟩
  exact ⟨anchor, p, hsite, ⟨request, hplan⟩, ⟨_, happly⟩⟩

/-- Extracting the first type starts from the first site. -/
theorem of_extract (h : d.extract request = .ok e) : ∃ anchor p, d.Extracts anchor p e := by
  rw [Document.extract] at h
  split at h
  · cases h
  · exact of_modelExtract h

theorem innermost_mem {ss : List Site} {site : Site} (h : Model.innermost ss = some site) :
    site ∈ ss := by
  induction ss generalizing site with
  | nil => cases h
  | cons s ss ih =>
      rw [Model.innermost] at h
      split at h
      · next inner hinner =>
          split at h
          · cases h
            exact List.mem_cons_of_mem s (ih hinner)
          · cases h
            exact List.mem_cons_self
      · cases h
        exact List.mem_cons_self

/-- Extracting at an offset starts from the innermost site there. -/
theorem of_extractAt {offset : Nat} (h : d.extractAt offset request = .ok e) :
    ∃ anchor p, d.Extracts anchor p e := by
  simp only [Document.extractAt, Model.extractAt, bind, Except.bind] at h
  split at h
  · cases h
  · next anchor hanchor =>
      split at h
      · cases h
      · next p hplan =>
          have hmem := innermost_mem hanchor
          exact ⟨anchor, p, (List.mem_filter.mp hmem).1, ⟨request, hplan⟩, ⟨_, h⟩⟩

end Document.Extracts

/-- A document that was parsed holds its source and a tree of the right shape. -/
theorem Document.parse_eq_ok {source : String} {d : Document} (h : Document.parse source = .ok d) :
    d.source = source ∧ d.tree.leaves = Syntax.lex source ∧ d.tree.Conforms
      ∧ d.model = (Model.ofTree d.tree).1
      ∧ ∃ parsed, Grammar.parse source = .ok parsed ∧ d.tree = parsed.tree
        ∧ d.diagnostics = parsed.diagnostics ++ (Model.ofTree d.tree).2 := by
  simp only [Document.parse, bind, Except.bind] at h
  split at h
  · cases h
  · next parsed hparsed =>
      cases h
      exact ⟨rfl, Grammar.leaves_parseLexemes hparsed, Grammar.conforms_parseLexemes hparsed, rfl,
        parsed, hparsed, rfl, rfl⟩

/-- A site is a location of the tree. -/
theorem Model.mem_locations_of_mem_sites {m : Model} {t : Tree} {site : Site}
    (h : site ∈ m.sites t) : site.location ∈ t.locations := by
  rw [Model.sites, List.mem_filterMap] at h
  rcases h with ⟨l, hl, hsite⟩
  rw [Model.siteOf?] at hsite
  split at hsite
  · split at hsite
    · split at hsite
      · cases hsite
        exact hl
      · cases hsite
    · cases hsite
  · cases hsite

/-- The top is the same seen from a node above. -/
theorem topOf_of_suffix {c l : Location} (h : c.lineage <:+ l.lineage) : topOf c = topOf l := by
  rcases h with ⟨inner, hinner⟩
  have hne : c.lineage ≠ [] := List.cons_ne_nil c.node c.above
  simp only [topOf, ← hinner]
  rw [List.getLast_append_of_ne_nil _ hne]

/-- The container of a site is linked, below the tree at the top. -/
theorem linked_container {t : Tree} {l c : Location} {kind : Kind} (hl : l ∈ t.locations)
    (hc : l.outermost? kind = some c) :
    Linked c.node c.above ∧ (topOf c).node.tree = t := by
  rcases Syntax.outermost?_eq_some hc with ⟨hsuffix, _⟩
  refine ⟨(Syntax.linked_of_mem_locations hl).of_suffix hsuffix, ?_⟩
  rw [topOf_of_suffix hsuffix, topOf_of_mem_locations hl]

/-- Below a node, a creation is meant to get a name if its span is among those of the
    creations of the type. -/
theorem isNamed_iff_creates {m : Model} {target : TypeId} {l c : Location}
    (h : l ∈ c :: locationsBelow c) :
    isNamed (fun span => m.typeAt? ⟨.anonObjectCreation, span⟩ == some target) l
      = isNamed ((((c :: locationsBelow c).filter (m.creates target)).map Location.span).contains) l
      := by
  simp only [isNamed]
  cases hkind : l.node.kind == .anonObjectCreation with
  | false => rfl
  | true =>
      rw [Bool.true_and, Bool.true_and, Bool.eq_iff_iff, List.contains_iff_mem, List.mem_map]
      constructor
      · intro hmeant
        refine ⟨l, List.mem_filter.mpr ⟨h, ?_⟩, rfl⟩
        rw [Model.creates, hkind, Bool.true_and, Model.typeOf?, eq_of_beq hkind]
        exact hmeant
      · rintro ⟨l', hl', hspan⟩
        have hcreates := (List.mem_filter.mp hl').2
        rw [Model.creates, Bool.and_eq_true, Model.typeOf?, hspan] at hcreates
        rw [← eq_of_beq hcreates.1]
        exact hcreates.2

/-- What is put in below a node depends on which of its own creations are meant. -/
theorem namingAt?_congr {isMeant isMeant' : Span → Bool} {name : String} {c : Location}
    (hc : c.node.kind ≠ .anonMember)
    (h : ∀ l ∈ c :: locationsBelow c, isNamed isMeant l = isNamed isMeant' l) :
    (c :: locationsBelow c).filterMap (namingAt? isMeant name)
      = (c :: locationsBelow c).filterMap (namingAt? isMeant' name) := by
  refine List.filterMap_congr fun l hl => ?_
  rcases l with ⟨n, above⟩
  rw [namingAt?, namingAt?]
  split
  · rw [h _ hl]
  · next parent rest hkind habove =>
      simp only at habove
      subst habove
      rw [List.mem_cons] at hl
      rcases hl with heq | hl
      · exact absurd (heq ▸ hkind) hc
      · have hparent := Syntax.mem_locationsOf_of_parent hl
        rw [h ⟨parent, rest⟩]
        rw [List.mem_cons]
        refine hparent.imp_left fun hlineage => ?_
        rw [Location.lineage, List.cons.injEq] at hlineage
        rw [hlineage.1, hlineage.2]
  · rfl

/-- What an extraction puts into a text: the names of the objects and of their members
    inside the container, and behind the container the declaration. -/
def Document.insertions (container : Location) (p : Plan) (e : Extraction) : List Insertion :=
  (container :: locationsBelow container).filterMap (namingAt? e.named.contains e.typeName)
    ++ [⟨container.span.stop,
      p.layout.lineBreak ++ p.layout.lineBreak ++ p.layout.baseIndent ++ p.declaration.text⟩]

theorem textOf_separator (p : Plan) :
    Tree.textOf p.separator
      = p.layout.lineBreak ++ p.layout.lineBreak ++ p.layout.baseIndent := by
  have hblanks : ∀ text : String, Tree.textOf (blanks text) = text := by
    intro text
    rw [blanks]
    split
    · next hempty =>
        rw [String.isEmpty_iff] at hempty
        rw [hempty]
        rfl
    · exact String.append_empty
  rw [Plan.separator, Tree.textOf_append, hblanks]
  simp only [Tree.textOf, Tree.leavesOf, Tree.leaves, leaf, List.singleton_append, List.append_nil,
    Lexeme.textOf, String.append_empty]

/-- The text of an extraction is the source with insertions and nothing else: the name of the
    type behind the keyword of each creation that is named, the name that a member of such a
    creation brings before the member, and behind the outermost type the declaration on a
    line of its own. The span of the declaration holds its text. -/
theorem extracts_inserts {source : String} {d : Document} {anchor : Site} {p : Plan}
    {e : Extraction} (hd : Document.parse source = .ok d) (h : d.Extracts anchor p e) :
    (∃ container, anchor.location.outermost? .typeDecl = some container
        ∧ Inserted 0 (Document.insertions container p e) source e.text)
      ∧ e.declarationSpan.Holds e.text p.declaration.text := by
  rcases Document.parse_eq_ok hd with ⟨_, hleaves, hconforms, _, _⟩
  rcases h with ⟨hsite, ⟨request, hplan⟩, ⟨isCancelled, happly⟩⟩
  rcases Model.planAt_eq_ok hplan with ⟨hscope, htarget, _, _, _, hlayout, _⟩
  rcases Plan.apply_eq_ok happly with
    ⟨habove, objects, hobjects, htree, hname, hnamed, hdeclaration⟩
  rcases Model.nameObjects_eq_ok hobjects with ⟨_, hrenamed, hsites⟩
  have hcontainer := (Model.scopeOf_eq_ok hscope).1
  have hkind := (Syntax.outermost?_eq_some hcontainer).2
  rcases linked_container (Model.mem_locations_of_mem_sites hsite) hcontainer with
    ⟨hlinked, htop⟩
  generalize p.scope.container = container at *
  rcases Syntax.leaves_around hlinked habove with ⟨front, back, hfront, hold, hnew⟩
  have hsource : source
      = Lexeme.textOf front ++ (container.node.tree.text ++ Lexeme.textOf back) := by
    rw [← Syntax.textOf_lex source, ← hleaves, ← htop, hold]
    simp only [Lexeme.textOf_append, Tree.text, String.append_assoc]
  have htext : e.text = Lexeme.textOf front ++ (objects.tree.text ++ (Tree.textOf p.separator
      ++ p.declaration.text ++ Lexeme.textOf back)) := by
    rw [Extraction.text, htree, Syntax.replaceAt_eq_rebuilt hlinked habove, Tree.text, hnew,
      Lexeme.textOf_append, Lexeme.textOf_append, ← Tree.textOf, List.cons_append,
      Tree.textOf_cons, Tree.textOf_append, Tree.textOf_cons, Tree.textOf_nil, String.append_empty]
    simp only [String.append_assoc]
  have hnames : Inserted container.node.start
      ((container :: locationsBelow container).filterMap (namingAt? e.named.contains e.typeName))
      container.node.tree.text objects.tree.text := by
    have hmember : container.node.kind ≠ .anonMember := by
      rw [hkind]
      decide
    rw [hrenamed, hnamed, hsites, htarget, hname,
      ← namingAt?_congr hmember fun l hl => isNamed_iff_creates hl]
    exact inserted_nameCreations (hlinked.conforms (htop ▸ hconforms)) fun h => absurd h hmember
  constructor
  · refine ⟨container, hcontainer, ?_⟩
    have hstop : container.span.stop
        = container.node.start + container.node.tree.text.utf8ByteSize := by
      rw [← Tree.width_eq_text]
      rfl
    have hwhole := hnames.append
      ((Inserted.done _ (Lexeme.textOf back)).here (Tree.textOf p.separator ++ p.declaration.text))
    have hzero : container.node.start = 0 + (Lexeme.textOf front).utf8ByteSize := by
      rw [← hfront, Lexeme.widthOf_eq, Nat.zero_add]
    rw [hzero] at hwhole
    rw [hsource, htext, Document.insertions, ← textOf_separator, hstop, hzero]
    exact hwhole.keep (Lexeme.textOf front)
  · refine ⟨Lexeme.textOf front ++ objects.tree.text ++ Tree.textOf p.separator,
      Lexeme.textOf back, ?_, ?_⟩
    · rw [htext]
      simp only [String.append_assoc]
    · rw [hdeclaration, ← hfront, Lexeme.widthOf_eq, Tree.width_eq_text, Tree.widthOf_eq_text,
        Tree.width_eq_text]
      simp only [String.utf8ByteSize_append]

/-- A member that brings a name gets it written out, although the source is unfinished. -/
theorem extracts_inserts_unfinished :
    ∃ d anchor p e, Document.parse "class C { void M(int n) { f(new { n } } }" = .ok d
      ∧ d.Extracts anchor p e
      ∧ (∃ container, anchor.location.outermost? .typeDecl = some container
        ∧ Inserted 0 (Document.insertions container p e)
          "class C { void M(int n) { f(new { n } } }" e.text)
      ∧ e.declarationSpan.Holds e.text p.declaration.text := by
  have hok : ((Document.parse "class C { void M(int n) { f(new { n } } }").toOption.any
      fun d => (d.extract Request.plain).isOk) = true := by
    decide +kernel
  cases hd : Document.parse "class C { void M(int n) { f(new { n } } }" with
  | error failure =>
      rw [hd] at hok
      cases hok
  | ok d =>
      cases he : d.extract Request.plain with
      | error refusal =>
          simp only [hd, Except.toOption, Option.any_some, he] at hok
          cases hok
      | ok e =>
          rcases Document.Extracts.of_extract he with ⟨anchor, p, h⟩
          exact ⟨d, anchor, p, e, rfl, h, extracts_inserts hd h⟩

end Nominal
