import Mathlib.Data.List.Forall2
import Nominal.Proofs.Detected
import Nominal.Proofs.Layout.Parsing
import Nominal.Proofs.Layout.Programs

/-!
# Candidate Sites Do Not Depend on Layout

Two documents with the same tokens have the same candidate sites, apart from where they stand.

Both documents are compared with the tree that they have in common when trivia is dropped. Its
nodes are those of each document, moved; its program is that of each document, moved; so its
types are filed under moved keys. A candidate site and the variable that makes it known are
looked up under keys that no other node has been moved to.

## Main definitions

* `Node.Bares`: A node and what is left of it without trivia.
* `Model.Moved`: What is known of a tree, and what is known of it with its nodes moved.
* `Document.summary`: What a candidate site is, apart from where it stands.
* `AlikeDocuments`: Two documents are the same apart from layout.

## Theorems

* `locationsOf_bareOf`: The nodes of a tree without trivia are those of the tree, moved.
* `summaries_bare`: A tree without trivia has the same candidate sites.
* `layout_irrelevant`: Sources with the same tokens are parsed with the same outcome, and their
  documents have the same candidate sites.
-/

namespace Nominal

open Syntax (Tree Kind Lexeme Location Node)
open Text (Span)
open Nominal.Types (TypeId Registry DeclaredTypes)
open Typing (NodeKey TypingState typeFile)
open Program (SourceFile)

/-! ### Nodes -/

namespace Syntax

/-- A node, and what is left of it without trivia. -/
structure Node.Bares (m : Move) (n n' : Node) : Prop where
  kind : n'.kind = n.kind
  children : n'.children = Tree.bareOf n.children
  span : n'.span = m n.kind n.span

/-- A location, and where it is without trivia. -/
structure Location.Bares (m : Move) (l l' : Location) : Prop where
  node : l.node.Bares m l'.node
  above : List.Forall₂ (Node.Bares m) l.above l'.above

namespace Tree

variable {m : Move}

mutual

theorem locationsAt_bare {t : Tree} {above above' : List Node} {index index' : Nat}
    {xs : List Lexeme} (zs : List Lexeme)
    (hm : m.Places (xs ++ t.leaves ++ zs) (locationsAt above (Lexeme.widthOf xs) index t))
    (habove : List.Forall₂ (Node.Bares m) above above') :
    List.Forall₂ (Location.Bares m) (locationsAt above (Lexeme.widthOf xs) index t)
      (locationsAt above' (Lexeme.bareWidth xs) index' t.bare) := by
  cases t with
  | token l => exact .nil
  | node kind children =>
      rw [leaves, locationsAt, Move.Places, List.forall_mem_cons] at hm
      rw [bare, locationsAt, locationsAt]
      have hhere : Node.Bares m ⟨kind, children, Lexeme.widthOf xs, index⟩
          ⟨kind, bareOf children, Lexeme.bareWidth xs, index'⟩ := by
        refine ⟨rfl, rfl, ?_⟩
        have hspan := hm.1
        rw [Location.span, Node.span, widthOf_eq, Lexeme.squeeze_between] at hspan
        rw [Node.span, Node.span, widthOf_bareOf, widthOf_eq]
        exact hspan.symm
      exact .cons ⟨hhere, habove⟩ (locationsOf_bareOf zs hm.2 (.cons hhere habove))

/-- The nodes of trees without trivia are the nodes of the trees, moved. -/
theorem locationsOf_bareOf {ts : List Tree} {above above' : List Node} {index index' : Nat}
    {xs : List Lexeme} (zs : List Lexeme)
    (hm : m.Places (xs ++ leavesOf ts ++ zs) (locationsOf above (Lexeme.widthOf xs) index ts))
    (habove : List.Forall₂ (Node.Bares m) above above') :
    List.Forall₂ (Location.Bares m) (locationsOf above (Lexeme.widthOf xs) index ts)
      (locationsOf above' (Lexeme.bareWidth xs) index' (bareOf ts)) := by
  cases ts with
  | nil =>
      rw [bareOf_nil]
      exact .nil
  | cons t ts =>
      have hbehind : Lexeme.widthOf xs + t.width = Lexeme.widthOf (xs ++ t.leaves) := by
        rw [Lexeme.widthOf_append, width_eq]
      rw [leavesOf, locationsOf, hbehind, ← List.append_assoc] at hm
      rw [Move.Places, List.forall_mem_append] at hm
      rw [locationsOf, hbehind]
      cases t with
      | token l =>
          rw [leaves] at hm
          rw [leaves, locationsAt, List.nil_append]
          cases hl : l.isTrivia with
          | true =>
              have hoffset : Lexeme.bareWidth xs = Lexeme.bareWidth (xs ++ [l]) := by
                rw [Lexeme.bareWidth_append, Lexeme.bareWidth_trivia hl, Nat.add_zero]
              rw [bareOf_trivia hl, hoffset]
              exact locationsOf_bareOf zs hm.2 habove
          | false =>
              have hoffset : Lexeme.bareWidth xs + (token l).width
                  = Lexeme.bareWidth (xs ++ [l]) := by
                rw [Lexeme.bareWidth_append, Lexeme.bareWidth_token hl, width]
              rw [bareOf_token hl, locationsOf, locationsAt, List.nil_append, hoffset]
              exact locationsOf_bareOf zs hm.2 habove
      | node kind children =>
          have hoffset : Lexeme.bareWidth xs + (node kind (bareOf children)).width
              = Lexeme.bareWidth (xs ++ leavesOf children) := by
            rw [Lexeme.bareWidth_append, width, widthOf_bareOf]
          rw [leaves] at hm
          rw [leaves, bareOf_node, locationsOf, hoffset]
          refine List.rel_append ?_ (locationsOf_bareOf zs hm.2 habove)
          rw [← bare]
          refine locationsAt_bare (leavesOf ts ++ zs) ?_ habove
          rw [leaves, ← List.append_assoc]
          exact hm.1

end

/-- The nodes of a tree without trivia are the nodes of the tree, moved. -/
theorem locations_bare (t : Tree) :
    List.Forall₂ (Location.Bares t.squeeze) t.locations t.bare.locations := by
  -- Nothing stands before or behind the whole tree.
  have hplaces : t.squeeze.Places ([] ++ t.leaves ++ [])
      (locationsAt [] (Lexeme.widthOf []) 0 t) := by
    rw [List.nil_append, List.append_nil]
    exact fun l hl => squeeze_of_mem hl
  exact locationsAt_bare [] hplaces .nil

/-! ### Tokens -/

theorem map_fst_tokensAt (start : Nat) (ts : List Tree) :
    (tokensAt start ts).map Prod.fst = tokensOf ts := by
  have hshift : ∀ start start' : Nat,
      (tokensAt start ts).map Prod.fst = (tokensAt start' ts).map Prod.fst := by
    induction ts with
    | nil => exact fun _ _ => rfl
    | cons t ts ih =>
        intro start start'
        cases t with
        | token l => exact congrArg (l :: ·) (ih _ _)
        | node kind children => exact ih _ _
  exact hshift start 0

theorem tokensOf_token (l : Lexeme) (ts : List Tree) :
    tokensOf (token l :: ts) = l :: tokensOf ts :=
  congrArg (l :: ·) (map_fst_tokensAt _ ts)

theorem tokensOf_node (kind : Kind) (children ts : List Tree) :
    tokensOf (node kind children :: ts) = tokensOf ts :=
  map_fst_tokensAt _ ts

theorem tokensOf_bareOf (ts : List Tree) : tokensOf (bareOf ts) = Lexeme.bare (tokensOf ts) := by
  induction ts with
  | nil =>
      rw [bareOf_nil]
      rfl
  | cons t ts ih =>
      cases t with
      | token l =>
          rw [tokensOf_token]
          cases hl : l.isTrivia with
          | true => rw [bareOf_trivia hl, ih, Lexeme.bare_cons_trivia hl]
          | false => rw [bareOf_token hl, tokensOf_token, ih, Lexeme.bare_cons_token hl]
      | node kind children => rw [bareOf_node, tokensOf_node, tokensOf_node, ih]

theorem countP_bareOf {kind : Kind} (hkind : kind.isTrivia = false) (ts : List Tree) :
    ((bareOf ts).countP fun t => t.kind == kind) = ts.countP fun t => t.kind == kind := by
  induction ts with
  | nil => rw [bareOf_nil]
  | cons t ts ih =>
      cases t with
      | token l =>
          cases hl : l.isTrivia with
          | true =>
              have hother : ¬((token l).kind == kind) = true := by
                rw [Tree.kind, Lexeme.beq_trivia hkind l hl]
                exact Bool.false_ne_true
              rw [bareOf_trivia hl, ih, List.countP_cons, if_neg hother, Nat.add_zero]
          | false => rw [bareOf_token hl, List.countP_cons, List.countP_cons, ih]
      | node kind children => rw [bareOf_node, List.countP_cons, List.countP_cons, ih]; rfl

end Tree

namespace Node.Bares

variable {m : Move} {n n' : Node}

/-- The first token of a kind is the same. -/
theorem token? (h : n.Bares m n') {kind : Kind} (hkind : kind.isTrivia = false) :
    (n'.token? kind).map Prod.fst = (n.token? kind).map Prod.fst := by
  have hfirst : ∀ n : Node, (n.token? kind).map Prod.fst
      = (Tree.tokensOf n.children).find? fun l => l.kind == kind := by
    intro n
    rw [Node.token?, ← Tree.map_fst_tokensAt n.start, List.find?_map]
    rfl
  rw [hfirst, hfirst, h.children, Tree.tokensOf_bareOf, Lexeme.find?_bare (Lexeme.beq_trivia hkind)]

theorem declaresOneVar (h : n.Bares m n') :
    Model.declaresOneVar n' = Model.declaresOneVar n := by
  have hvar := congrArg Option.isSome (h.token? (rfl : Kind.isTrivia .kwVar = false))
  rw [Option.isSome_map, Option.isSome_map] at hvar
  rw [Model.declaresOneVar, Model.declaresOneVar, h.kind, hvar, h.children,
    Tree.countP_bareOf rfl]

end Node.Bares

/-- A location is below nodes of the same kinds. -/
theorem Location.Bares.isUnder {m : Move} {l l' : Location} (h : l.Bares m l') (kind : Kind) :
    l'.isUnder kind = l.isUnder kind := by
  have hany : ∀ {ns ns' : List Node}, List.Forall₂ (Node.Bares m) ns ns' →
      (ns'.any fun n => n.kind == kind) = ns.any fun n => n.kind == kind := by
    intro ns ns' hall
    induction hall with
    | nil => rfl
    | cons hn _ ih => rw [List.any_cons, List.any_cons, ih, hn.kind]
  exact hany (.cons h.node h.above)

end Syntax

/-! ### Models -/

/-- What is known of a tree, and what is known of it with its nodes moved. -/
structure Model.Moved (m : Move) (model model' : Model) : Prop where
  registry : model'.registry = model.registry
  records : model'.records = model.records.map fun r => (r.1.move m, r.2)

namespace Model

variable {m : Move}

/-- What is known of a tree whose program has moved, and how many mistakes are found in it. -/
theorem moved_ofTree {t t' : Tree} (hm : m.IsFaithful)
    (h : SourceFile.ofTree t' = (SourceFile.ofTree t).move m) :
    (ofTree t).1.Moved m (ofTree t').1 ∧ (ofTree t').2.length = (ofTree t).2.length := by
  have hcollect := DeclaredTypes.collect_move (m := m) (SourceFile.ofTree t) Registry.initial
  rw [ofTree, ofTree, h]
  simp only [hcollect]
  generalize DeclaredTypes.collect (SourceFile.ofTree t) Registry.initial = collected
  have hfile : (typeFile collected.1 (SourceFile.ofTree t) collected.2).Moved m
      (typeFile (collected.1.move m) ((SourceFile.ofTree t).move m) collected.2) :=
    Typing.moved_typeFile hm _ _
  exact ⟨⟨hfile.registry, hfile.records⟩, hfile.diagnostics⟩

variable {model model' : Model}

theorem Moved.typeAt? (h : model.Moved m model') {key : NodeKey}
    (hkey : ∀ span, m key.kind span = m key.kind key.span → span = key.span) :
    model'.typeAt? (key.move m) = model.typeAt? key := by
  rw [Model.typeAt?, Model.typeAt?, h.records, Typing.find?_moved hkey, Option.map_map]
  rfl

/-- The type of a node that no other one has been moved to. -/
theorem Moved.typeOf? (h : model.Moved m model') {l l' : Location} (hl : l.node.Bares m l'.node)
    (hkey : ∀ span, m l.node.kind span = m l.node.kind l.span → span = l.span) :
    model'.typeOf? l' = model.typeOf? l := by
  have htype : model'.typeAt? (NodeKey.move m ⟨l.node.kind, l.span⟩)
      = model.typeAt? ⟨l.node.kind, l.span⟩ := h.typeAt? hkey
  rw [Model.typeOf?, Location.span, hl.kind, hl.span]
  exact htype

/-! ### Candidate sites -/

/-- What a candidate site is, apart from where it stands: its described type, the name of the
    variable that makes it known, and whether it is in a lambda. -/
def summary (model : Model) (s : Site) : String × Option String × Bool :=
  (model.describe s.type, s.variableName?, s.inLambda)

/-- The name of the variable that a creation makes known. -/
def variableOf? (model : Model) (l : Location) (type : TypeId) : Option String :=
  (model.declaratorOf? l type).bind fun d => (d.node.token? .id).map fun t => t.1.text

section Squeezed

variable {t : Tree} {l l' : Location}

theorem Moved.variableOf? (h : model.Moved t.squeeze model') (ht : t.Anchored)
    (hpos : ∀ x ∈ t.leaves, 0 < x.width) (hl : l ∈ t.locations) (hbare : l.Bares t.squeeze l')
    (type : TypeId) : model'.variableOf? l' type = model.variableOf? l type := by
  rcases l with ⟨node, above⟩
  rcases l' with ⟨node', above'⟩
  rw [Model.variableOf?, Model.variableOf?, declaratorOf?, declaratorOf?]
  rcases hbare with ⟨-, habove⟩
  cases habove with
  | nil => rfl
  | @cons parent parent' rest rest' hparent hrest =>
      cases hrest with
      | nil => rfl
      | @cons statement statement' above above' hstatement _ =>
          dsimp only
          rw [hparent.kind, hstatement.declaresOneVar]
          by_cases hkind : parent.kind = .varDeclarator
          · have hmem : ⟨parent, statement :: above⟩ ∈ t.locations := by
              rcases Syntax.mem_locationsAt_of_parent hl with hnone | hmem
              · cases hnone
              · exact hmem
            have hsome : parent.children ≠ [] := by
              intro hnil
              have hchild := (Syntax.linked_of_mem_locations hl).child
              rw [hnil] at hchild
              cases hchild
            have htype : model'.typeOf? ⟨parent', statement' :: above'⟩
                = model.typeOf? ⟨parent, statement :: above⟩ := by
              refine h.typeOf? hparent fun span hsame => ?_
              rw [hkind] at hsame
              exact Tree.squeeze_varDeclarator ht hpos hmem hkind hsome hsame
            have hname := congrArg (Option.map Lexeme.text)
              (hparent.token? (rfl : Kind.isTrivia .id = false))
            rw [Option.map_map, Option.map_map] at hname
            rw [htype]
            split
            · exact hname
            · rfl
          · rw [if_neg fun h => hkind h.1, if_neg fun h => hkind h.1]

/-- A node is the same candidate site, or none. -/
theorem Moved.siteOf? (h : model.Moved t.squeeze model') (ht : t.Anchored)
    (hpos : ∀ x ∈ t.leaves, 0 < x.width) (hl : l ∈ t.locations) (hbare : l.Bares t.squeeze l') :
    (model'.siteOf? l').map model'.summary = (model.siteOf? l).map model.summary := by
  rw [Model.siteOf?, Model.siteOf?, hbare.node.kind]
  split
  · next hkind =>
      have htype : model'.typeOf? l' = model.typeOf? l := by
        refine h.typeOf? hbare.node fun span => ?_
        refine Tree.isFaithful_squeeze ht hpos l.node.kind ?_ span l.span
        rw [hkind]
        decide
      rw [htype]
      cases model.typeOf? l with
      | none => rfl
      | some type =>
          dsimp only
          rw [isStructural, isStructural, h.registry]
          split
          · have hname := h.variableOf? ht hpos hl hbare type
            simp only [Option.map_some, Option.some.injEq, summary, Prod.mk.injEq]
            exact ⟨by rw [describe, describe, h.registry], hname, hbare.isUnder .lambda⟩
          · rfl
  · rfl

/-- The candidate sites are the same, in the same order. -/
theorem Moved.sites (h : model.Moved t.squeeze model') (ht : t.Anchored)
    (hpos : ∀ x ∈ t.leaves, 0 < x.width) :
    (model'.sites t.bare).map model'.summary = (model.sites t).map model.summary := by
  -- Site by site, each location with what is left of it.
  have hsites : ∀ {ls ls' : List Location}, List.Forall₂ (Location.Bares t.squeeze) ls ls' →
      (∀ l ∈ ls, l ∈ t.locations) →
      (ls'.filterMap fun l => (model'.siteOf? l).map model'.summary)
        = ls.filterMap fun l => (model.siteOf? l).map model.summary := by
    intro ls ls' hls hmem
    induction hls with
    | nil => rfl
    | cons hbare _ ih =>
        rw [List.forall_mem_cons] at hmem
        rw [List.filterMap_cons, List.filterMap_cons, ih hmem.2, h.siteOf? ht hpos hmem.1 hbare]
  rw [Model.sites, Model.sites, List.map_filterMap, List.map_filterMap]
  exact hsites (Tree.locations_bare t) fun _ hl => hl

end Squeezed

/-- What the candidate sites of a tree are, apart from where they stand. -/
def summaries (t : Tree) : List (String × Option String × Bool) :=
  ((ofTree t).1.sites t).map (ofTree t).1.summary

/-- A tree without trivia has the same candidate sites, and as many mistakes are found in it. -/
theorem summaries_bare {t : Tree} (ht : t.Anchored) (hpos : ∀ x ∈ t.leaves, 0 < x.width) :
    summaries t.bare = summaries t ∧ (ofTree t.bare).2.length = (ofTree t).2.length := by
  have hmoved := moved_ofTree (Tree.isFaithful_squeeze ht hpos) (SourceFile.ofTree_bare ht)
  exact ⟨hmoved.1.sites ht hpos, hmoved.2⟩

end Model

/-! ### Documents -/

/-- Two results of opening a document are the same apart from layout. -/
def AlikeDocuments : Except Grammar.ParseFailure Document → Except Grammar.ParseFailure Document →
    Prop
  | .ok d, .ok d' => d.tree.bare = d'.tree.bare ∧ (d.diagnostics = [] ↔ d'.diagnostics = [])
    ∧ d.sites.map d.model.summary = d'.sites.map d'.model.summary
  | .error failure, .error failure' => failure = failure'
  | _, _ => False

/-- How opening a document ends follows from how parsing its source does. -/
theorem Document.parse_eq (source : String) :
    Document.parse source = (Grammar.parse source).map fun parsed =>
      ⟨source, parsed.tree, (Model.ofTree parsed.tree).1,
        parsed.diagnostics ++ (Model.ofTree parsed.tree).2, parsed.taken⟩ := by
  rw [Document.parse]
  cases Grammar.parse source <;> rfl

/-- The candidate sites in the tree of a source are those of the tree without trivia. -/
theorem summaries_parse {source : String} {parsed : Grammar.Parsed}
    (h : Grammar.parse source = .ok parsed) :
    Model.summaries parsed.tree.bare = Model.summaries parsed.tree
      ∧ (Model.ofTree parsed.tree.bare).2.length = (Model.ofTree parsed.tree).2.length := by
  have hleaves := Grammar.leaves_parseLexemes h
  have hpos : ∀ x ∈ parsed.tree.leaves, 0 < x.width := hleaves ▸ Syntax.pos_of_mem_lex source
  exact Model.summaries_bare (Grammar.anchored_parseLexemes h) hpos

/-- Layout does not matter: sources with the same tokens are parsed with the same outcome under
    all limits, and the documents of both have the same trees apart from trivia, mistakes in
    both or in neither, and the same candidate sites in the same order. -/
theorem layout_irrelevant {source source' : String}
    (h : Lexeme.bare (Syntax.lex source) = Lexeme.bare (Syntax.lex source')) :
    (∀ limits, Grammar.AlikeResults (Grammar.parseWith limits source)
        (Grammar.parseWith limits source'))
      ∧ AlikeDocuments (Document.parse source) (Document.parse source') := by
  have hparse : ∀ limits, Grammar.AlikeResults (Grammar.parseWith limits source)
      (Grammar.parseWith limits source') := fun limits => Grammar.parseLexemes_alike limits h
  refine ⟨hparse, ?_⟩
  have hdefault : Grammar.AlikeResults (Grammar.parse source) (Grammar.parse source') := hparse _
  rw [Document.parse_eq, Document.parse_eq]
  cases hp : Grammar.parse source with
  | error failure =>
      cases hp' : Grammar.parse source' with
      | error failure' =>
          rw [hp, hp'] at hdefault
          exact hdefault
      | ok parsed' =>
          rw [hp, hp'] at hdefault
          exact hdefault.elim
  | ok parsed =>
      cases hp' : Grammar.parse source' with
      | error failure' =>
          rw [hp, hp'] at hdefault
          exact hdefault.elim
      | ok parsed' =>
          rw [hp, hp'] at hdefault
          rcases hdefault with ⟨htree, hclean, -⟩
          have hleft := summaries_parse hp
          have hright := summaries_parse hp'
          rw [← htree] at hright
          refine ⟨htree, ?_, hleft.1.symm.trans hright.1⟩
          have hmistakes : (Model.ofTree parsed.tree).2 = []
              ↔ (Model.ofTree parsed'.tree).2 = [] := by
            rw [← List.length_eq_zero_iff, ← hleft.2, hright.2, List.length_eq_zero_iff]
          rw [List.append_eq_nil_iff, List.append_eq_nil_iff, hclean, hmistakes]

/-- Blanks and a comment change nothing about the object that a variable holds. -/
theorem layout_irrelevant_comment :
    Lexeme.bare (Syntax.lex "var x = new { A = 1 };")
        = Lexeme.bare (Syntax.lex "var x=new{/*one*/A=1} ;")
      ∧ ((Document.parse "var x = new { A = 1 };").toOption.any fun d =>
        (d.sites.map fun s => (s.variableName?, s.inLambda)) == [(some "x", false)]) = true
      ∧ (∀ limits, Grammar.AlikeResults (Grammar.parseWith limits "var x = new { A = 1 };")
        (Grammar.parseWith limits "var x=new{/*one*/A=1} ;"))
      ∧ AlikeDocuments (Document.parse "var x = new { A = 1 };")
        (Document.parse "var x=new{/*one*/A=1} ;") := by
  have htokens : Lexeme.bare (Syntax.lex "var x = new { A = 1 };")
      = Lexeme.bare (Syntax.lex "var x=new{/*one*/A=1} ;") := by decide +kernel
  exact ⟨htokens, by decide +kernel, layout_irrelevant htokens⟩

end Nominal
