import Nominal.Proofs.Detected
import Nominal.Proofs.Splice
import Nominal.Proofs.Typed.Told

/-!
# Trees Without Mistakes in Anonymous Objects

Whether typing reports something is a matter of the tree alone: it must not come across a creation
with a member that has no name of its own. So it can be computed by recursion over the tree, and an
extraction leaves it as it is. The members of a creation keep their names when creations in them
get a type. A creation that gets one has no members any more that could be at fault, and what was
visited in it is visited as before. The declaration has no creations in it.

## Main definitions

* `Tree.overlooks`: Whether typing passes over a node because of the one above it.
* `Tree.isSound`: Whether the creations in a tree that typing visits have members with names of
  their own.

## Theorems

* `forall_creations_ofTree`: This is what typing finds in the program of the tree.
* `Model.silent_iff`: Typing reports nothing about a tree exactly if it is sound.
* `Altered.names_eq`: An alteration leaves the names of the members of creations.
* `Altered.sound`: Altered trees are sound.
-/

namespace Nominal

open Syntax (Tree Kind Lexeme)
open Program (Creation Part AnonMember areApart)

namespace Syntax.Tree

/-- Whether typing passes over a node of a kind below a node. -/
def overlooks (kind : Kind) (children : List Tree) (below : Kind) : Bool :=
  match kind with
  | .param => true
  | .accessor | .constructorDecl => Kind.expressions.contains below
  | .memberAccess => ((children.filterMap leaf?).find? fun l => l.kind == .id).isNone
  | _ => false

/-- The names of the members that are among trees. -/
def memberNames (ts : List Tree) : List (Option String) :=
  (Part.anonMembers (Part.ofTrees 0 ts)).map AnonMember.name?

mutual

/-- Whether the creations in a tree that typing visits have members with names of their own. -/
def isSound : Tree → Bool
  | token _ => true
  | node kind children =>
    (kind != .anonObjectCreation || areApart [] (memberNames children))
      && areSound (overlooks kind children) children

/-- Whether the creations in trees that are not passed over have such members. -/
def areSound (isOver : Kind → Bool) : List Tree → Bool
  | [] => true
  | t :: ts => (isOver t.kind || t.isSound) && areSound isOver ts

end

theorem areSound_append (isOver : Kind → Bool) (ts us : List Tree) :
    areSound isOver (ts ++ us) = (areSound isOver ts && areSound isOver us) := by
  induction ts with
  | nil => rfl
  | cons t ts ih => rw [List.cons_append, areSound, areSound, ih, Bool.and_assoc]

theorem areSound_map_token (isOver : Kind → Bool) (ls : List Lexeme) :
    areSound isOver (ls.map token) = true := by
  induction ls with
  | nil => rfl
  | cons l ls ih => rw [List.map_cons, areSound, isSound, Bool.or_true, ih, Bool.true_and]

end Syntax.Tree

open Syntax.Tree (isSound areSound overlooks memberNames areSound_append areSound_map_token)

/-! ### Names of members -/

namespace Program.Part

/-- The name of a member, if a part is one. -/
def memberName? : Part → Option (Option String)
  | .anonMember m => some m.name?
  | _ => Option.none

theorem map_anonMembers (ps : List Part) :
    (anonMembers ps).map AnonMember.name? = ps.filterMap memberName? := by
  rw [anonMembers, List.map_filterMap]
  congr 1
  funext p
  cases p <;> rfl

/-- The name of a member depends on its tokens and on what its parts bring. -/
theorem memberName?_assemble (kind : Kind) (span span' : Text.Span) {ps qs : List Part}
    (htokens : tokens ps = tokens qs) (hbrought : ps.filterMap brought? = qs.filterMap brought?) :
    (assemble kind span ps).memberName? = (assemble kind span' qs).memberName? := by
  have hsame : ∀ explicit, (AnonMember.mk span explicit (exprAt 0 ps)).name?
      = (AnonMember.mk span' explicit (exprAt 0 qs)).name? := by
    intro explicit
    cases explicit with
    | none =>
        rw [AnonMember.name?_mk_none, AnonMember.name?_mk_none, broughtName?_exprAt,
          broughtName?_exprAt, hbrought]
    | some name => rfl
  cases kind with
  | anonMember =>
      simp only [assemble, memberName?, hasToken, name?, token?, htokens]
      exact congrArg some (hsame _)
  | _ => rfl

end Program.Part

namespace Altered

variable {e : Edit} {ts us : List Tree}

/-- Unless a declaration is put among trees, the leaves among them stay. -/
theorem filterMap_leaf? (h : Altered e false ts us) :
    us.filterMap Tree.leaf? = ts.filterMap Tree.leaf? := by
  generalize hfalse : false = items at h
  induction h with
  | nil => rfl
  | token l _ ih => rw [List.filterMap_cons, List.filterMap_cons, ih hfalse]
  | node kind _ _ _ ih => exact ih hfalse
  | named _ _ _ _ ih => exact ih hfalse
  | declared => cases hfalse

/-- What is picked from trees stays if it stays with each node. A creation that gets a type must
    be overlooked, or picked for what both forms have. -/
theorem filterMap_ofTrees {γ : Type} {pick : Part → Option γ} (h : Altered e false ts us)
    (hnode : ∀ kind cs ds a b, Altered e false cs ds →
      pick (Part.ofTree b (.node kind ds)) = pick (Part.ofTree a (.node kind cs)))
    (hnamed : ∀ cs ds a b,
      pick (Part.ofTree b (nameCreation e.name ds))
        = pick (Part.ofTree a (.node .anonObjectCreation cs))) (a b : Nat) :
    (Part.ofTrees b us).filterMap pick = (Part.ofTrees a ts).filterMap pick := by
  generalize hfalse : false = items at h
  induction h generalizing a b with
  | nil => rfl
  | token l _ ih =>
      rw [Part.ofTrees, Part.ofTrees, List.filterMap_cons, List.filterMap_cons,
        ih _ _ hfalse]
      rfl
  | @node items kind cs ds ts us hcs _ _ ih =>
      subst hfalse
      rw [Part.ofTrees, Part.ofTrees, List.filterMap_cons, List.filterMap_cons,
        hnode kind cs ds a b hcs, ih _ _ rfl]
  | @named items cs ds ts us _ _ _ _ ih =>
      rw [Part.ofTrees, Part.ofTrees, List.filterMap_cons, List.filterMap_cons, hnamed cs ds a b,
        ih _ _ hfalse]
  | declared => cases hfalse

/-- Values bring the same names. A creation brings none, whether its type has a name or not. -/
theorem filterMap_brought? (h : Altered e false ts us) (a b : Nat) :
    (Part.ofTrees b us).filterMap Part.brought? = (Part.ofTrees a ts).filterMap Part.brought? := by
  refine h.filterMap_ofTrees (fun kind cs ds a b hcs => ?_) (fun _ _ _ _ => rfl) a b
  refine Part.brought?_assemble kind _ _ ?_
  rw [Part.tokens_ofTrees, Part.tokens_ofTrees, hcs.filterMap_leaf?]

/-- The members of a creation keep their names. -/
theorem names_eq (h : Altered e false ts us) (a b : Nat) :
    (Part.anonMembers (Part.ofTrees b us)).map AnonMember.name?
      = (Part.anonMembers (Part.ofTrees a ts)).map AnonMember.name? := by
  rw [Part.map_anonMembers, Part.map_anonMembers]
  refine h.filterMap_ofTrees (fun kind cs ds a b hcs => ?_) (fun _ _ _ _ => rfl) a b
  refine Part.memberName?_assemble kind _ _ ?_ (hcs.filterMap_brought? _ _)
  rw [Part.tokens_ofTrees, Part.tokens_ofTrees, hcs.filterMap_leaf?]

end Altered

/-! ### Alterations leave trees sound -/

theorem areSound_asInitializer {ts : List Tree} (h : areSound (fun _ => false) ts = true) :
    areSound (fun _ => false) (ts.map asInitializer) = true := by
  have hinit : ∀ t : Tree, t.isSound = true → (asInitializer t).isSound = true := by
    intro t ht
    unfold asInitializer
    split
    · next ms =>
        -- Neither a member nor a part of an initializer is passed over.
        have hms : areSound (fun _ => false) ms = true := ht
        have hname : areSound (fun _ => false)
            (((impliedName? ms).map nameAssignment).getD []) = true := by
          cases impliedName? ms <;> rfl
        show areSound (fun _ => false) _ = true
        rw [areSound_append, hname, hms, Bool.and_self]
    · exact ht
  induction ts with
  | nil => rfl
  | cons t ts ih =>
      rw [areSound, Bool.false_or, Bool.and_eq_true] at h
      rw [List.map_cons, areSound, Bool.false_or, hinit t h.1, ih h.2, Bool.and_self]

theorem areSound_nameBehind (name : String) {ts : List Tree}
    (h : areSound (fun _ => false) ts = true) :
    areSound (fun _ => false) (ts.flatMap (nameBehind name)) = true := by
  induction ts with
  | nil => rfl
  | cons t ts ih =>
      rw [areSound, Bool.false_or, Bool.and_eq_true] at h
      rw [List.flatMap_cons, areSound_append, ih h.2, Bool.and_true]
      cases t with
      | token l =>
          rw [nameBehind]
          split
          · rfl
          · rfl
      | node kind cs =>
          rw [nameBehind, areSound, areSound, h.1]
          · rfl
          · exact fun _ htoken => by cases htoken

/-- A creation that gets a type is sound if what stands in it is. -/
theorem isSound_nameCreation (name : String) {cs : List Tree}
    (h : areSound (fun _ => false) cs = true) : (nameCreation name cs).isSound = true := by
  rw [← List.takeWhile_append_dropWhile (p := fun t => !isOpening t) (l := cs), areSound_append,
    Bool.and_eq_true] at h
  have hbefore := areSound_nameBehind name (areSound_asInitializer h.1)
  have hbraces := areSound_asInitializer h.2
  have hinit : (Syntax.Tree.node .objectInit
      ((cs.dropWhile fun t => !isOpening t).map asInitializer)).isSound = true := hbraces
  show areSound (fun _ => false) _ = true
  rw [areSound_append, hbefore, areSound, areSound, hinit]
  rfl

/-- What is passed over below a node depends on the leaves among its children. -/
theorem overlooks_congr (kind : Kind) {ts us : List Tree}
    (h : us.filterMap Tree.leaf? = ts.filterMap Tree.leaf?) :
    overlooks kind us = overlooks kind ts := by
  funext below
  unfold overlooks
  rw [h]

/-- A creation is passed over or not, whether its type has a name or not. -/
theorem overlooks_creation (kind : Kind) (ts : List Tree) :
    overlooks kind ts .objectCreation = overlooks kind ts .anonObjectCreation := by
  unfold overlooks
  split
  · rfl
  · rfl
  · rfl
  · rfl
  · rfl

/-- Altered trees are sound. -/
theorem Altered.sound {e : Edit} {items : Bool} {ts us : List Tree} {isOver : Kind → Bool}
    (h : Altered e items ts us) (hdeclaration : e.declaration.isSound = true)
    (hover : isOver .objectCreation = isOver .anonObjectCreation)
    (hts : areSound isOver ts = true) : areSound isOver us = true := by
  induction h generalizing isOver with
  | nil => rfl
  | token l _ ih =>
      rw [areSound, Bool.and_eq_true] at hts ⊢
      exact ⟨hts.1, ih hover hts.2⟩
  | @node items kind cs ds ts us hcs _ ihChildren ih =>
      rw [areSound, Bool.and_eq_true, Bool.or_eq_true] at hts ⊢
      refine ⟨hts.1.imp_right fun hnode => ?_, ih hover hts.2⟩
      -- Only in a namespace there may be more children than before, and it passes over none.
      by_cases hkind : kind = .namespaceDecl
      · subst hkind
        exact ihChildren rfl hnode
      · rw [beq_eq_false_iff_ne.mpr hkind, Bool.and_false] at hcs
        have hnames : memberNames ds = memberNames cs := hcs.names_eq 0 0
        rw [isSound, Bool.and_eq_true] at hnode ⊢
        rw [hnames, overlooks_congr kind hcs.filterMap_leaf?]
        exact ⟨hnode.1, ihChildren (overlooks_creation kind cs) hnode.2⟩
  | @named items cs ds ts us _ _ _ ihChildren ih =>
      rw [areSound, Bool.and_eq_true, Bool.or_eq_true] at hts ⊢
      refine ⟨hts.1.imp (fun hpassed => hover.trans hpassed) fun hnode => ?_, ih hover hts.2⟩
      -- The names of the members do not matter any more, but what is in them does.
      rw [isSound, Bool.and_eq_true] at hnode
      exact isSound_nameCreation e.name (ihChildren rfl hnode.2)
  | @declared cs ds ts us hcs _ ihChildren ih =>
      rw [areSound, Bool.and_eq_true, Bool.or_eq_true] at hts
      rw [areSound, areSound_append, Edit.added, areSound_append, areSound_map_token, areSound,
        hdeclaration, ih hover hts.2, Bool.or_true, Bool.and_eq_true, Bool.or_eq_true]
      exact ⟨hts.1.imp_right fun hnode => ihChildren rfl hnode, rfl⟩

/-! ### The declaration -/

section Declaration

theorem areSound_separated {separator ts : List Tree}
    (hseparator : areSound (fun _ => false) separator = true)
    (hts : areSound (fun _ => false) ts = true) :
    areSound (fun _ => false) (separated separator ts) = true := by
  induction ts with
  | nil => rfl
  | cons t ts ih =>
      rw [areSound, Bool.false_or, Bool.and_eq_true] at hts
      cases ts with
      | nil => rw [separated, areSound, hts.1]; rfl
      | cons u us =>
          have hmore : separated separator (t :: u :: us)
              = t :: (separator ++ separated separator (u :: us)) := rfl
          rw [hmore, areSound, areSound_append, hts.1, hseparator, ih hts.2]
          rfl

mutual

/-- A written type has no creations in it. -/
theorem isSound_type (t : Program.TypeRef) : t.tree.isSound = true := by
  have hdotted : ∀ segments, areSound (fun _ => false) (Program.TypeRef.dotted segments) = true := by
    intro segments
    have hsegments := areSound_map_token (fun _ => false) (segments.map fun s => ⟨.id, s⟩)
    rw [List.map_map] at hsegments
    exact areSound_separated rfl hsegments
  cases t with
  | missing => rfl
  | predefined keyword => cases keyword <;> rfl
  | named segments args =>
      cases args with
      | none => exact hdotted segments
      | some args =>
          have hargs : areSound (fun _ => false)
              (separated [leaf .comma ",", space] (Program.TypeRef.trees args)) = true :=
            areSound_separated rfl (areSound_types args)
          have hlist : (Syntax.Tree.node .typeArgList (leaf .lt "<"
              :: separated [leaf .comma ",", space] (Program.TypeRef.trees args)
                ++ [leaf .gt ">"])).isSound = true := by
            show areSound (fun _ => false) _ = true
            rw [areSound_append, areSound, hargs]
            rfl
          show areSound (fun _ => false) _ = true
          rw [areSound_append, hdotted, areSound, hlist]
          rfl
  | array element =>
      show areSound (fun _ => false) _ = true
      rw [areSound, isSound_type element]
      rfl
  | nullable inner =>
      show areSound (fun _ => false) _ = true
      rw [areSound, isSound_type inner]
      rfl

theorem areSound_types (ts : List Program.TypeRef) :
    areSound (fun _ => false) (Program.TypeRef.trees ts) = true := by
  cases ts with
  | nil => rfl
  | cons t ts =>
      rw [Program.TypeRef.trees, areSound, isSound_type t, areSound_types ts]
      rfl

end

/-- The class of an extraction has no creations in it. -/
theorem isSound_class (form : ClassForm) (layout : Layout) : (form.tree layout).isSound = true := by
  have hline : ∀ indent, areSound (fun _ => false) (ClassForm.lineStart layout indent) = true := by
    intro indent
    rw [ClassForm.lineStart, blanks]
    split
    · rfl
    · rfl
  have hmember : ∀ m : MemberForm, (m.tree form.style).isSound = true := by
    intro m
    cases form.style with
    | property =>
        show areSound (fun _ => false) _ = true
        simp only [areSound, isSound_type m.type]
        rfl
    | field =>
        show areSound (fun _ => false) _ = true
        simp only [areSound, isSound_type m.type]
        rfl
  have hmembers : ∀ ms : List MemberForm, areSound (fun _ => false) (ms.flatMap fun m =>
      ClassForm.lineStart layout (layout.baseIndent ++ form.indent) ++ [m.tree form.style])
        = true := by
    intro ms
    induction ms with
    | nil => rfl
    | cons m ms ih =>
        rw [List.flatMap_cons, areSound_append, areSound_append, hline, ih, areSound, hmember]
        rfl
  show areSound (fun _ => false) _ = true
  simp only [areSound_append, hline, hmembers]
  rfl

end Declaration

/-! ### What typing finds in trees -/

namespace Program.Part

/-- What a node visits is what it does not pass over. -/
theorem visits_iff_overlooks (kind : Kind) (start : Nat) (ts : List Tree) (below : Kind) :
    visits kind (ofTrees start ts) (sortOf below) ↔ overlooks kind ts below = false := by
  have hexpr : sortOf below ≠ .expr ↔ Kind.expressions.contains below = false := by
    cases below <;> decide
  unfold visits overlooks
  split
  · simp
  · exact hexpr
  · exact hexpr
  · rw [name?, Option.isSome_map, token?, tokens_ofTrees, Option.isNone_eq_false_iff]
  · simp

end Program.Part

mutual

/-- Typing finds sound creations in the program of a tree exactly if the tree is sound. -/
theorem forall_creations_ofTree {t : Tree} (ht : t.Conforms) (start : Nat) :
    (∀ x ∈ (Part.ofTree start t).creations, x.isSound = true) ↔ t.isSound = true := by
  cases t with
  | token l => exact iff_of_true (List.forall_mem_nil _) rfl
  | node kind children =>
      cases ht with
      | @node _ _ hfits hopens hchildren =>
          have hnames : (Part.anonMembers (Part.ofTrees start children)).map AnonMember.name?
              = memberNames children :=
            (Altered.refl ⟨"", [], default⟩ false children).names_eq 0 start
          have hinner := forall_creations_ofTrees hchildren start
            (fun p => Part.visits kind (Part.ofTrees start children) p)
            (Part.visits_iff_overlooks kind start children)
          have hwhole : (∀ x ∈ (Part.ofTree start (.node kind children)).creations,
              x.isSound = true) ↔ (kind = .anonObjectCreation →
                areApart [] (memberNames children) = true) ∧
              ∀ p ∈ Part.ofTrees start children,
                Part.visits kind (Part.ofTrees start children) p.sort →
                  ∀ x ∈ p.creations, x.isSound = true := by
            rw [Part.ofTree]
            simp only [Part.mem_creations_assemble _ (Part.hasShape_ofTrees start hfits)]
            constructor
            · refine fun h => ⟨fun hkind => ?_, fun p hp hvisits x hx => h x (.inr ⟨p, hp, hvisits, hx⟩)⟩
              have hhere := h _ (.inl ⟨hkind, rfl⟩)
              rwa [Creation.isSound, Creation.names, hnames] at hhere
            · rintro ⟨hhere, hbelow⟩ x (⟨hkind, rfl⟩ | ⟨p, hp, hvisits, hx⟩)
              · rw [Creation.isSound, Creation.names, hnames]
                exact hhere hkind
              · exact hbelow p hp hvisits x hx
          rw [hwhole, hinner, isSound, Bool.and_eq_true, Bool.or_eq_true, bne_iff_ne,
            Decidable.imp_iff_not_or]

theorem forall_creations_ofTrees {ts : List Tree} (hts : ∀ t ∈ ts, t.Conforms) (start : Nat)
    (visits : Program.PartSort → Prop) {isOver : Kind → Bool}
    (hvisits : ∀ k, visits (Program.sortOf k) ↔ isOver k = false) :
    (∀ p ∈ Part.ofTrees start ts, visits p.sort → ∀ x ∈ p.creations, x.isSound = true)
      ↔ areSound isOver ts = true := by
  cases ts with
  | nil => exact iff_of_true (List.forall_mem_nil _) rfl
  | cons t ts =>
      rw [List.forall_mem_cons] at hts
      rw [Part.ofTrees, List.forall_mem_cons, areSound, Bool.and_eq_true,
        forall_creations_ofTrees hts.2 _ visits hvisits]
      refine and_congr_left fun _ => ?_
      cases t with
      | token l =>
          rw [isSound, Bool.or_true]
          exact iff_of_true (fun _ => List.forall_mem_nil _) rfl
      | node kind children =>
          rw [forall_creations_ofTree hts.1 start, Part.sort_ofTree_node, hvisits, Tree.kind]
          cases isOver kind with
          | false => simp
          | true => simp

end

/-- Typing reports nothing about a tree exactly if it is sound. -/
theorem Model.silent_iff {t : Tree} (ht : t.Conforms) {children : List Tree}
    (hroot : t = .node .root children) : (Model.ofTree t).2 = [] ↔ t.isSound = true := by
  have hitems : Program.creationsOfItems (Program.SourceFile.ofTree t).items
      = (Part.ofTree 0 t).creations := by
    rw [hroot]
    rfl
  rw [← forall_creations_ofTree ht 0, ← hitems]
  exact Typing.told_typeFile _ _ _

end Nominal
