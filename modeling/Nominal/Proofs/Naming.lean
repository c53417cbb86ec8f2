import Nominal.Extraction.Creation
import Nominal.Proofs.Insertion
import Nominal.Proofs.Located
import Nominal.Proofs.Shape

/-!
# Naming Creations Only Inserts

What naming the created type does to the text of a tree. Behind the keyword of each named
creation comes the name, and before each of its members that only brings a name comes that
name with an equals sign. The order in which nodes are listed, parents before their
children, is the order of these places in the text.

Creations may stand inside the members of other creations, and naming goes from the inside
out. So the name that a member brings is asked for when the creations in its value have
been named already. It is the same name as before: naming changes no token of a node that
is not a creation itself, and a creation brings no name.

## Main definitions

* `nameCreations`: What naming makes of a tree, if no creation is in its way.
* `isNamed`: Whether a location is a creation that gets a name.
* `namingAt?`: What is put in at a location.

## Theorems

* `impliedName?_nameCreationsOf`: Naming changes no name that a member brings.
* `nameObjectsAt_eq`: Naming comes by the creations in the order of the text, and fails if one of
  them stands in a lambda.
* `inserted_nameCreations`: Naming the creations of a tree inserts into its text what is put
  in at its locations.
-/

namespace Nominal

open Syntax (Tree Kind Lexeme Location Node)
open Text (Span Insertion Inserted)
open Program (Part Expr AnonMember)

mutual

/-- A tree that starts at an offset, with those of its creations named that `isMeant`
    tells by their spans. -/
def nameCreations (isMeant : Span → Bool) (name : String) (start : Nat) : Tree → Tree
  | .token l => .token l
  | .node kind children =>
    let inner := nameCreationsOf isMeant name start children
    if kind = .anonObjectCreation ∧ isMeant (Span.ofWidth start (Tree.widthOf children)) then
      nameCreation name inner
    else .node kind inner

/-- Trees that stand side by side, with creations in them named. -/
def nameCreationsOf (isMeant : Span → Bool) (name : String) (start : Nat) :
    List Tree → List Tree
  | [] => []
  | t :: ts =>
    nameCreations isMeant name start t :: nameCreationsOf isMeant name (start + t.width) ts

end

/-! ### Names that members bring -/

namespace Syntax

/-- The lexeme of a leaf. -/
def Tree.leaf? : Tree → Option Lexeme
  | token l => some l
  | node .. => none

end Syntax

namespace Program

/-- The name that a value brings. -/
def Expr.broughtName? : Expr → Option String
  | .name _ token => token.map Lexeme.text
  | .member _ _ last => last
  | _ => none

theorem AnonMember.name?_mk_none (span : Span) (value : Expr) :
    (AnonMember.mk span none value).name? = value.broughtName? := by
  cases value <;> rfl

namespace Part

/-- The name that a part brings as a value, if it is an expression. -/
def brought? : Part → Option (Option String)
  | .expr e => some e.broughtName?
  | _ => Option.none

theorem assemble_ne_token (kind : Kind) (span : Span) (ps : List Part) (l : Lexeme) :
    assemble kind span ps ≠ .token l := by
  cases kind <;> nofun

/-- The tokens among the parts of some trees are the leaves among the trees. -/
theorem tokens_ofTrees (start : Nat) (ts : List Tree) :
    tokens (ofTrees start ts) = ts.filterMap Tree.leaf? := by
  induction ts generalizing start with
  | nil => rfl
  | cons t ts ih =>
      cases t with
      | token l =>
          have hcons : tokens (ofTrees start (.token l :: ts))
              = l :: tokens (ofTrees (start + l.width) ts) := rfl
          rw [hcons, ih]
          rfl
      | node kind children =>
          have hcons : tokens (ofTrees start (.node kind children :: ts))
              = tokens (ofTrees (start + Tree.widthOf children) ts) := by
            rw [tokens, ofTrees, ofTree, List.filterMap_cons_none]
            · rfl
            · split
              · next l hl => exact absurd hl (assemble_ne_token _ _ _ _)
              · rfl
          rw [hcons, ih]
          rfl

/-- What a node brings depends on its tokens alone. -/
theorem brought?_assemble (kind : Kind) (span span' : Span) {ps qs : List Part}
    (h : tokens ps = tokens qs) :
    (assemble kind span ps).brought? = (assemble kind span' qs).brought? := by
  cases kind with
  | nameRef =>
      simp only [assemble, expression, brought?, Expr.broughtName?, h]
  | memberAccess =>
      simp only [assemble, expression, brought?, Expr.broughtName?, name?, token?, h]
  | _ => rfl

/-- The first expression among parts brings what the first part that is one brings. -/
theorem broughtName?_exprAt (ps : List Part) :
    (exprAt 0 ps).broughtName? = ((ps.filterMap brought?).head?).getD Option.none := by
  have hmap : ps.filterMap brought? = (exprs ps).map Expr.broughtName? := by
    rw [exprs, List.map_filterMap]
    congr 1
    funext p
    cases p <;> rfl
  rw [hmap, exprAt, List.head?_map, List.head?_eq_getElem?]
  cases (exprs ps)[0]? <;> rfl

end Part

end Program

theorem leaf?_nameCreations (isMeant : Span → Bool) (name : String) (start : Nat) (t : Tree) :
    (nameCreations isMeant name start t).leaf? = t.leaf? := by
  cases t with
  | token l => rfl
  | node kind children =>
      simp only [nameCreations]
      split
      · rfl
      · rfl

theorem leaves_nameCreationsOf (isMeant : Span → Bool) (name : String) (start : Nat)
    (ts : List Tree) :
    (nameCreationsOf isMeant name start ts).filterMap Tree.leaf? = ts.filterMap Tree.leaf? := by
  induction ts generalizing start with
  | nil => rfl
  | cons t ts ih =>
      simp only [nameCreationsOf, List.filterMap_cons, leaf?_nameCreations, ih]

theorem brought?_nameCreations (isMeant : Span → Bool) (name : String) (start a b : Nat)
    (t : Tree) :
    (Part.ofTree a (nameCreations isMeant name start t)).brought? = (Part.ofTree b t).brought? := by
  cases t with
  | token l => rfl
  | node kind children =>
      simp only [nameCreations]
      split
      · next hnamed =>
          -- Neither a creation without a name nor one with a name brings one itself.
          rw [hnamed.1]
          rfl
      · refine Part.brought?_assemble kind _ _ ?_
        rw [Part.tokens_ofTrees, Part.tokens_ofTrees, leaves_nameCreationsOf]

theorem brought_nameCreationsOf (isMeant : Span → Bool) (name : String) (start a b : Nat)
    (ts : List Tree) :
    (Part.ofTrees a (nameCreationsOf isMeant name start ts)).filterMap Part.brought?
      = (Part.ofTrees b ts).filterMap Part.brought? := by
  induction ts generalizing start a b with
  | nil => rfl
  | cons t ts ih =>
      simp only [nameCreationsOf, Part.ofTrees, List.filterMap_cons]
      rw [brought?_nameCreations isMeant name start a b t, ih]

/-- The name that a member brings, from its tokens and what its parts bring. -/
theorem impliedName?_eq (children : List Tree) :
    impliedName? children =
      if ((children.filterMap Tree.leaf?).find? fun l => l.kind == .equals).isSome
          ∧ ((children.filterMap Tree.leaf?).find? fun l => l.kind == .id).isSome then none
      else (((Part.ofTrees 0 children).filterMap Part.brought?).head?).getD none := by
  have hpart : Part.ofTree 0 (.node .anonMember children) = .anonMember (.mk
      (Span.ofWidth 0 (Tree.widthOf children))
      (if Part.hasToken .equals (Part.ofTrees 0 children) then
        Part.name? (Part.ofTrees 0 children) else none)
      (Part.exprAt 0 (Part.ofTrees 0 children))) := rfl
  rw [impliedName?, hpart]
  simp only [AnonMember.explicit, Part.hasToken, Part.name?, Part.token?, Part.tokens_ofTrees]
  cases (children.filterMap Tree.leaf?).find? fun l => l.kind == .equals with
  | none =>
      simp [AnonMember.name?_mk_none, Part.broughtName?_exprAt]
  | some e =>
      cases (children.filterMap Tree.leaf?).find? fun l => l.kind == .id with
      | none => simp [AnonMember.name?_mk_none, Part.broughtName?_exprAt]
      | some n => simp

/-- Naming changes no name that a member brings. -/
theorem impliedName?_nameCreationsOf (isMeant : Span → Bool) (name : String) (start : Nat)
    (children : List Tree) :
    impliedName? (nameCreationsOf isMeant name start children) = impliedName? children := by
  rw [impliedName?_eq, impliedName?_eq, leaves_nameCreationsOf,
    brought_nameCreationsOf isMeant name start 0 0]

/-! ### Creations from their keyword to their brace -/

namespace Syntax

theorem Tree.widthOf_map_token (ls : List Lexeme) (ts : List Tree) :
    Tree.widthOf (ls.map .token ++ ts) = Lexeme.widthOf ls + Tree.widthOf ts := by
  induction ls with
  | nil => exact (Nat.zero_add _).symm
  | cons l ls ih =>
      simp only [List.map_cons, List.cons_append, Tree.widthOf, Tree.width, Lexeme.widthOf, ih,
        Nat.add_assoc]

theorem Tree.locationsOf_tokens (above : List Node) (start index : Nat) (ls : List Lexeme)
    (ts : List Tree) :
    Tree.locationsOf above start index (ls.map .token ++ ts)
      = Tree.locationsOf above (start + Lexeme.widthOf ls) (index + ls.length) ts := by
  induction ls generalizing start index with
  | nil => rfl
  | cons l ls ih =>
      simp only [List.map_cons, List.cons_append, Tree.locationsOf, Tree.locationsAt, Tree.width,
        List.nil_append, ih, Lexeme.widthOf, List.length_cons]
      rw [Nat.add_assoc, Nat.add_assoc, Nat.add_comm 1]

theorem Tree.tokensAt_tokens (start : Nat) (ls : List Lexeme) (ts : List Tree) :
    Tree.tokensAt start (ls.map .token ++ ts)
      = Lexeme.placed start ls ++ Tree.tokensAt (start + Lexeme.widthOf ls) ts := by
  induction ls generalizing start with
  | nil => rfl
  | cons l ls ih =>
      simp only [List.map_cons, List.cons_append, Tree.tokensAt, Lexeme.placed, ih, Lexeme.widthOf,
        Nat.add_assoc]

theorem Lexeme.fst_mem_of_placed {start : Nat} {ls : List Lexeme} {p : Lexeme × Span}
    (h : p ∈ Lexeme.placed start ls) : p.1 ∈ ls := by
  induction ls generalizing start with
  | nil => cases h
  | cons l ls ih =>
      rw [Lexeme.placed, List.mem_cons] at h
      rcases h with rfl | h
      · exact List.mem_cons_self
      · exact List.mem_cons_of_mem l (ih h)

/-- Behind trivia, the keyword of a creation is the first one among its tokens. -/
theorem Node.token?_keyword {n : Node} {before : List Lexeme} {keyword : Lexeme}
    {behind : List Tree} (h : n.children = before.map .token ++ .token keyword :: behind)
    (hbefore : ∀ l ∈ before, l.isTrivia = true) (hkeyword : keyword.kind = .kwNew) :
    n.token? .kwNew
      = some (keyword, Span.ofWidth (n.start + Lexeme.widthOf before) keyword.width) := by
  rw [Node.token?, h, Tree.tokensAt_tokens, List.find?_append]
  have hnone : (Lexeme.placed n.start before).find? (fun t => t.1.kind == .kwNew) = none := by
    rw [List.find?_eq_none]
    intro p hp hkind
    have htrivia := hbefore p.1 (Lexeme.fst_mem_of_placed hp)
    rw [Lexeme.isTrivia, eq_of_beq hkind] at htrivia
    cases htrivia
  rw [hnone, Option.none_or, Tree.tokensAt, List.find?_cons_of_pos]
  rw [hkeyword]
  rfl

end Syntax

theorem nameCreationsOf_tokens (isMeant : Span → Bool) (name : String) (start : Nat)
    (ls : List Lexeme) (ts : List Tree) :
    nameCreationsOf isMeant name start (ls.map .token ++ ts)
      = ls.map .token ++ nameCreationsOf isMeant name (start + Lexeme.widthOf ls) ts := by
  induction ls generalizing start with
  | nil => rfl
  | cons l ls ih =>
      simp only [List.map_cons, List.cons_append, nameCreationsOf, nameCreations, Tree.width, ih,
        Lexeme.widthOf, Nat.add_assoc]

theorem flatMap_nameBehind_trivia (name : String) {ls : List Lexeme}
    (h : ∀ l ∈ ls, l.isTrivia = true) :
    ((ls.map Tree.token).map asInitializer).flatMap (nameBehind name) = ls.map .token := by
  induction ls with
  | nil => rfl
  | cons l ls ih =>
      rw [List.forall_mem_cons] at h
      have hl : l.kind ≠ .kwNew := by
        intro hkind
        rw [Lexeme.isTrivia, hkind] at h
        cases h.1
      rw [List.map_cons, List.map_cons, List.flatMap_cons, ih h.2]
      simp only [asInitializer, nameBehind, if_neg hl, List.singleton_append]

/-- What a creation becomes, from its keyword to its brace and behind it. -/
theorem nameCreation_opens (name : String) {before between : List Lexeme}
    {keyword brace : Lexeme} {behind : List Tree} (hbefore : ∀ l ∈ before, l.isTrivia = true)
    (hkeyword : keyword.kind = .kwNew) (hbetween : ∀ l ∈ between, l.isTrivia = true)
    (hbrace : brace.kind = .braceOpen) :
    nameCreation name
        (before.map .token ++ .token keyword :: (between.map .token ++ .token brace :: behind))
      = .node .objectCreation (before.map .token
          ++ .token keyword :: space :: .node .namedType [leaf .id name]
          :: (between.map .token
            ++ [.node .objectInit (.token brace :: behind.map asInitializer)])) := by
  have hclosed : ∀ ls : List Lexeme, (∀ l ∈ ls, l.isTrivia = true) →
      ∀ t ∈ ls.map Tree.token, (!isOpening t) = true := by
    intro ls hls t ht
    rcases List.mem_map.mp ht with ⟨l, hl, rfl⟩
    have htrivia := hls l hl
    rw [isOpening, Tree.kind, Bool.not_eq_true', beq_eq_false_iff_ne]
    intro hkind
    rw [Lexeme.isTrivia, hkind] at htrivia
    cases htrivia
  have hkw : (fun t => !isOpening t) (.token keyword) = true := by
    simp only [isOpening, Tree.kind, hkeyword]
    rfl
  have hopen : ¬ (fun t => !isOpening t) (.token brace) = true := by
    simp only [isOpening, Tree.kind, hbrace]
    decide
  rw [nameCreation, List.takeWhile_append_of_pos (hclosed before hbefore),
    List.takeWhile_cons_of_pos (p := fun t => !isOpening t) hkw,
    List.takeWhile_append_of_pos (hclosed between hbetween),
    List.takeWhile_cons_of_neg (p := fun t => !isOpening t) hopen,
    List.dropWhile_append_of_pos (hclosed before hbefore),
    List.dropWhile_cons_of_pos (p := fun t => !isOpening t) hkw,
    List.dropWhile_append_of_pos (hclosed between hbetween),
    List.dropWhile_cons_of_neg (p := fun t => !isOpening t) hopen]
  simp only [List.append_nil, List.map_append, List.map_cons, List.flatMap_append,
    List.flatMap_cons]
  rw [flatMap_nameBehind_trivia name hbefore, flatMap_nameBehind_trivia name hbetween]
  simp only [asInitializer, nameBehind, if_pos hkeyword, List.append_assoc, List.cons_append,
    List.nil_append]

/-! ### Insertions -/

/-- Whether a location is a creation that gets a name. -/
def isNamed (isMeant : Span → Bool) (l : Location) : Bool :=
  l.node.kind == .anonObjectCreation && isMeant l.span

/-- What is put in at a location: the name of the type behind the keyword of a creation, or
    the name that a member of a creation brings, before the member. -/
def namingAt? (isMeant : Span → Bool) (name : String) (l : Location) : Option Insertion :=
  match l.node.kind, l.above with
  | .anonObjectCreation, _ =>
    if isNamed isMeant l then
      (l.node.token? .kwNew).map fun t => ⟨t.2.stop, " " ++ name⟩
    else none
  | .anonMember, parent :: above =>
    if isNamed isMeant ⟨parent, above⟩ then
      (impliedName? l.node.children).map fun implied => ⟨l.node.start, implied ++ " = "⟩
    else none
  | _, _ => none

mutual

/-- Naming comes by the creations that are meant in the order of the text, and fails if one of
    them stands in a lambda. -/
theorem nameObjectsAt_eq (isMeant : Span → Bool) (name : String) (start index : Nat)
    (above : List Node) (t : Tree) :
    nameObjectsAt isMeant name (above.any fun n => n.kind == .lambda) start t
      = if ((Tree.locationsAt above start index t).filter (isNamed isMeant)).any
          fun l => l.isUnder .lambda then .error .insideLambda
        else .ok ⟨nameCreations isMeant name start t,
          ((Tree.locationsAt above start index t).filter (isNamed isMeant)).map Location.span⟩ := by
  cases t with
  | token l => rfl
  | node kind children =>
      have ih := nameObjectsOf_eq isMeant name start 0 (⟨kind, children, start, index⟩ :: above)
        children
      rw [List.any_cons, Bool.or_comm] at ih
      cases hmeant : kind == .anonObjectCreation && isMeant (Span.ofWidth start (Tree.widthOf children)) with
      | false =>
          have hhere : ¬isNamed isMeant ⟨⟨kind, children, start, index⟩, above⟩ = true :=
            Bool.eq_false_iff.mp hmeant
          have hplain : ¬(kind = .anonObjectCreation
              ∧ isMeant (Span.ofWidth start (Tree.widthOf children)) = true) := by
            rw [← beq_iff_eq, ← Bool.and_eq_true, hmeant]
            exact Bool.false_ne_true
          rw [nameObjectsAt, Tree.locationsAt, List.filter_cons_of_neg hhere, nameCreations,
            if_neg hplain]
          simp only [hmeant, Bool.false_and, Bool.false_eq_true, if_false, ih]
          split
          · rfl
          · rfl
      | true =>
          have hboth := Bool.and_eq_true_iff.mp hmeant
          have hnamed : kind = .anonObjectCreation
              ∧ isMeant (Span.ofWidth start (Tree.widthOf children)) = true :=
            ⟨eq_of_beq hboth.1, hboth.2⟩
          have hhere : isNamed isMeant ⟨⟨kind, children, start, index⟩, above⟩ = true := hmeant
          have hunder : Location.isUnder ⟨⟨kind, children, start, index⟩, above⟩ .lambda
              = above.any fun n => n.kind == .lambda := by
            rw [Location.isUnder, Location.lineage, List.any_cons, hnamed.1]
            exact Bool.false_or _
          rw [nameObjectsAt, Tree.locationsAt, List.filter_cons_of_pos hhere, nameCreations,
            if_pos hnamed, List.any_cons, hunder]
          simp only [hmeant, Bool.true_and, if_true, ih]
          cases above.any fun n => n.kind == .lambda with
          | true => rfl
          | false =>
              simp only [Bool.false_eq_true, if_false, Bool.false_or]
              split
              · rfl
              · rfl

theorem nameObjectsOf_eq (isMeant : Span → Bool) (name : String) (start index : Nat)
    (above : List Node) (ts : List Tree) :
    nameObjectsOf isMeant name (above.any fun n => n.kind == .lambda) start ts
      = if ((Tree.locationsOf above start index ts).filter (isNamed isMeant)).any
          fun l => l.isUnder .lambda then .error .insideLambda
        else .ok (nameCreationsOf isMeant name start ts,
          ((Tree.locationsOf above start index ts).filter (isNamed isMeant)).map Location.span) := by
  cases ts with
  | nil => rfl
  | cons t ts =>
      rw [nameObjectsOf, nameObjectsAt_eq isMeant name start index above t,
        nameObjectsOf_eq isMeant name (start + t.width) (index + 1) above ts, Tree.locationsOf,
        List.filter_append, List.any_append, List.map_append, nameCreationsOf]
      cases ((Tree.locationsAt above start index t).filter (isNamed isMeant)).any
          fun l => l.isUnder .lambda with
      | true => rfl
      | false =>
          simp only [Bool.false_eq_true, if_false, Bool.false_or]
          split
          · rfl
          · rfl

end

namespace Syntax

/-- The source text of several trees. -/
def Tree.textOf (ts : List Tree) : String := Lexeme.textOf (Tree.leavesOf ts)

theorem Tree.text_node (kind : Kind) (children : List Tree) :
    (Tree.node kind children).text = Tree.textOf children := rfl

theorem Tree.textOf_nil : Tree.textOf [] = "" := rfl

theorem Tree.textOf_cons (t : Tree) (ts : List Tree) :
    Tree.textOf (t :: ts) = t.text ++ Tree.textOf ts :=
  Lexeme.textOf_append _ _

theorem Tree.textOf_append (ts us : List Tree) :
    Tree.textOf (ts ++ us) = Tree.textOf ts ++ Tree.textOf us := by
  rw [Tree.textOf, Tree.leavesOf_append, Lexeme.textOf_append]
  rfl

theorem Tree.widthOf_eq_text (ts : List Tree) :
    Tree.widthOf ts = (Tree.textOf ts).utf8ByteSize := by
  rw [Tree.widthOf_eq, Lexeme.widthOf_eq, Tree.textOf]

theorem Tree.width_eq_text (t : Tree) : t.width = t.text.utf8ByteSize := by
  rw [Tree.width_eq, Lexeme.widthOf_eq, Tree.text]

end Syntax

theorem textOf_nameAssignment (name : String) :
    Tree.textOf (nameAssignment name) = name ++ " = " := by
  simp only [nameAssignment, Tree.textOf, Tree.leavesOf, Tree.leaves, leaf, space, List.append_nil,
    List.singleton_append, Lexeme.textOf, String.append_empty]
  rfl

/-- Only members of creations change on their way into an initializer. -/
theorem asInitializer_of_kind {t : Tree} (h : t.kind ≠ .anonMember) : asInitializer t = t := by
  unfold asInitializer
  split
  · exact absurd rfl h
  · rfl

theorem kind_nameCreations {isMeant : Span → Bool} {name : String} {start : Nat} {t : Tree}
    (h : t.kind ≠ .anonMember) : (nameCreations isMeant name start t).kind ≠ .anonMember := by
  cases t with
  | token l => exact h
  | node kind children =>
      simp only [nameCreations]
      split
      · rw [nameCreation, Tree.kind]
        decide
      · exact h

variable {isMeant : Span → Bool} {name : String}

theorem namingAt?_of_not_named {n : Node} {above : List Node}
    (hn : isNamed isMeant ⟨n, above⟩ = false)
    (hmember : n.kind = .anonMember → ∀ parent rest, above = parent :: rest →
      isNamed isMeant ⟨parent, rest⟩ = false) :
    namingAt? isMeant name ⟨n, above⟩ = none := by
  unfold namingAt?
  split
  · rw [hn]
    rfl
  · next parent rest hkind habove =>
      simp only [hmember hkind parent rest habove, Bool.false_eq_true, if_false]
  · rfl

theorem namingAt?_creation {l : Location} (h : isNamed isMeant l = true) :
    namingAt? isMeant name l
      = (l.node.token? .kwNew).map fun t => ⟨t.2.stop, " " ++ name⟩ := by
  have hkind : l.node.kind = .anonObjectCreation := by
    rw [isNamed, Bool.and_eq_true] at h
    exact eq_of_beq h.1
  simp only [namingAt?, hkind, if_pos h]

theorem namingAt?_member {parent : Node} {above : List Node} {children : List Tree}
    {start index : Nat} (h : isNamed isMeant ⟨parent, above⟩ = true) :
    namingAt? isMeant name ⟨⟨.anonMember, children, start, index⟩, parent :: above⟩
      = (impliedName? children).map fun implied => ⟨start, implied ++ " = "⟩ := by
  simp only [namingAt?, if_pos h]

/-- What naming does behind the brace of a creation. -/
theorem nameCreationsOf_opens (isMeant : Span → Bool) (name : String) (start : Nat)
    {before between : List Lexeme} {keyword brace : Lexeme} {children behind : List Tree}
    (h : children
      = before.map .token ++ .token keyword :: (between.map .token ++ .token brace :: behind)) :
    nameCreationsOf isMeant name start children
      = before.map .token ++ .token keyword :: (between.map .token ++ .token brace
        :: nameCreationsOf isMeant name (start + Lexeme.widthOf before + keyword.width
          + Lexeme.widthOf (between ++ [brace])) behind) := by
  simp only [h, nameCreationsOf_tokens, nameCreationsOf, nameCreations, Tree.width,
    Lexeme.widthOf_append, Lexeme.widthOf, Nat.add_assoc, Nat.add_zero]

theorem sizeOf_behind {before between : List Lexeme} {keyword brace : Lexeme}
    {children behind : List Tree}
    (h : children
      = before.map .token ++ .token keyword :: (between.map .token ++ .token brace :: behind)) :
    sizeOf behind < sizeOf children := by
  have hgrow : ∀ (ls : List Lexeme) (ts : List Tree),
      sizeOf ts ≤ sizeOf (ls.map Tree.token ++ ts) := by
    intro ls ts
    induction ls with
    | nil => exact Nat.le_refl _
    | cons l ls ih =>
        simp only [List.map_cons, List.cons_append, List.cons.sizeOf_spec]
        omega
  have houter := hgrow before (.token keyword :: (between.map .token ++ .token brace :: behind))
  have hinner := hgrow between (.token brace :: behind)
  rw [← h] at houter
  simp only [List.cons.sizeOf_spec] at houter hinner
  omega

/-- All locations of a creation are behind its brace. -/
theorem locationsOf_opens (above : List Node) (start : Nat) {before between : List Lexeme}
    {keyword brace : Lexeme} {children behind : List Tree}
    (h : children
      = before.map .token ++ .token keyword :: (between.map .token ++ .token brace :: behind)) :
    Tree.locationsOf above start 0 children
      = Tree.locationsOf above (start + Lexeme.widthOf before + keyword.width
          + Lexeme.widthOf (between ++ [brace]))
        (before.length + 1 + (between ++ [brace]).length) behind := by
  simp only [h, Tree.locationsOf_tokens, Tree.locationsOf, Tree.locationsAt, Tree.width,
    Lexeme.widthOf_append, Lexeme.widthOf, List.nil_append, List.length_append,
    List.length_singleton, Nat.add_assoc, Nat.add_zero, Nat.zero_add]

/-- The text of a creation with a name is its text with the name behind the keyword and with
    what is put in behind the brace. -/
theorem inserted_creation {start : Nat} {before between : List Lexeme} {keyword brace : Lexeme}
    {behind new : List Tree} {is : List Insertion}
    (h : Inserted (start + Lexeme.widthOf before + keyword.width
      + Lexeme.widthOf (between ++ [brace])) is (Tree.textOf behind) (Tree.textOf new)) :
    Inserted start (⟨start + Lexeme.widthOf before + keyword.width, " " ++ name⟩ :: is)
      (Tree.textOf (before.map .token
        ++ .token keyword :: (between.map .token ++ .token brace :: behind)))
      (Tree.textOf (before.map .token ++ .token keyword :: space
        :: .node .namedType [leaf .id name]
        :: (between.map .token ++ [.node .objectInit (.token brace :: new)]))) := by
  have hfront : (Lexeme.textOf before ++ keyword.text).utf8ByteSize
      = Lexeme.widthOf before + keyword.width := by
    rw [String.utf8ByteSize_append, Lexeme.widthOf_eq, Lexeme.width]
  rw [Lexeme.widthOf_eq (between ++ [brace])] at h
  have hname := (h.keep (Lexeme.textOf (between ++ [brace]))).here (" " ++ name)
  rw [Nat.add_assoc start, ← hfront] at hname ⊢
  have hwhole := hname.keep (Lexeme.textOf before ++ keyword.text)
  simpa only [Tree.textOf, Tree.leavesOf_append, Tree.leavesOf, Tree.leaves, Tree.leavesOf_map_token,
    Lexeme.textOf_append, Lexeme.textOf, space, leaf, List.append_nil, List.nil_append,
    List.cons_append, String.append_assoc, String.append_empty] using hwhole

/-- The text of a member in an initializer is its text with the name before it that it brings,
    and with what is put in inside. -/
theorem inserted_member {parent : Node} {above : List Node} {children : List Tree}
    {start index : Nat} {ls : List Location} (hparent : isNamed isMeant ⟨parent, above⟩ = true)
    (h : Inserted start (ls.filterMap (namingAt? isMeant name)) (Tree.textOf children)
      (Tree.textOf (nameCreationsOf isMeant name start children))) :
    Inserted start
      ((⟨⟨.anonMember, children, start, index⟩, parent :: above⟩ :: ls).filterMap
        (namingAt? isMeant name))
      (Syntax.Tree.node .anonMember children).text
      (asInitializer (nameCreations isMeant name start (.node .anonMember children))).text := by
  have hat : namingAt? isMeant name ⟨⟨.anonMember, children, start, index⟩, parent :: above⟩
      = (impliedName? children).map fun implied => ⟨start, implied ++ " = "⟩ :=
    namingAt?_member hparent
  rw [nameCreations, if_neg (fun hmeant => absurd hmeant.1 nofun), asInitializer,
    impliedName?_nameCreationsOf, Tree.text_node, Tree.text_node, Tree.textOf_append]
  cases himplied : impliedName? children with
  | none =>
      rw [himplied] at hat
      rw [List.filterMap_cons_none hat, Option.map_none, Option.getD_none, Tree.textOf_nil,
        String.empty_append]
      exact h
  | some implied =>
      rw [himplied] at hat
      rw [List.filterMap_cons_some hat, Option.map_some, Option.getD_some, textOf_nameAssignment]
      exact h.here (implied ++ " = ")

mutual

/-- Naming the creations of a tree inserts into its text what is put in at its locations.
    A member right below a named creation is not meant here, as more happens to it. -/
theorem inserted_nameCreations {t : Tree} {above : List Node} {start index : Nat}
    (ht : t.Conforms) (hmember : t.kind = .anonMember → ∀ parent rest, above = parent :: rest →
      isNamed isMeant ⟨parent, rest⟩ = false) :
    Inserted start ((Tree.locationsAt above start index t).filterMap (namingAt? isMeant name))
      t.text (nameCreations isMeant name start t).text := by
  cases t with
  | token l => exact .done start _
  | node kind children =>
      rw [Tree.locationsAt]
      cases ht with
      | @node _ _ hfits hopens hchildren =>
          by_cases hnamed : isNamed isMeant ⟨⟨kind, children, start, index⟩, above⟩ = true
          · have hmeant : kind = .anonObjectCreation
                ∧ isMeant (Span.ofWidth start (Tree.widthOf children)) = true := by
              rw [isNamed, Bool.and_eq_true] at hnamed
              exact ⟨eq_of_beq hnamed.1, hnamed.2⟩
            rcases hopens hmeant.1 with
              ⟨before, between, keyword, brace, behind, hchildrenEq, hbefore, hkeyword, hbetween,
                hbrace⟩
            have hbehind : ∀ t ∈ behind, t.Conforms := by
              intro t ht
              refine hchildren t ?_
              rw [hchildrenEq]
              simp only [List.mem_append, List.mem_cons, ht, or_true]
            have hat : namingAt? isMeant name ⟨⟨kind, children, start, index⟩, above⟩
                = some ⟨start + Lexeme.widthOf before + keyword.width, " " ++ name⟩ := by
              rw [namingAt?_creation hnamed, Node.token?_keyword hchildrenEq hbefore hkeyword]
              rfl
            rw [List.filterMap_cons_some hat, nameCreations, if_pos hmeant,
              nameCreationsOf_opens isMeant name start hchildrenEq,
              nameCreation_opens name hbefore hkeyword hbetween hbrace,
              locationsOf_opens _ start hchildrenEq, Tree.text_node, Tree.text_node,
              congrArg Tree.textOf hchildrenEq]
            exact inserted_creation (inserted_initializer hbehind hnamed)
          · rw [Bool.not_eq_true] at hnamed
            have hunmeant : ¬ (kind = .anonObjectCreation
                ∧ isMeant (Span.ofWidth start (Tree.widthOf children)) = true) := by
              intro hmeant
              rw [isNamed, Bool.and_eq_false_iff] at hnamed
              rcases hnamed with hkind | hspan
              · exact absurd hmeant.1 (beq_eq_false_iff_ne.mp hkind)
              · exact absurd (hmeant.2.symm.trans hspan) nofun
            rw [List.filterMap_cons_none (namingAt?_of_not_named hnamed hmember), nameCreations,
              if_neg hunmeant]
            exact inserted_nameCreationsOf hchildren hnamed
termination_by sizeOf t
decreasing_by
  · have hlt := sizeOf_behind hchildrenEq
    simp_all only [Tree.node.sizeOf_spec]
    omega
  · simp_all only [Tree.node.sizeOf_spec]
    omega

theorem inserted_nameCreationsOf {ts : List Tree} {parent : Node} {above : List Node}
    {start index : Nat} (hts : ∀ t ∈ ts, t.Conforms)
    (hparent : isNamed isMeant ⟨parent, above⟩ = false) :
    Inserted start
      ((Tree.locationsOf (parent :: above) start index ts).filterMap (namingAt? isMeant name))
      (Tree.textOf ts) (Tree.textOf (nameCreationsOf isMeant name start ts)) := by
  cases ts with
  | nil => exact .done start _
  | cons t ts =>
      rw [List.forall_mem_cons] at hts
      have hmember : t.kind = .anonMember → ∀ n rest, parent :: above = n :: rest →
          isNamed isMeant ⟨n, rest⟩ = false := by
        intro _ n rest habove
        rw [List.cons.injEq] at habove
        rw [← habove.1, ← habove.2]
        exact hparent
      rw [Tree.locationsOf, List.filterMap_append, Tree.textOf_cons, nameCreationsOf,
        Tree.textOf_cons]
      refine (inserted_nameCreations hts.1 hmember).append ?_
      rw [← Tree.width_eq_text]
      exact inserted_nameCreationsOf hts.2 hparent
termination_by sizeOf ts

/-- The same for the parts of a named creation, which become those of an initializer. -/
theorem inserted_initializer {ts : List Tree} {parent : Node} {above : List Node}
    {start index : Nat} (hts : ∀ t ∈ ts, t.Conforms)
    (hparent : isNamed isMeant ⟨parent, above⟩ = true) :
    Inserted start
      ((Tree.locationsOf (parent :: above) start index ts).filterMap (namingAt? isMeant name))
      (Tree.textOf ts)
      (Tree.textOf ((nameCreationsOf isMeant name start ts).map asInitializer)) := by
  cases ts with
  | nil => exact .done start _
  | cons t ts =>
      rw [List.forall_mem_cons] at hts
      have hfirst : Inserted start
          ((Tree.locationsAt (parent :: above) start index t).filterMap (namingAt? isMeant name))
          t.text (asInitializer (nameCreations isMeant name start t)).text := by
        by_cases hkind : t.kind = .anonMember
        · cases t with
          | token l => exact .done start _
          | node kind children =>
              cases hkind
              cases hts.1 with
              | @node _ _ hfits hopens hchildren =>
                  rw [Tree.locationsAt]
                  exact inserted_member hparent (inserted_nameCreationsOf hchildren rfl)
        · rw [asInitializer_of_kind (kind_nameCreations hkind)]
          exact inserted_nameCreations hts.1 fun h => absurd h hkind
      rw [Tree.locationsOf, List.filterMap_append, Tree.textOf_cons, nameCreationsOf, List.map_cons,
        Tree.textOf_cons]
      refine hfirst.append ?_
      rw [← Tree.width_eq_text]
      exact inserted_initializer hts.2 hparent
termination_by sizeOf ts

end

end Nominal
