import Nominal.Syntax.Tree

/-!
# Shapes of Nodes

Which nodes may stand below a node of a given kind, and in which order. A shape is a list
of slots, each for one node or for any number of them, and every slot may stay empty: a
tree of a text with mistakes lacks nodes wherever something was missing. Tokens and the
nodes around skipped tokens are left out of account.

What this says is mostly a bound. A binary operation has two operands at most, so looking
for the first and the second one among its children overlooks none.

The creation of an anonymous object is the one node whose tokens matter as well: it opens
with the keyword and a brace, and only trivia stands before and between the two.

## Main definitions

* `Slot`: A place for one node or for several nodes of given kinds.
* `Fits`: A list of kinds goes into slots.
* `Kind.slots`: What may stand below a node of a kind.
* `Opens`: Trees that start with the keyword of a creation and its brace.
* `Conforms`: A tree in which every node has its shape.

## Theorems

* `Fits.append`: What goes into two lists of slots goes into both in turn.
* `Fits.mono`: What goes into narrow slots goes into wide ones.
* `Fits.absorb`: One more node of the right kind goes into a last slot for several.
-/

namespace Nominal

namespace Syntax

namespace Kind

/-- The nodes that are expressions. -/
def expressions : List Kind :=
  [.literal, .nameRef, .thisExpr, .parenExpr, .memberAccess, .call, .indexExpr, .prefixExpr,
   .postfixExpr, .binaryExpr, .assignExpr, .conditionalExpr, .castExpr, .lambda,
   .anonObjectCreation, .objectCreation, .arrayCreation]

/-- The nodes that are types. -/
def types : List Kind := [.predefType, .namedType, .arrayType, .nullableType]

/-- The nodes that are statements. -/
def statements : List Kind :=
  [.block, .localDecl, .exprStmt, .returnStmt, .ifStmt, .foreachStmt]

/-- The nodes that are members of a type. -/
def members : List Kind :=
  [.fieldDecl, .propertyDecl, .methodDecl, .constructorDecl, .typeDecl]

/-- The nodes that are items of a file or of a namespace. -/
def items : List Kind := [.usingDirective, .namespaceDecl, .typeDecl] ++ statements

end Kind

/-- A place for one node or for several nodes of given kinds. It may stay empty. -/
inductive Slot where
  | one (kinds : List Kind)
  | many (kinds : List Kind)
deriving DecidableEq, Repr

/-- A list of kinds goes into slots, from left to right. -/
inductive Fits : List Slot → List Kind → Prop where
  | nil : Fits [] []
  /-- A slot stays empty, or takes no more. -/
  | skip {p : Slot} {ps : List Slot} {ks : List Kind} : Fits ps ks → Fits (p :: ps) ks
  | one {kinds : List Kind} {ps : List Slot} {k : Kind} {ks : List Kind} :
    k ∈ kinds → Fits ps ks → Fits (.one kinds :: ps) (k :: ks)
  | many {kinds : List Kind} {ps : List Slot} {k : Kind} {ks : List Kind} :
    k ∈ kinds → Fits (.many kinds :: ps) ks → Fits (.many kinds :: ps) (k :: ks)

namespace Fits

variable {ps qs : List Slot} {ks ls : List Kind}

theorem empty (ps : List Slot) : Fits ps [] := by
  induction ps with
  | nil => exact .nil
  | cons p ps ih => exact .skip ih

/-- What goes into two lists of slots goes into both in turn. -/
theorem append (h : Fits ps ks) (h' : Fits qs ls) : Fits (ps ++ qs) (ks ++ ls) := by
  induction h with
  | nil => exact h'
  | skip _ ih => exact .skip ih
  | one hk _ ih => exact .one hk ih
  | many hk _ ih => exact .many hk ih

theorem pad (h : Fits ps ks) (qs : List Slot) : Fits (ps ++ qs) ks := by
  have happend := h.append (Fits.empty qs)
  rwa [List.append_nil] at happend

theorem nil_iff : Fits [] ks ↔ ks = [] :=
  ⟨fun h => by cases h; rfl, fun h => by rw [h]; exact .nil⟩

/-- One more node of the right kind goes into a last slot for several. -/
theorem absorb {kinds : List Kind} {k : Kind} (hk : k ∈ kinds)
    (h : Fits (ps ++ [.many kinds]) ks) : Fits (ps ++ [.many kinds]) (ks ++ [k]) := by
  induction ps generalizing ks with
  | nil =>
      induction ks with
      | nil => exact .many hk (.skip .nil)
      | cons l ks ih =>
          cases h with
          | skip h => exact absurd (nil_iff.mp h) (List.cons_ne_nil l ks)
          | many hl h => exact .many hl (ih h)
  | cons p ps ih =>
      rw [List.cons_append] at h ⊢
      induction ks with
      | nil => exact .skip (ih (Fits.empty _))
      | cons l ks ihKs =>
          cases h with
          | skip h => exact .skip (ih h)
          | one hl h => exact .one hl (ih h)
          | many hl h => exact .many hl (ihKs h)

end Fits

namespace Slot

/-- The kinds of the nodes that a slot is for. -/
def kinds : Slot → List Kind
  | one kinds => kinds
  | many kinds => kinds

/-- Whether each of some kinds is among others. -/
def among (ks ls : List Kind) : Bool := ks.all ls.contains

/-- Whether a slot is only for nodes of given kinds. -/
def isAmong (ls : List Kind) (p : Slot) : Bool := among p.kinds ls

/-- Whether whatever goes into some slots goes into others. The slots for several nodes are
    matched greedily, so the answer may be `false` without need. -/
def narrower : List Slot → List Slot → Bool
  | ps, [] => ps.isEmpty
  | .one ks :: ps, .one ls :: qs =>
    (among ks ls && narrower ps qs) || narrower (.one ks :: ps) qs
  | ps, .one _ :: qs => narrower ps qs
  | ps, .many ls :: qs => narrower (ps.dropWhile (isAmong ls)) qs

theorem mem_of_among {ks ls : List Kind} (h : among ks ls = true) {k : Kind} (hk : k ∈ ks) :
    k ∈ ls := by
  rw [among, List.all_eq_true] at h
  exact List.contains_iff_mem.mp (h k hk)

end Slot

namespace Fits

variable {ps qs : List Slot} {ks : List Kind}

/-- What goes into slots that are narrower than one for several nodes starts with such
    nodes. -/
theorem split_narrow {ls : List Kind} (h : Fits ps ks) :
    ∃ xs ys, ks = xs ++ ys ∧ (∀ x ∈ xs, x ∈ ls) ∧
      Fits (ps.dropWhile (Slot.isAmong ls)) ys := by
  induction h with
  | nil => exact ⟨[], [], rfl, nofun, .nil⟩
  | @skip p ps ks h ih =>
      by_cases hp : Slot.isAmong ls p = true
      · rw [List.dropWhile_cons_of_pos hp]
        exact ih
      · rw [List.dropWhile_cons_of_neg hp]
        exact ⟨[], ks, rfl, nofun, .skip h⟩
  | @one kinds ps k ks hk h ih =>
      by_cases hp : Slot.isAmong ls (.one kinds) = true
      · rcases ih with ⟨xs, ys, rfl, hxs, hys⟩
        rw [List.dropWhile_cons_of_pos hp]
        exact ⟨k :: xs, ys, rfl, List.forall_mem_cons.mpr ⟨Slot.mem_of_among hp hk, hxs⟩, hys⟩
      · rw [List.dropWhile_cons_of_neg hp]
        exact ⟨[], k :: ks, rfl, nofun, .one hk h⟩
  | @many kinds ps k ks hk h ih =>
      by_cases hp : Slot.isAmong ls (.many kinds) = true
      · rcases ih with ⟨xs, ys, rfl, hxs, hys⟩
        exact ⟨k :: xs, ys, rfl, List.forall_mem_cons.mpr ⟨Slot.mem_of_among hp hk, hxs⟩, hys⟩
      · rw [List.dropWhile_cons_of_neg hp]
        exact ⟨[], k :: ks, rfl, nofun, .many hk h⟩

theorem many_append {ls xs : List Kind} (hxs : ∀ x ∈ xs, x ∈ ls) (h : Fits ps ks) :
    Fits (.many ls :: ps) (xs ++ ks) := by
  induction xs with
  | nil => exact .skip h
  | cons x xs ih =>
      rw [List.forall_mem_cons] at hxs
      exact .many hxs.1 (ih hxs.2)

/-- What goes into narrow slots goes into wide ones. -/
theorem mono (hn : Slot.narrower ps qs = true) (h : Fits ps ks) : Fits qs ks := by
  induction qs generalizing ps ks with
  | nil =>
      cases ps with
      | nil => exact h
      | cons p ps => cases hn
  | cons q qs ih =>
      cases q with
      | many ls =>
          rcases h.split_narrow with ⟨xs, ys, rfl, hxs, hys⟩
          rw [Slot.narrower] at hn
          exact many_append hxs (ih hn hys)
      | one ls =>
          match ps, hn with
          | [], hn => exact .skip (ih hn h)
          | .many kinds :: ps, hn => exact .skip (ih hn h)
          | .one kinds :: ps, hn =>
              rw [Slot.narrower, Bool.or_eq_true, Bool.and_eq_true] at hn
              rcases hn with ⟨hamong, hn⟩ | hn
              · cases h with
                | skip h => exact .skip (ih hn h)
                | one hk h => exact .one (Slot.mem_of_among hamong hk) (ih hn h)
              · exact .skip (ih hn h)

theorem split (h : Fits (ps ++ qs) ks) :
    ∃ xs ys, ks = xs ++ ys ∧ Fits ps xs ∧ Fits qs ys := by
  induction ps generalizing ks with
  | nil => exact ⟨[], ks, rfl, .nil, h⟩
  | cons p ps ih =>
      rw [List.cons_append] at h
      generalize hrs : p :: (ps ++ qs) = rs at h
      induction h with
      | nil => cases hrs
      | skip h =>
          cases hrs
          rcases ih h with ⟨xs, ys, rfl, hxs, hys⟩
          exact ⟨xs, ys, rfl, .skip hxs, hys⟩
      | one hk h =>
          cases hrs
          rcases ih h with ⟨xs, ys, rfl, hxs, hys⟩
          exact ⟨_ :: xs, ys, rfl, .one hk hxs, hys⟩
      | many hk _ ihMany =>
          cases hrs
          rcases ihMany rfl with ⟨xs, ys, rfl, hxs, hys⟩
          exact ⟨_ :: xs, ys, rfl, .many hk hxs, hys⟩

/-- A last slot may be for more kinds. -/
theorem widen {js ls : List Kind} (hamong : Slot.among js ls = true)
    (h : Fits (ps ++ [.one js]) ks) : Fits (ps ++ [.one ls]) ks := by
  rcases h.split with ⟨xs, ys, rfl, hxs, hys⟩
  refine hxs.append ?_
  cases hys with
  | skip hys => exact .skip hys
  | one hk hys => exact .one (Slot.mem_of_among hamong hk) hys

/-- A last slot for one node is not needed behind one for several such nodes. -/
theorem merge {js ls : List Kind} (hamong : Slot.among js ls = true)
    (h : Fits (ps ++ [.many ls] ++ [.one js]) ks) : Fits (ps ++ [.many ls]) ks := by
  rcases h.split with ⟨xs, ys, rfl, hxs, hys⟩
  cases hys with
  | skip hys =>
      rw [nil_iff.mp hys, List.append_nil]
      exact hxs
  | one hk hys =>
      rw [nil_iff.mp hys]
      exact absorb (Slot.mem_of_among hamong hk) hxs

end Fits

/-- What may stand below a node of a kind. A node around skipped tokens, and what is no
    node at all, have nothing below them. -/
def Kind.slots : Kind → List Slot
  | .root => [.many items]
  | .usingDirective => [.one [.path]]
  | .namespaceDecl => [.one [.path], .many items]
  | .typeDecl => [.one [.baseList], .many members]
  | .baseList | .typeArgList => [.many types]
  | .fieldDecl => [.one types, .many [.varDeclarator]]
  | .propertyDecl => [.one types, .one [.accessorList], .one expressions]
  | .accessorList => [.many [.accessor]]
  | .accessor => [.one (.block :: expressions)]
  | .methodDecl => [.one types, .one [.paramList], .one (.block :: expressions)]
  | .constructorDecl => [.one [.paramList], .one (.block :: expressions)]
  | .paramList => [.many [.param]]
  | .param => [.one types, .one expressions]
  | .namedType => [.one [.typeArgList]]
  | .arrayType | .nullableType => [.one types]
  | .block => [.many statements]
  | .localDecl => [.one types, .many [.varDeclarator]]
  | .varDeclarator | .exprStmt | .returnStmt => [.one expressions]
  | .ifStmt => [.one expressions, .one statements, .one statements]
  | .foreachStmt => [.one types, .one expressions, .one statements]
  | .parenExpr | .memberAccess | .prefixExpr | .postfixExpr => [.one expressions]
  | .call => [.one expressions, .one [.argList]]
  | .argList | .arrayInit => [.many expressions]
  | .indexExpr | .binaryExpr | .assignExpr => [.one expressions, .one expressions]
  | .conditionalExpr => [.one expressions, .one expressions, .one expressions]
  | .castExpr => [.one types, .one expressions]
  | .lambda => [.one [.lambdaParamList], .one (.block :: expressions)]
  | .lambdaParamList => [.many [.lambdaParam]]
  | .anonObjectCreation => [.many [.anonMember]]
  | .anonMember | .memberInit => [.one expressions]
  | .objectCreation => [.one types, .one [.argList], .one [.objectInit]]
  | .objectInit => [.many (.memberInit :: expressions)]
  | .arrayCreation => [.one types, .one expressions, .one [.arrayInit]]
  | _ => []

namespace Tree

/-- The kind of a node, unless it is one around skipped tokens. -/
def nodeKind? : Tree → Option Kind
  | token _ => none
  | node kind _ => if kind = .error then none else some kind

/-- The kinds of the nodes among several trees, without those around skipped tokens. -/
def nodeKinds (ts : List Tree) : List Kind := ts.filterMap nodeKind?

/-- Trees that start with the keyword of a creation and its brace. -/
def Opens (ts : List Tree) : Prop :=
  ∃ (before between : List Lexeme) (keyword brace : Lexeme) (behind : List Tree),
    ts = before.map token ++ token keyword :: (between.map token ++ token brace :: behind) ∧
      (∀ l ∈ before, l.isTrivia = true) ∧ keyword.kind = .kwNew ∧
        (∀ l ∈ between, l.isTrivia = true) ∧ brace.kind = .braceOpen

/-- A tree in which every node has its shape. -/
inductive Conforms : Tree → Prop where
  | token (l : Lexeme) : Conforms (token l)
  | node {kind : Kind} {children : List Tree} : Fits kind.slots (nodeKinds children) →
    (kind = .anonObjectCreation → Opens children) → (∀ t ∈ children, Conforms t) →
    Conforms (node kind children)

theorem nodeKinds_append (ts us : List Tree) :
    nodeKinds (ts ++ us) = nodeKinds ts ++ nodeKinds us :=
  List.filterMap_append

theorem nodeKinds_map_token (ls : List Lexeme) : nodeKinds (ls.map token) = [] := by
  induction ls with
  | nil => rfl
  | cons l ls ih => exact ih

theorem Opens.append {ts : List Tree} (h : Opens ts) (us : List Tree) : Opens (ts ++ us) := by
  rcases h with ⟨before, between, keyword, brace, behind, rfl, hrest⟩
  refine ⟨before, between, keyword, brace, behind ++ us, ?_, hrest⟩
  simp only [List.append_assoc, List.cons_append]

end Tree

end Syntax

end Nominal
