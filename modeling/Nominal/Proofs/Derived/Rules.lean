import Mathlib.Computability.Language
import Mathlib.Order.CompletePartialOrder
import Nominal.Proofs.Shape
import Nominal.Syntax.KindSet

/-!
# The Rules of the Grammar

What stands below a node of a text without mistakes, tokens included. A rule is a regular
expression over kinds, and every kind of node has one. Trivia is left out of account. A tree
is derived if the children of each of its nodes spell a word of its rule.

The rules mention brackets in pairs only. So brackets are balanced in a derived tree, which is
an induction over trees with one over rules inside. That a node has certain parts is read off
its rule as well, by filling the parts in from left to right as the rule goes on; where the
rule leaves a choice, only what both ways fill counts.

## Main definitions

* `Phrase`, `Phrase.words`: A regular expression over kinds, and what it stands for.
* `Kind.rule`: What stands below a node of a kind.
* `Tree.IsDerived`: A tree in which every node follows its rule.
* `openBrackets`: The brackets that are open behind some tokens.
* `Phrase.fill`, `Has`: The parts that a rule leaves missing, and kinds that hold given parts.

## Theorems

* `Tree.IsDerived.balanced`: Brackets are balanced in a derived tree.
* `Phrase.mem_kinds`: A word consists of kinds that the rule mentions.
* `Has.fill`: What a rule fills in is there in all its words.
-/

namespace Nominal

namespace Syntax

open scoped Computability

/-- The brackets that have to be balanced. -/
inductive Bracket where
  | round | square | curly
deriving DecidableEq, Repr

namespace Bracket

/-- The token that opens a bracket. -/
@[simp]
def opening : Bracket → Kind
  | round => .parenOpen
  | square => .bracketOpen
  | curly => .braceOpen

/-- The token that closes a bracket. -/
@[simp]
def closing : Bracket → Kind
  | round => .parenClose
  | square => .bracketClose
  | curly => .braceClose

/-- The bracket that a token opens. -/
def opened? : Kind → Option Bracket
  | .parenOpen => some round
  | .bracketOpen => some square
  | .braceOpen => some curly
  | _ => none

/-- The bracket that a token closes. -/
def closed? : Kind → Option Bracket
  | .parenClose => some round
  | .bracketClose => some square
  | .braceClose => some curly
  | _ => none

end Bracket

/-- The brackets that are open behind some tokens, the innermost first, if `stack` are open
    before them. There are none if a token closes another bracket than the innermost. -/
def openBrackets (stack : List Bracket) : List Kind → Option (List Bracket)
  | [] => some stack
  | k :: ks =>
    match Bracket.opened? k, Bracket.closed? k, stack with
    | some b, _, stack => openBrackets (b :: stack) ks
    | none, none, stack => openBrackets stack ks
    | none, some b, c :: stack => if b = c then openBrackets stack ks else none
    | none, some _, [] => none

/-- The words of one kind out of a list. -/
def oneOf (kinds : List Kind) : Language Kind := {w | ∃ k ∈ kinds, w = [k]}

/-- A regular expression over kinds, with brackets in pairs. -/
inductive Phrase where
  | never
  | empty
  | one (kinds : List Kind)
  | seq (first second : Phrase)
  | either (first second : Phrase)
  | any (rule : Phrase)
  | within (bracket : Bracket) (rule : Phrase)

namespace Phrase

/-- What a rule stands for. -/
def words : Phrase → Language Kind
  | never => 0
  | empty => 1
  | one kinds => oneOf kinds
  | seq r s => r.words * s.words
  | either r s => r.words + s.words
  | any r => r.words∗
  | within b r => oneOf [b.opening] * r.words * oneOf [b.closing]

instance : One Phrase := ⟨empty⟩

instance : Mul Phrase := ⟨seq⟩

instance : Add Phrase := ⟨either⟩

@[simp]
theorem words_one : (1 : Phrase).words = 1 := rfl

@[simp]
theorem words_mul (r s : Phrase) : (r * s).words = r.words * s.words := rfl

@[simp]
theorem words_add (r s : Phrase) : (r + s).words = r.words + s.words := rfl

/-- A single kind. -/
def just (k : Kind) : Phrase := one [k]

/-- A kind out of a list. -/
theorem just_le {k : Kind} {kinds : List Kind} (hk : k ∈ kinds) :
    (just k).words ≤ (one kinds).words := by
  rintro w ⟨j, hj, rfl⟩
  rw [List.mem_singleton.mp hj]
  exact ⟨k, hk, rfl⟩

@[simp]
theorem words_never : never.words = 0 := rfl

@[simp]
theorem words_any (r : Phrase) : (any r).words = r.words∗ := rfl

@[simp]
theorem words_within (b : Bracket) (r : Phrase) :
    (within b r).words = (just b.opening).words * r.words * (just b.closing).words := rfl

/-- What may be left out. -/
@[simp]
def maybe (r : Phrase) : Phrase := r + 1

/-- At least one, with a comma between them. -/
@[simp]
def list (r : Phrase) : Phrase := r * any (just .comma * r)

/-- Any number, with a comma between them and perhaps behind the last. -/
@[simp]
def commas (r : Phrase) : Phrase := any (r * just .comma) * maybe r

/-- An expression. -/
def expr : Phrase := one Kind.expressions

/-- A type. -/
def type : Phrase := one Kind.types

/-- A statement. -/
def stmt : Phrase := one Kind.statements

/-- Any modifiers. -/
def modifiers : Phrase := any (one KindSet.modifiers.toList)

/-- A dotted name. -/
@[simp]
def dotted : Phrase := just .id * any (just .dot * just .id)

/-- The body of a method or an accessor. -/
@[simp]
def body : Phrase := just .block + just .fatArrow * expr * just .semicolon + just .semicolon

end Phrase

/-- The operators that stand between two operands. -/
def binaryOps : List Kind :=
  [.questionQuestion, .pipePipe, .ampAmp, .eqEq, .bangEq, .lt, .gt, .ltEq, .gtEq, .plus, .minus,
   .star, .slash, .percent]

open Phrase in
/-- What stands below a node of a kind. Nothing is a node around skipped tokens. -/
@[simp]
def Kind.rule : Kind → Phrase
  | .root => any (one Kind.items)
  | .usingDirective => just .kwUsing * just .path * just .semicolon
  | .namespaceDecl =>
    just .kwNamespace * just .path
      * (just .semicolon * any (one Kind.items) + within .curly (any (one Kind.items)))
  | .path => dotted
  | .typeDecl =>
    modifiers * one [.kwClass, .kwStruct] * just .id * maybe (just .baseList)
      * within .curly (any (one Kind.members))
  | .baseList => just .colon * any (type * just .comma) * type
  | .typeArgList => just .lt * any (type * just .comma) * type * just .gt
  | .fieldDecl => modifiers * type * list (just .varDeclarator) * just .semicolon
  | .propertyDecl =>
    modifiers * type * just .id
      * (just .accessorList * maybe (just .equals * expr * just .semicolon)
        + just .fatArrow * expr * just .semicolon)
  | .accessorList => within .curly (any (just .accessor))
  | .accessor => modifiers * just .id * body
  | .methodDecl => modifiers * (type + just .kwVoid) * just .id * just .paramList * body
  | .constructorDecl => modifiers * just .id * just .paramList * body
  | .paramList => within .round (commas (just .param))
  | .param => type * just .id * maybe (just .equals * expr)
  | .predefType => just .predefinedType
  | .namedType => dotted * maybe (just .typeArgList)
  | .arrayType => type * within .square 1
  | .nullableType => type * just .question
  | .block => within .curly (any stmt)
  | .localDecl => (just .kwVar + type) * list (just .varDeclarator) * just .semicolon
  | .varDeclarator => just .id * maybe (just .equals * expr)
  | .exprStmt => maybe expr * just .semicolon
  | .returnStmt => just .kwReturn * maybe expr * just .semicolon
  | .ifStmt => just .kwIf * within .round expr * stmt * maybe (just .kwElse * stmt)
  | .foreachStmt =>
    just .kwForeach * within .round ((just .kwVar + type) * just .id * just .kwIn * expr) * stmt
  | .literal => one KindSet.literals.toList
  | .nameRef => one [.id, .predefinedType]
  | .thisExpr => just .kwThis
  | .parenExpr => within .round expr
  | .memberAccess => expr * just .dot * just .id
  | .call => expr * just .argList
  | .argList => within .round (commas expr)
  | .indexExpr => expr * within .square expr
  | .prefixExpr => one KindSet.prefixOps.toList * expr
  | .postfixExpr => expr * one [.plusPlus, .minusMinus]
  | .binaryExpr => expr * one binaryOps * expr
  | .assignExpr => expr * one KindSet.assignOps.toList * expr
  | .conditionalExpr => expr * just .question * expr * just .colon * expr
  | .castExpr => within .round type * expr
  | .lambda => just .lambdaParamList * just .fatArrow * (just .block + expr)
  | .lambdaParamList => just .lambdaParam + within .round (commas (just .lambdaParam))
  | .lambdaParam => just .id
  | .anonObjectCreation => just .kwNew * within .curly (commas (just .anonMember))
  | .anonMember => maybe (just .id * just .equals) * expr
  | .objectCreation =>
    just .kwNew * type * (just .argList * maybe (just .objectInit) + just .objectInit)
  | .objectInit => within .curly (commas (just .memberInit + expr))
  | .memberInit => just .id * just .equals * expr
  | .arrayCreation =>
    just .kwNew * (type * (within .square expr * maybe (just .arrayInit) + just .arrayInit)
      + within .square 1 * just .arrayInit)
  | .arrayInit => within .curly (commas expr)
  | _ => never

namespace Tree

/-- What several trees spell: their kinds, without trivia. -/
def word (ts : List Tree) : List Kind := (ts.map kind).filter fun k => !k.isTrivia

/-- A tree in which every node follows its rule. -/
inductive IsDerived : Tree → Prop where
  | token (l : Lexeme) : IsDerived (token l)
  | node {kind : Kind} {children : List Tree} : word children ∈ kind.rule.words →
    (∀ t ∈ children, IsDerived t) → IsDerived (node kind children)

theorem word_append (ts us : List Tree) : word (ts ++ us) = word ts ++ word us := by
  rw [word, List.map_append, List.filter_append]
  rfl

theorem word_map_token {ls : List Lexeme} (h : ∀ l ∈ ls, l.isTrivia = true) :
    word (ls.map token) = [] := by
  rw [word, List.filter_eq_nil_iff]
  intro k hk
  rcases List.mem_map.mp hk with ⟨t, ht, rfl⟩
  rcases List.mem_map.mp ht with ⟨l, hl, rfl⟩
  have htrivia : l.kind.isTrivia = true := h l hl
  rw [kind, htrivia]
  exact Bool.false_ne_true

/-- A word in two parts is spelt by trees in two parts. -/
theorem word_eq_append {ts : List Tree} {v w : List Kind} (h : word ts = v ++ w) :
    ∃ us vs, ts = us ++ vs ∧ word us = v ∧ word vs = w := by
  rcases List.filter_eq_append_iff.mp h with ⟨js, ks, hmap, rfl, rfl⟩
  rcases List.map_eq_append_iff.mp hmap with ⟨us, vs, rfl, rfl, rfl⟩
  exact ⟨us, vs, rfl, rfl, rfl⟩

end Tree

namespace Phrase

theorem mem_within {b : Bracket} {r : Phrase} {w : List Kind} :
    w ∈ (within b r).words ↔ ∃ v ∈ r.words, w = b.opening :: v ++ [b.closing] := by
  constructor
  · intro h
    rcases Language.mem_mul.mp h with ⟨u, hu, _, ⟨c, hc, rfl⟩, rfl⟩
    rcases Language.mem_mul.mp hu with ⟨_, ⟨o, ho, rfl⟩, v, hv, rfl⟩
    rw [List.mem_singleton.mp ho, List.mem_singleton.mp hc]
    exact ⟨v, hv, rfl⟩
  · rintro ⟨v, hv, rfl⟩
    refine Language.append_mem_mul (a := [b.opening] ++ v) (Language.append_mem_mul ?_ hv) ?_
    · exact ⟨_, List.mem_singleton_self _, rfl⟩
    · exact ⟨_, List.mem_singleton_self _, rfl⟩

/-! ### The kinds that a rule mentions -/

/-- The kinds that a rule mentions. -/
def kinds : Phrase → List Kind
  | never | empty => []
  | one kinds => kinds
  | seq r s | either r s => r.kinds ++ s.kinds
  | any r => r.kinds
  | within b r => [b.opening, b.closing] ++ r.kinds

/-- A word consists of kinds that the rule mentions. -/
theorem mem_kinds {r : Phrase} {w : List Kind} (hw : w ∈ r.words) {k : Kind} (hk : k ∈ w) :
    k ∈ r.kinds := by
  induction r generalizing w with
  | never => exact absurd hw (Language.notMem_zero w)
  | empty =>
      rw [words, Language.mem_one] at hw
      rw [hw] at hk
      cases hk
  | one kinds =>
      rcases hw with ⟨j, hj, rfl⟩
      rw [List.mem_singleton.mp hk]
      exact hj
  | seq r s ihr ihs =>
      rcases Language.mem_mul.mp hw with ⟨u, hu, v, hv, rfl⟩
      rcases List.mem_append.mp hk with hk | hk
      · exact List.mem_append_left _ (ihr hu hk)
      · exact List.mem_append_right _ (ihs hv hk)
  | either r s ihr ihs =>
      rcases (Language.mem_add _ _ _).mp hw with hw | hw
      · exact List.mem_append_left _ (ihr hw hk)
      · exact List.mem_append_right _ (ihs hw hk)
  | any r ih =>
      rcases Language.mem_kstar.mp hw with ⟨ws, rfl, hws⟩
      rcases List.mem_flatten.mp hk with ⟨v, hv, hk⟩
      exact ih (hws v hv) hk
  | within b r ih =>
      rcases mem_within.mp hw with ⟨v, hv, rfl⟩
      rw [kinds]
      rcases List.mem_append.mp hk with hk | hk
      · rcases List.mem_cons.mp hk with rfl | hk
        · exact List.mem_cons_self ..
        · exact List.mem_append_right _ (ih hv hk)
      · rw [List.mem_singleton.mp hk]
        exact List.mem_cons_of_mem _ (List.mem_cons_self ..)

/-! ### Balanced brackets -/

/-- Whether a kind is that of a token which opens or closes a bracket. -/
def isBracket (k : Kind) : Bool := (Bracket.opened? k).isSome || (Bracket.closed? k).isSome

/-- Whether brackets are mentioned in pairs only. -/
def isPaired : Phrase → Bool
  | never | empty => true
  | one kinds => kinds.all fun k => !isBracket k
  | seq r s | either r s => r.isPaired && s.isPaired
  | any r | within _ r => r.isPaired

theorem isPaired_rule (k : Kind) : k.rule.isPaired = true := by
  cases k <;> decide

end Phrase

/-- Tokens behind which the same brackets are open as before them. -/
def Balanced (ks : List Kind) : Prop :=
  ∀ (stack : List Bracket) (ls : List Kind), openBrackets stack (ks ++ ls) = openBrackets stack ls

namespace Balanced

variable {ks ls : List Kind}

theorem nil : Balanced [] := fun _ _ => rfl

theorem append (hk : Balanced ks) (hl : Balanced ls) : Balanced (ks ++ ls) := by
  intro stack js
  rw [List.append_assoc, hk, hl]

theorem plain {k : Kind} (hk : Phrase.isBracket k = false) : Balanced [k] := by
  rw [Phrase.isBracket, Bool.or_eq_false_iff] at hk
  simp only [Option.isSome_eq_false_iff, Option.isNone_iff_eq_none] at hk
  intro stack js
  simp only [List.singleton_append, openBrackets, hk.1, hk.2]

theorem within (hk : Balanced ks) (b : Bracket) : Balanced (b.opening :: ks ++ [b.closing]) := by
  intro stack js
  cases b <;>
    simp only [Bracket.opening, Bracket.closing, List.cons_append, List.append_assoc,
      List.nil_append, openBrackets, Bracket.opened?, Bracket.closed?, hk (_ :: stack), if_true]

theorem openBrackets_eq (hk : Balanced ks) (stack : List Bracket) :
    openBrackets stack ks = some stack := by
  have h := hk stack []
  rwa [List.append_nil] at h

end Balanced

namespace Tree

/-- The kinds of the leaves of several trees. -/
def leafKinds (ts : List Tree) : List Kind := (leavesOf ts).map Lexeme.kind

theorem leafKinds_append (ts us : List Tree) :
    leafKinds (ts ++ us) = leafKinds ts ++ leafKinds us := by
  rw [leafKinds, leavesOf_append, List.map_append]
  rfl

theorem leafKinds_cons (t : Tree) (ts : List Tree) :
    leafKinds (t :: ts) = leafKinds [t] ++ leafKinds ts := leafKinds_append [t] ts

theorem isBracket_of_isTrivia {k : Kind} (h : k.isTrivia = true) : Phrase.isBracket k = false := by
  cases k <;> first | rfl | cases h

/-- The nodes among trees are balanced inside and are no brackets themselves. -/
def IsClosed (ts : List Tree) : Prop :=
  ∀ kind children, node kind children ∈ ts →
    Phrase.isBracket kind = false ∧ Balanced (leafKinds children)

namespace IsClosed

variable {ts us : List Tree}

theorem left (h : IsClosed (ts ++ us)) : IsClosed ts :=
  fun k cs hk => h k cs (List.mem_append_left us hk)

theorem right (h : IsClosed (ts ++ us)) : IsClosed us :=
  fun k cs hk => h k cs (List.mem_append_right ts hk)

/-- Trees that spell no bracket are balanced. -/
theorem plain (h : IsClosed ts) (hw : ∀ k ∈ word ts, Phrase.isBracket k = false) :
    Balanced (leafKinds ts) := by
  induction ts with
  | nil => exact .nil
  | cons t ts ih =>
      rw [show t :: ts = [t] ++ ts from rfl, word_append] at hw
      rw [leafKinds_cons]
      have hrest : IsClosed ts := fun k cs hk => h k cs (List.mem_cons_of_mem t hk)
      refine .append ?_ (ih hrest fun k hk => hw k (List.mem_append_right _ hk))
      cases t with
      | token l =>
          refine .plain ?_
          cases hl : l.kind.isTrivia with
          | true => exact isBracket_of_isTrivia hl
          | false =>
              refine hw l.kind (List.mem_append_left _ (List.mem_filter.mpr ⟨?_, ?_⟩))
              · exact List.mem_singleton_self _
              · rw [hl]
                rfl
      | node kind children =>
          rw [leafKinds, leavesOf, leavesOf, List.append_nil]
          exact (h kind children (List.mem_cons_self ..)).2

/-- Trees that spell a bracket have the bracket as a leaf. -/
theorem bracket (h : IsClosed ts) {k : Kind} (hk : Phrase.isBracket k = true)
    (hw : word ts = [k]) :
    ∃ before behind, leafKinds ts = before ++ k :: behind ∧ Balanced before ∧ Balanced behind := by
  rcases List.filter_eq_cons_iff.mp hw with ⟨js, ks, hmap, hjs, _, hks⟩
  rcases List.map_eq_append_iff.mp hmap with ⟨us, vs, rfl, rfl, hvs⟩
  rcases List.map_eq_cons_iff.mp hvs with ⟨t, vs, rfl, rfl, rfl⟩
  have hbefore : word us = [] := List.filter_eq_nil_iff.mpr hjs
  have hbehind : word vs = [] := hks
  have hclosed : IsClosed vs := fun k cs hk => h.right k cs (List.mem_cons_of_mem t hk)
  refine ⟨leafKinds us, leafKinds vs, ?_, h.left.plain ?_, hclosed.plain ?_⟩
  · rw [leafKinds_append, leafKinds_cons]
    cases t with
    | token l => rfl
    | node kind children =>
        have hkind := (h kind children (List.mem_append_right _ (List.mem_cons_self ..))).1
        exact absurd (hkind.symm.trans hk) Bool.false_ne_true
  · rw [hbefore]
    exact nofun
  · rw [hbehind]
    exact nofun

/-- Trees that spell a word of a rule with brackets in pairs are balanced. -/
theorem balanced (h : IsClosed ts) {r : Phrase} (hr : r.isPaired = true)
    (hw : word ts ∈ r.words) : Balanced (leafKinds ts) := by
  induction r generalizing ts with
  | never => exact absurd hw (Language.notMem_zero _)
  | empty =>
      refine h.plain ?_
      rw [(Language.mem_one _).mp hw]
      exact nofun
  | one kinds =>
      refine h.plain fun k hk => ?_
      rw [Phrase.isPaired, List.all_eq_true] at hr
      exact (Bool.not_eq_true' _).mp (hr k (Phrase.mem_kinds hw hk))
  | seq r s ihr ihs =>
      rw [Phrase.isPaired, Bool.and_eq_true] at hr
      rcases Language.mem_mul.mp hw with ⟨u, hu, v, hv, huv⟩
      rcases word_eq_append huv.symm with ⟨us, vs, rfl, rfl, rfl⟩
      rw [leafKinds_append]
      exact .append (ihr h.left hr.1 hu) (ihs h.right hr.2 hv)
  | either r s ihr ihs =>
      rw [Phrase.isPaired, Bool.and_eq_true] at hr
      rcases (Language.mem_add _ _ _).mp hw with hw | hw
      · exact ihr h hr.1 hw
      · exact ihs h hr.2 hw
  | any r ih =>
      rcases Language.mem_kstar.mp hw with ⟨ws, hts, hws⟩
      induction ws generalizing ts with
      | nil =>
          refine h.plain ?_
          rw [hts]
          exact nofun
      | cons w ws ihWords =>
          rw [List.flatten_cons] at hts
          rcases word_eq_append hts with ⟨us, vs, rfl, rfl, hvs⟩
          rw [List.forall_mem_cons] at hws
          rw [leafKinds_append]
          refine .append (ih h.left hr hws.1) (ihWords h.right ?_ hvs hws.2)
          rw [hvs]
          exact Language.join_mem_kstar hws.2
  | within b r ih =>
      rcases Phrase.mem_within.mp hw with ⟨v, hv, hts⟩
      rcases word_eq_append hts with ⟨us, cs, rfl, hus, hcs⟩
      rcases word_eq_append (v := [b.opening]) hus with ⟨os, vs, rfl, hos, rfl⟩
      have hopening : Phrase.isBracket b.opening = true := by cases b <;> rfl
      have hclosing : Phrase.isBracket b.closing = true := by cases b <;> rfl
      rcases h.left.left.bracket hopening hos with ⟨o, o', ho, hbefore, hinside⟩
      rcases h.right.bracket hclosing hcs with ⟨c, c', hc, hinside', hbehind⟩
      have hmiddle := ih h.left.right hr hv
      have hall : leafKinds (os ++ vs ++ cs)
          = o ++ (b.opening :: (o' ++ leafKinds vs ++ c) ++ [b.closing]) ++ c' := by
        rw [leafKinds_append, leafKinds_append, ho, hc]
        simp only [List.append_assoc, List.cons_append, List.nil_append]
      have hbetween := (hinside.append hmiddle).append hinside'
      rw [hall]
      exact .append (.append hbefore (hbetween.within b)) hbehind

end IsClosed

theorem isBracket_of_mem_rule {k : Kind} {w : List Kind} (h : w ∈ k.rule.words) :
    Phrase.isBracket k = false := by
  cases k <;> first | rfl | exact absurd h (Language.notMem_zero w)

/-- Brackets are balanced in a derived tree. -/
theorem IsDerived.balanced {kind : Kind} {children : List Tree}
    (h : IsDerived (Tree.node kind children)) : Balanced (leafKinds children) := by
  have hclosed : ∀ {t : Tree}, IsDerived t → IsClosed [t] := by
    intro t ht
    induction ht with
    | token l =>
        intro kind children hmem
        cases List.mem_singleton.mp hmem
    | @node kind children hword _ ih =>
        intro k cs hmem
        cases List.mem_singleton.mp hmem
        have hchildren : IsClosed children :=
          fun k cs hk => ih _ hk k cs (List.mem_singleton_self _)
        exact ⟨isBracket_of_mem_rule hword, hchildren.balanced (Phrase.isPaired_rule kind) hword⟩
  exact (hclosed h kind children (List.mem_singleton_self _)).2

end Tree

namespace Phrase

/-! ### Parts that must be there -/

/-- The parts that are missing still, if a node of one of some kinds is there. -/
def fillOne (kinds : List Kind) : List (List Kind) → List (List Kind)
  | [] => []
  | part :: parts => if Slot.among kinds part then parts else part :: parts

/-- The parts that a rule leaves missing. Each is given by the kinds that will do. -/
def fill : Phrase → List (List Kind) → List (List Kind)
  | never, _ => []
  | empty, parts => parts
  | one kinds, parts => fillOne kinds parts
  | seq r s, parts => s.fill (r.fill parts)
  | either r s, parts => if r.fill parts = s.fill parts then r.fill parts else parts
  | any _, parts => parts
  | within b r, parts => fillOne [b.closing] (r.fill (fillOne [b.opening] parts))

end Phrase

/-- Some kinds hold the given parts, in their order and perhaps with others between them. -/
abbrev Has (parts : List (List Kind)) (ks : List Kind) : Prop :=
  List.SublistForall₂ (fun part k => k ∈ part) parts ks

namespace Has

variable {parts : List (List Kind)} {ks : List Kind}

theorem behind (h : Has parts ks) (js : List Kind) : Has parts (js ++ ks) := by
  induction js with
  | nil => exact h
  | cons j js ih => exact .cons_right ih

theorem fillOne {kinds : List Kind} {k : Kind} (hk : k ∈ kinds)
    (h : Has (Phrase.fillOne kinds parts) ks) : Has parts (k :: ks) := by
  cases parts with
  | nil => exact .nil
  | cons part parts =>
      rw [Phrase.fillOne] at h
      split at h
      · next hamong => exact .cons (Slot.mem_of_among hamong hk) h
      · exact .cons_right h

/-- What a rule fills in is there in all its words. -/
theorem fill {r : Phrase} {w : List Kind} (hw : w ∈ r.words) (h : Has (r.fill parts) ks) :
    Has parts (w ++ ks) := by
  induction r generalizing parts w ks with
  | never => exact absurd hw (Language.notMem_zero w)
  | empty =>
      rw [(Language.mem_one w).mp hw]
      exact h
  | one kinds =>
      rcases hw with ⟨k, hk, rfl⟩
      exact h.fillOne hk
  | seq r s ihr ihs =>
      rcases Language.mem_mul.mp hw with ⟨u, hu, v, hv, rfl⟩
      rw [List.append_assoc]
      exact ihr hu (ihs hv h)
  | either r s ihr ihs =>
      rw [Phrase.fill] at h
      split at h
      · next heq =>
          rcases (Language.mem_add _ _ w).mp hw with hw | hw
          · exact ihr hw h
          · exact ihs hw (heq ▸ h)
      · exact h.behind w
  | any r _ => exact h.behind w
  | within b r ih =>
      rcases Phrase.mem_within.mp hw with ⟨v, hv, rfl⟩
      rw [List.append_assoc, List.cons_append]
      refine fillOne (List.mem_singleton_self _) (ih hv ?_)
      exact fillOne (List.mem_singleton_self _) h

end Has

end Syntax

end Nominal
