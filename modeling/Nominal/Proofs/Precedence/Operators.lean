import Nominal.Proofs.Derived.Complete
import Nominal.Proofs.Precedence.Climbing
import Nominal.Proofs.Relexed

/-!
# Operators and Their Operands

In the tree of a source about which nothing is reported, operators have the operands that their
powers demand. That trees are grouped tells how tight they are bound, and that they are derived
tells which of the trees around an operator are its operands: one on each side, whatever trivia
stands between them.

## Main definitions

* `Tree.operands`: The expressions among the children of a node.
* `Tree.operator?`: What stands between them.
* `Tree.power?`: How tight the operator of a binary expression binds.
* `Node.BindsOperands`: What the powers of operators demand of a binary expression.
* `Node.HoldsOperand`: What is demanded of all others that have an operand.
* `Tree.IsBound`: A grouped and derived tree with proper tokens.

## Theorems

* `not_expression_of_mem_lex`: No token has the kind of an expression.
* `isBound_of_parse`: The tree of a source without mistakes is grouped.
* `parse_grouped`: Operands are bound as tight as the operators around them demand.
-/

namespace Nominal

namespace Syntax

open Grammar (bindingPower? rightPower)

/-- No token has the kind of an expression. -/
theorem not_expression_of_mem_lex {source : String} {l : Lexeme} (hl : l ∈ lex source) :
    l.kind ∉ Kind.expressions := by
  have hrule := rule_of_mem_lex hl
  intro hk
  generalize l.kind = k at hk hrule
  cases k with
  | _ =>
      first
      | exact absurd hk (by decide)
      | cases hrule

namespace Tree

/-- The operands of a node: the expressions among its children. -/
def operands (children : List Tree) : List Tree :=
  children.filter fun t => t.kind ∈ Kind.expressions

/-- The operator of a node: what is neither trivia nor an operand. -/
def operator? (children : List Tree) : Option Kind :=
  (word children).find? fun k => k ∉ Kind.expressions

/-- How tight the operator of a binary expression binds. -/
def power? : Tree → Option Nat
  | .node .binaryExpr children => operator? children >>= bindingPower?
  | _ => none

end Tree

/-- What binds looser than all binary operators. -/
def Kind.loose : List Kind := [.assignExpr, .conditionalExpr, .lambda]

/-- What is applied to an operand, in front of it or behind it. -/
def Kind.applied : List Kind :=
  [.prefixExpr, .castExpr, .memberAccess, .call, .indexExpr, .postfixExpr]

namespace Node

/-- A binary expression has two operands that are bound as tight as its operator demands. In the
    left operand no operator binds looser, and none as loose in the right one; for `??` it is the
    other way round. -/
def BindsOperands (n : Node) : Prop :=
  ∃ left right op power, Tree.operands n.children = [left, right] ∧
    Tree.operator? n.children = some op ∧ bindingPower? op = some power ∧
    (left.kind = .binaryExpr → ∃ m, left.power? = some m ∧ power ≤ m ∧
      (op = .questionQuestion → power < m)) ∧
    (right.kind = .binaryExpr → ∃ m, right.power? = some m ∧ power ≤ m ∧
      (op ≠ .questionQuestion → power < m)) ∧
    ∀ t ∈ [left, right], t.kind ∉ Kind.loose

/-- A node has a first operand, which is no binary expression and nothing looser. -/
def HoldsOperand (n : Node) : Prop :=
  ∃ operand rest, Tree.operands n.children = operand :: rest ∧
    operand.kind ≠ .binaryExpr ∧ operand.kind ∉ Kind.loose

end Node

namespace Tree

variable {level power : Nat} {children us vs : List Tree} {t : Tree} {op : Lexeme}

/-! ### Operands in the words of a rule -/

theorem operands_append (ts us : List Tree) : operands (ts ++ us) = operands ts ++ operands us :=
  List.filter_append ts us

/-- Operands are no trivia, so they can be told from the word that is spelt. -/
theorem map_kind_operands (ts : List Tree) :
    (operands ts).map kind = (word ts).filter fun k => k ∈ Kind.expressions := by
  have hsolid : ∀ k ∈ Kind.expressions, k.isTrivia = false := by decide
  rw [operands, word, List.filter_filter, List.filter_map]
  congr 2
  funext t
  by_cases hk : t.kind ∈ Kind.expressions
  · simp only [Function.comp_apply, hk, hsolid _ hk, decide_true, Bool.not_false, Bool.and_true]
  · simp only [Function.comp_apply, hk, decide_false, Bool.false_and]

/-- Trees that spell one expression have one operand. -/
theorem operands_of_word {k : Kind} (h : word us = [k]) (hk : k ∈ Kind.expressions) :
    ∃ t ∈ us, operands us = [t] := by
  have hkinds := map_kind_operands us
  rw [h, List.filter_singleton, decide_eq_true hk] at hkinds
  rcases List.map_eq_singleton_iff.mp hkinds with ⟨t, ht, _⟩
  exact ⟨t, List.mem_of_mem_filter (ht ▸ List.mem_singleton_self t), ht⟩

/-- What all words of a rule hold is among the children. -/
theorem operands_ne_nil (h : Has [Kind.expressions] (word children)) : operands children ≠ [] := by
  intro hnil
  have hkinds := map_kind_operands children
  rw [hnil, List.map_nil] at hkinds
  have hnone := List.filter_eq_nil_iff.mp hkinds.symm
  have hsome : ∀ {ks : List Kind}, Has [Kind.expressions] ks → ∃ k ∈ ks, k ∈ Kind.expressions := by
    intro ks hks
    induction ks with
    | nil => cases hks
    | cons k ks ih =>
        cases hks with
        | cons hk _ => exact ⟨k, List.mem_cons_self, hk⟩
        | cons_right hks =>
            rcases ih hks with ⟨j, hj, hjk⟩
            exact ⟨j, List.mem_cons_of_mem _ hj, hjk⟩
  rcases hsome h with ⟨k, hk, hexpression⟩
  exact hnone k hk (decide_eq_true hexpression)

/-- What is no expression itself stands in the middle of two. -/
theorem middle_eq {xs ys : List Kind} {a b c k : Kind} (h : xs ++ k :: ys = [a, b, c]) (ha : k ≠ a)
    (hc : k ≠ c) : xs = [a] ∧ k = b ∧ ys = [c] := by
  rcases xs with _ | ⟨x, _ | ⟨y, _ | ⟨z, zs⟩⟩⟩
  · cases h
    exact absurd rfl ha
  · cases h
    exact ⟨rfl, rfl, rfl⟩
  · cases h
    exact absurd rfl hc
  · simp only [List.cons_append, List.cons.injEq] at h
    cases List.append_eq_nil_iff.mp h.2.2.2 |>.2

/-- No operator between operands is an expression itself. -/
theorem not_expression_of_power {k : Kind} (h : bindingPower? k = some power) :
    k ∉ Kind.expressions := by
  intro hk
  have hnone : ∀ k ∈ Kind.expressions, bindingPower? k = none := by decide
  cases h.symm.trans (hnone k hk)

/-- A binary expression has one operand on each side of its operator. -/
theorem operands_binary (h : IsDerived (node .binaryExpr (us ++ token op :: vs)))
    (hop : bindingPower? op.kind = some power) :
    ∃ left ∈ us, ∃ right ∈ vs, operands (us ++ token op :: vs) = [left, right] ∧
      operator? (us ++ token op :: vs) = some op.kind := by
  have hother := not_expression_of_power hop
  have hsolid : op.kind.isTrivia = false := by
    have hall : ∀ k : Kind, k.isTrivia = true → bindingPower? k = none := by
      intro k hk
      cases k <;> first | rfl | cases hk
    cases htrivia : op.kind.isTrivia with
    | false => rfl
    | true => cases hop.symm.trans (hall _ htrivia)
  have hword : word (us ++ token op :: vs) = word us ++ op.kind :: word vs := by
    rw [word_append, word, word, word, List.map_cons, kind, List.filter_cons, hsolid]
    rfl
  cases h with
  | node hrule _ =>
      rcases Language.mem_mul.mp hrule with ⟨_, hfirst, _, ⟨c, hc, rfl⟩, hwhole⟩
      rcases Language.mem_mul.mp hfirst with ⟨_, ⟨a, ha, rfl⟩, _, ⟨b, _, rfl⟩, rfl⟩
      have hne : ∀ k ∈ Kind.expressions, op.kind ≠ k := fun k hk heq => hother (heq ▸ hk)
      rcases middle_eq (hword.symm.trans hwhole.symm) (hne a ha) (hne c hc) with ⟨hus, _, hvs⟩
      rcases operands_of_word hus ha with ⟨left, hleft, hleft'⟩
      rcases operands_of_word hvs hc with ⟨right, hright, hright'⟩
      have hbehind : operands (token op :: vs) = operands vs := List.filter_cons_of_neg (by
        rw [kind, decide_eq_true_eq]
        exact hother)
      refine ⟨left, hleft, right, hright, ?_, ?_⟩
      · rw [operands_append, hleft', hbehind, hright']
        rfl
      · rw [operator?, hword, hus, List.singleton_append, List.find?_cons, List.find?_cons,
          decide_eq_false (not_not_intro ha), decide_eq_true hother]

/-! ### How tight operands are bound -/

/-- All trees below a grouped one are grouped. -/
theorem IsGrouped.descend {kind : Kind} (h : (Tree.node kind children).IsGrouped level) :
    ∀ t ∈ children, t.IsGrouped 0 := by
  have hloosen : ∀ {ts : List Tree} {m : Nat}, (∀ t ∈ ts, t.IsGrouped m) → ∀ t ∈ ts, t.IsGrouped 0 :=
    fun h t ht => (h t ht).mono (Nat.zero_le _)
  cases h with
  | node _ hchildren => exact hloosen hchildren
  | index _ hus hvs | binary _ _ hus hvs =>
      refine List.forall_mem_append.mpr ⟨hloosen hus, ?_⟩
      exact List.forall_mem_cons.mpr ⟨.token 0 _, hloosen hvs⟩

/-- A grouped tree in which all nodes follow their rules, and whose leaves are tokens. -/
structure IsBound (level : Nat) (t : Tree) : Prop where
  grouped : t.IsGrouped level
  derived : t.IsDerived
  tokens : ∀ l ∈ t.leaves, l.kind ∉ Kind.expressions

namespace IsBound

theorem tokens_below {kind : Kind} (h : ∀ l ∈ (node kind children).leaves, l.kind ∉ Kind.expressions)
    (ht : t ∈ children) : ∀ l ∈ t.leaves, l.kind ∉ Kind.expressions := by
  intro l hl
  refine h l ?_
  rcases List.append_of_mem ht with ⟨before, behind, rfl⟩
  rw [leaves, leavesOf_append, leavesOf]
  exact List.mem_append_right _ (List.mem_append_left _ hl)

/-- A child of a bound node is bound, as tight as it is grouped. -/
theorem child {kind : Kind} {n : Nat} (h : (node kind children).IsBound n) (ht : t ∈ children)
    (hgrouped : t.IsGrouped level) : t.IsBound level := by
  cases h.derived with
  | node _ hchildren => exact ⟨hgrouped, hchildren t ht, tokens_below h.tokens ht⟩

/-- A binary expression has an operator that binds tight enough, and so do its operands. -/
theorem binary (h : (node .binaryExpr children).IsBound level) :
    ∃ left right op power, operands children = [left, right] ∧ operator? children = some op ∧
      bindingPower? op = some power ∧ level ≤ power ∧ left.IsBound (leftPower op power) ∧
      right.IsBound (rightPower op power) := by
  cases h.grouped with
  | node hk _ => exact absurd rfl hk.1
  | binary hop hlevel hus hvs =>
      rcases operands_binary h.derived hop with ⟨left, hleft, right, hright, hoperands, hoperator⟩
      refine ⟨left, right, _, _, hoperands, hoperator, hop, hlevel, ?_, ?_⟩
      · exact h.child (List.mem_append_left _ hleft) (hus left hleft)
      · exact h.child (List.mem_append_right _ (List.mem_cons_of_mem _ hright)) (hvs right hright)

/-- The operator of a binary expression binds as tight as the tree is bound. -/
theorem power?_of_binary (h : t.IsBound level) (ht : t.kind = .binaryExpr) :
    ∃ m, t.power? = some m ∧ level ≤ m := by
  cases t with
  | token l =>
      have hother := h.tokens l (List.mem_singleton_self l)
      rw [show l.kind = .binaryExpr from ht] at hother
      exact absurd (by decide) hother
  | node k children =>
      cases show k = .binaryExpr from ht
      rcases h.binary with ⟨_, _, op, power, _, hoperator, hpower, hlevel, _⟩
      refine ⟨power, ?_, hlevel⟩
      rw [power?, hoperator]
      exact hpower

/-- What has to be bound at all binds tighter than a conditional, an assignment or a lambda. -/
theorem not_loose (h : t.IsBound level) (hlevel : 0 < level) : t.kind.isLoose = false := by
  have hloose : ∀ k : Kind, k ∉ Kind.expressions → k.isLoose = false := by
    intro k hk
    cases k <;> first | rfl | exact absurd (by decide) hk
  rcases h with ⟨hgrouped, _, htokens⟩
  cases hgrouped with
  | token _ l => exact hloose _ (htokens l (List.mem_singleton_self l))
  | node hk _ =>
      refine Bool.eq_false_iff.mpr fun hyes => ?_
      rw [hk.2.2 hyes] at hlevel
      exact absurd hlevel (Nat.lt_irrefl 0)
  | index | binary => rfl

/-- What is bound as tight as an operand is no binary expression. -/
theorem not_binary (h : t.IsBound operandLevel) : t.kind ≠ .binaryExpr := by
  intro ht
  rcases h.power?_of_binary ht with ⟨m, hpower, hle⟩
  cases t with
  | token l => cases hpower
  | node k children =>
      cases show k = .binaryExpr from ht
      rcases Option.bind_eq_some_iff.mp hpower with ⟨op, _, hop⟩
      exact absurd hle (Nat.not_le_of_lt (Grammar.power_le hop).2)

/-- The first operand in front of an index is what the index is taken of. -/
theorem receiver_index {bracket : Lexeme} (hbracket : bracket.kind = .bracketOpen)
    (h : IsDerived (node .indexExpr (us ++ token bracket :: vs))) :
    ∃ first ∈ us, ∃ rest, operands (us ++ token bracket :: vs) = first :: rest := by
  have hword : word (us ++ token bracket :: vs) = word us ++ .bracketOpen :: word vs := by
    rw [word_append, word, word, word, List.map_cons, kind, hbracket]
    rfl
  cases h with
  | node hrule _ =>
      rcases Language.mem_mul.mp hrule with ⟨_, ⟨a, ha, rfl⟩, _, hwithin, hwhole⟩
      rcases Phrase.mem_within.mp hwithin with ⟨_, ⟨c, hc, rfl⟩, rfl⟩
      -- The bracket is the one that follows the operand: no other part is such a bracket.
      have hus : ∃ xs, word us = a :: xs := by
        rw [hword] at hwhole
        cases hfirst : word us with
        | nil =>
            rw [hfirst] at hwhole
            exact absurd ((List.cons.inj hwhole).1 ▸ ha) (by decide)
        | cons x xs =>
            rw [hfirst] at hwhole
            exact ⟨xs, by rw [(List.cons.inj hwhole).1]⟩
      rcases hus with ⟨xs, hus⟩
      have hkinds := map_kind_operands us
      rw [hus, List.filter_cons, decide_eq_true ha, if_pos rfl] at hkinds
      rcases List.map_eq_cons_iff.mp hkinds with ⟨first, rest, hfirst, _⟩
      refine ⟨first, List.mem_of_mem_filter (hfirst ▸ List.mem_cons_self), ?_⟩
      rw [operands_append, hfirst]
      exact ⟨_, rfl⟩

/-- The operand of a prefix or a cast, and what stands in front of an access, a call, an index
    or a postfix operator, is bound as tight as an operand. -/
theorem receiver {kind : Kind} (h : (node kind children).IsBound level)
    (hk : kind ∈ Kind.applied) :
    ∃ first rest, operands children = first :: rest ∧ first.IsBound operandLevel := by
  have hfill : kind.rule.fill [Kind.expressions] = [] := by
    have hall : ∀ k ∈ Kind.applied, k.rule.fill [Kind.expressions] = [] := by decide
    exact hall kind hk
  have hne : operands children ≠ [] := by
    cases h.derived with
    | node hrule _ =>
        have hhas : Has (kind.rule.fill [Kind.expressions]) [] := by
          rw [hfill]
          exact .nil
        have hhas := hhas.fill hrule
        rw [List.append_nil] at hhas
        exact operands_ne_nil hhas
  cases h.grouped with
  | binary => exact absurd hk (by decide)
  | index hbracket hus _ =>
      rcases receiver_index hbracket h.derived with ⟨first, hfirst, rest, hoperands⟩
      exact ⟨first, rest, hoperands, h.child (List.mem_append_left _ hfirst) (hus first hfirst)⟩
  | node hgroups hchildren =>
      rcases List.exists_cons_of_ne_nil hne with ⟨first, rest, hoperands⟩
      have hfirst : first ∈ children :=
        List.mem_of_mem_filter (hoperands ▸ List.mem_cons_self : first ∈ operands children)
      have hinner : kind.inner = operandLevel := by
        have hall : ∀ k ∈ Kind.applied, k ≠ .indexExpr → k.inner = operandLevel := by decide
        exact hall kind hk hgroups.2.1
      exact ⟨first, rest, hoperands, h.child hfirst (hinner ▸ hchildren first hfirst)⟩

/-- The operands of a binary expression that is bound at all are bound tight enough. -/
theorem bindsOperands {n : Node} (h : (Tree.node .binaryExpr n.children).IsBound level) :
    n.BindsOperands := by
  rcases h.binary with ⟨left, right, op, power, hoperands, hoperator, hop, _, hleft, hright⟩
  have hpower := Grammar.power_le hop
  have hleast := Grammar.le_leftPower op power
  have hgreatest := Grammar.le_rightPower op power
  have hloose : ∀ k ∈ Kind.loose, k.isLoose = true := by decide
  refine ⟨left, right, op, power, hoperands, hoperator, hop, fun hkind => ?_, fun hkind => ?_, ?_⟩
  · rcases hleft.power?_of_binary hkind with ⟨m, hm, hle⟩
    exact ⟨m, hm, Nat.le_trans hleast.1 hle, fun hcoalesce => Nat.le_trans (hleast.2 hcoalesce) hle⟩
  · rcases hright.power?_of_binary hkind with ⟨m, hm, hle⟩
    exact ⟨m, hm, Nat.le_trans hgreatest.1 hle, fun hother => Nat.le_trans (hgreatest.2 hother) hle⟩
  · -- What binds at all binds tighter than what is loose.
    refine List.forall_mem_cons.mpr ⟨fun hmem => ?_, List.forall_mem_singleton.mpr fun hmem => ?_⟩
    · have htight := hleft.not_loose (Nat.lt_of_lt_of_le hpower.1 hleast.1)
      exact Bool.false_ne_true (htight.symm.trans (hloose _ hmem))
    · have htight := hright.not_loose (Nat.lt_of_lt_of_le hpower.1 hgreatest.1)
      exact Bool.false_ne_true (htight.symm.trans (hloose _ hmem))

theorem holdsOperand {n : Node} (h : (Tree.node n.kind n.children).IsBound level)
    (hk : n.kind ∈ Kind.applied) : n.HoldsOperand := by
  rcases h.receiver hk with ⟨operand, rest, hoperands, hoperand⟩
  have hloose : ∀ k ∈ Kind.loose, k.isLoose = true := by decide
  refine ⟨operand, rest, hoperands, hoperand.not_binary, fun hmem => ?_⟩
  exact Bool.false_ne_true ((hoperand.not_loose (by decide)).symm.trans (hloose _ hmem))

end IsBound

end Tree

end Syntax

namespace Grammar

open Syntax (Kind Lexeme Tree leftPower operandLevel)

/-- The tree of a source without mistakes is grouped. -/
theorem isBound_of_parse {source : String} {parsed : Parsed} (h : parse source = .ok parsed)
    (hsilent : parsed.diagnostics = []) : parsed.tree.IsBound 0 := by
  have hleaves : parsed.tree.leaves = Syntax.lex source := leaves_parseLexemes h
  have htokens : ∀ l ∈ parsed.tree.leaves, l.kind ∉ Kind.expressions := by
    rw [hleaves]
    exact fun l => Syntax.not_expression_of_mem_lex
  have hderived : parsed.tree.IsDerived := by
    rcases isDerived_of_parse h hsilent with ⟨children, htree, hderived⟩
    exact htree ▸ hderived
  refine ⟨?_, hderived, htokens⟩
  rcases read_of_parse h hsilent with ⟨p, hread, htree⟩
  have hfile : fileScript.Groups false 0 :=
    .bind (.call trivial) fun _ => .perform .keepTrivia
  have hroot := hfile.behind (grouped_readProduction _) _ p () (.of_all (List.forall_mem_nil _)) hread
  rw [htree]
  exact .node ⟨nofun, nofun, fun _ => rfl⟩ hroot.all

/-- In a source about which nothing is reported, the operands of every binary expression are bound
    as tight as its operator demands, and what other operators are applied to is bound tighter. -/
theorem parse_grouped {source : String} {parsed : Parsed} (h : parse source = .ok parsed)
    (hsilent : parsed.diagnostics = []) :
    ∀ l ∈ parsed.tree.locations, (l.node.kind = .binaryExpr → l.node.BindsOperands) ∧
      (l.node.kind ∈ Kind.applied → l.node.HoldsOperand) := by
  intro l hl
  have hbound : l.node.tree.IsBound 0 := by
    refine Syntax.holds_of_mem_locationsAt (P := fun t => t.IsBound 0) ?_
      (isBound_of_parse h hsilent) hl
    exact fun kind children ht t hmem => ht.child hmem (ht.grouped.descend t hmem)
  rw [Syntax.Node.tree] at hbound
  refine ⟨fun hk => ?_, fun hk => hbound.holdsOperand hk⟩
  rw [hk] at hbound
  exact hbound.bindsOperands

/-- A statement with operators of many powers, two of which group to the right. -/
theorem parse_grouped_statement :
    ∃ source parsed, source = "x = a ?? b ?? -c.D * (int)e[0] + f(1)-- - 2 < g ? y => y || !h : 3;" ∧
      parse source = .ok parsed ∧ parsed.diagnostics = [] ∧
      (∀ k ∈ .binaryExpr :: Kind.applied, ∃ l ∈ parsed.tree.locations, l.node.kind = k) ∧
      ∀ l ∈ parsed.tree.locations, (l.node.kind = .binaryExpr → l.node.BindsOperands) ∧
        (l.node.kind ∈ Kind.applied → l.node.HoldsOperand) := by
  generalize hsource : "x = a ?? b ?? -c.D * (int)e[0] + f(1)-- - 2 < g ? y => y || !h : 3;" = source
  have hcheck : ((parse source).toOption.any fun parsed => parsed.diagnostics.isEmpty &&
      (.binaryExpr :: Kind.applied).all fun k => parsed.tree.locations.any fun l => l.node.kind == k)
        = true := by
    rw [← hsource]
    decide +kernel
  cases hparse : parse source with
  | error failure =>
      rw [hparse] at hcheck
      cases hcheck
  | ok parsed =>
      rw [hparse] at hcheck
      rcases Bool.and_eq_true_iff.mp hcheck with ⟨hempty, hkinds⟩
      have hnil : parsed.diagnostics = [] := List.isEmpty_iff.mp hempty
      refine ⟨source, parsed, rfl, hparse, hnil, fun k hk => ?_, parse_grouped hparse hnil⟩
      rcases List.any_eq_true.mp (List.all_eq_true.mp hkinds k hk) with ⟨l, hl, hkind⟩
      exact ⟨l, hl, eq_of_beq hkind⟩

end Grammar

end Nominal
