import Nominal.Proofs.Layout.Squeezed

/-!
# Nodes of No Extent Apart

Where a variable should be declared and nothing of it is there, its node is empty. Such a node has
no token of its own that would tell it from another one, so it has to be seen that no two of them
stand at the same place. There is a token in front of each of them that comes behind the one
before it: `var` or a type, or else a comma.

Trees are gone through from left to right, and it is kept in mind whether a token has been come by
since the last empty variable. The nodes that something is in do not matter for that.

## Main definitions

* `Tree.Spaced`: There is a token in front of every empty variable.

## Theorems

* `Spaced.eq_of_start_eq`: Two empty variables at the same place are the same one.
* `Spaced.eq_of_param_start_eq`: Two parameters at the same place are the same one.
-/

namespace Nominal

namespace Syntax

/-- A node for a variable with nothing in it. -/
def Location.IsEmptyVariable (l : Location) : Prop :=
  l.node.kind = .varDeclarator ∧ l.node.children = []

namespace Tree

section Bounds

variable {ts : List Tree} {above : List Node} {start index : Nat} {l : Location}

/-- A node lies between the start and the end of the trees that it is in. -/
theorem bounds_of_mem (hl : l ∈ locationsOf above start index ts) :
    start ≤ l.node.start ∧ l.node.start + widthOf l.node.children ≤ start + widthOf ts := by
  rcases split_of_mem_locationsOf hl with ⟨before, behind, hleaves, hstart⟩
  have hwidth := congrArg Lexeme.widthOf hleaves
  rw [← widthOf_eq, Lexeme.widthOf_append, Lexeme.widthOf_append, ← widthOf_eq] at hwidth
  omega

/-- All nodes but the whole are below it. -/
theorem mem_below_root {children : List Tree} (hl : l ∈ (node .root children).locations)
    (hkind : l.node.kind ≠ .root) : l ∈ locationsOf [⟨.root, children, 0, 0⟩] 0 0 children := by
  rw [locations, locationsAt, List.mem_cons] at hl
  refine hl.resolve_left fun hroot => hkind ?_
  rw [hroot]

/-- A node that is a token has some extent. -/
theorem widthOf_pos_of_token (hpos : ∀ x ∈ leavesOf ts, 0 < x.width)
    (hl : l ∈ locationsOf above start index ts) (htoken : ∃ x, l.node.children = [token x]) :
    0 < widthOf l.node.children := by
  rcases htoken with ⟨x, hchildren⟩
  rcases split_of_mem_locationsOf hl with ⟨before, behind, hleaves, _⟩
  have hx : x ∈ leavesOf ts := by
    rw [hleaves, hchildren]
    exact List.mem_append_left _ (List.mem_append_right _ List.mem_cons_self)
  rw [hchildren]
  exact hpos x hx

end Bounds

/-- Some trees in which a token stands in front of every empty variable, behind the one before it.
    The first flag says whether there is such a token in front of the trees already, the second one
    whether there is one behind them for the next variable. A parameter of a lambda is a token. -/
inductive Spaced : Bool → List Tree → Bool → Prop where
  | nil (last : Bool) : Spaced last [] last
  | trivia {l : Lexeme} {ts : List Tree} {last final : Bool} : l.isTrivia = true →
    Spaced last ts final → Spaced last (token l :: ts) final
  | token {l : Lexeme} {ts : List Tree} {last final : Bool} : l.isTrivia = false →
    Spaced true ts final → Spaced last (token l :: ts) final
  | empty {ts : List Tree} {final : Bool} : Spaced false ts final →
    Spaced true (node .varDeclarator [] :: ts) final
  | node {kind : Kind} {children ts : List Tree} {last mid final : Bool} :
    (kind = .varDeclarator → children ≠ []) →
    (kind = .lambdaParam → ∃ l, l.isTrivia = false ∧ children = [Tree.token l]) →
    Spaced last children mid → Spaced mid ts final → Spaced last (node kind children :: ts) final

namespace Spaced

variable {ts us : List Tree} {last mid final : Bool}

theorem append (h : Spaced last ts mid) (h' : Spaced mid us final) :
    Spaced last (ts ++ us) final := by
  induction h with
  | nil => exact h'
  | trivia hl _ ih => exact .trivia hl (ih h')
  | token hl _ ih => exact .token hl (ih h')
  | empty _ ih => exact .empty (ih h')
  | node hkind hparam hchildren _ _ ih => exact .node hkind hparam hchildren (ih h')

/-- A token in front of the trees does no harm. -/
theorem mono (h : Spaced last ts final) :
    ∃ final', Spaced true ts final' ∧ (final = true → final' = true) := by
  induction h with
  | nil => exact ⟨true, .nil true, fun _ => rfl⟩
  | trivia hl _ ih =>
      rcases ih with ⟨final', hspaced, hfinal⟩
      exact ⟨final', .trivia hl hspaced, hfinal⟩
  | token hl hrest _ => exact ⟨_, .token hl hrest, id⟩
  | empty hrest _ => exact ⟨_, .empty hrest, id⟩
  | @node _ _ _ _ mid _ hkind hparam _ hrest ihChildren ihRest =>
      rcases ihChildren with ⟨mid', hchildren, hmid⟩
      cases mid' with
      | true =>
          rcases ihRest with ⟨final', hspaced, hfinal⟩
          exact ⟨final', .node hkind hparam hchildren hspaced, hfinal⟩
      | false =>
          have hsame : mid = false := Bool.eq_false_iff.mpr fun h => Bool.noConfusion (hmid h)
          exact ⟨_, .node hkind hparam hchildren (hsame ▸ hrest), id⟩

/-- Lexemes stand between variables, if they do not keep them apart. -/
theorem tokens (last : Bool) (ls : List Lexeme) :
    ∃ final, Spaced last (ls.map Tree.token) final ∧ (last = true → final = true) := by
  induction ls generalizing last with
  | nil => exact ⟨last, .nil last, id⟩
  | cons l ls ih =>
      cases hl : l.isTrivia with
      | true =>
          rcases ih last with ⟨final, hspaced, hfinal⟩
          exact ⟨final, .trivia hl hspaced, hfinal⟩
      | false =>
          rcases ih true with ⟨final, hspaced, hfinal⟩
          exact ⟨final, .token hl hspaced, fun _ => hfinal rfl⟩

/-! ### Where nodes stand -/

variable {above : List Node} {start index : Nat} {l l' : Location}

/-- Where there is no leaf, there is no token. -/
theorem of_widthOf_eq_zero (h : Spaced last ts final) (hpos : ∀ x ∈ leavesOf ts, 0 < x.width)
    (hwidth : widthOf ts = 0) (hfinal : final = true) : last = true := by
  induction h with
  | nil => exact hfinal
  | @trivia l _ _ _ _ _ _ | @token l _ _ _ _ _ _ =>
      have hl := hpos l List.mem_cons_self
      rw [widthOf, Tree.width] at hwidth
      omega
  | empty => rfl
  | node _ _ _ _ ihChildren ihRest =>
      rw [leavesOf, leaves, List.forall_mem_append] at hpos
      rw [widthOf, Tree.width, Nat.add_eq_zero_iff] at hwidth
      exact ihChildren hpos.1 hwidth.1 (ihRest hpos.2 hwidth.2 hfinal)

/-- Where trees start with an empty variable there has been a token. -/
theorem of_start_eq (h : Spaced last ts final) (hpos : ∀ x ∈ leavesOf ts, 0 < x.width)
    (hl : l ∈ locationsOf above start index ts) (hempty : l.IsEmptyVariable)
    (hstart : l.node.start = start) : last = true := by
  induction h generalizing above start index with
  | nil => cases hl
  | @trivia x _ _ _ _ _ _ | @token x _ _ _ _ _ _ =>
      have hx := hpos x List.mem_cons_self
      rw [locationsOf, locationsAt, List.nil_append] at hl
      have hbehind := (bounds_of_mem hl).1
      rw [Tree.width] at hbehind
      omega
  | empty => rfl
  | @node kind children _ _ _ _ hkind _ hchildren _ ihChildren ihRest =>
      rw [leavesOf, leaves, List.forall_mem_append] at hpos
      rw [locationsOf, locationsAt, List.mem_append, List.mem_cons] at hl
      rcases hl with (rfl | hl) | hl
      · exact absurd hempty.2 (hkind hempty.1)
      · exact ihChildren hpos.1 hl hstart
      · have hbehind := (bounds_of_mem hl).1
        rw [Tree.width] at hbehind
        have hwidth : widthOf children = 0 := by omega
        have hmid := ihRest hpos.2 hl (by rw [Tree.width, hwidth]; exact hstart)
        exact hchildren.of_widthOf_eq_zero hpos.1 hwidth hmid

/-- Where trees end with an empty variable there is no token behind it. -/
theorem of_stop_eq (h : Spaced last ts final) (hpos : ∀ x ∈ leavesOf ts, 0 < x.width)
    (hl : l ∈ locationsOf above start index ts) (hempty : l.IsEmptyVariable)
    (hstop : l.node.start = start + widthOf ts) : final = false := by
  have hnone : ∀ {ts : List Tree} {final : Bool}, Spaced false ts final →
      (∀ x ∈ leavesOf ts, 0 < x.width) → widthOf ts = 0 → final = false := by
    intro ts final hts hpos hwidth
    exact Bool.eq_false_iff.mpr fun hfinal =>
      Bool.false_ne_true (hts.of_widthOf_eq_zero hpos hwidth hfinal)
  induction h generalizing above start index with
  | nil => cases hl
  | @trivia x _ _ _ _ _ ih | @token x _ _ _ _ _ ih =>
      rw [leavesOf, List.forall_mem_append] at hpos
      rw [locationsOf, locationsAt, List.nil_append] at hl
      rw [widthOf, ← Nat.add_assoc] at hstop
      exact ih hpos.2 hl hstop
  | @empty ts _ hrest ih =>
      rw [leavesOf, List.forall_mem_append] at hpos
      rw [locationsOf, locationsAt, locationsOf, List.mem_append, List.mem_singleton] at hl
      rw [widthOf, ← Nat.add_assoc] at hstop
      rcases hl with rfl | hl
      · exact hnone hrest hpos.2 (Nat.left_eq_add.mp hstop)
      · exact ih hpos.2 hl hstop
  | @node kind children _ _ mid _ hkind _ hchildren hrest ihChildren ihRest =>
      rw [leavesOf, leaves, List.forall_mem_append] at hpos
      rw [locationsOf, locationsAt, List.mem_append, List.mem_cons] at hl
      rw [widthOf, ← Nat.add_assoc] at hstop
      rcases hl with (rfl | hl) | hl
      · exact absurd hempty.2 (hkind hempty.1)
      · have hbehind := (bounds_of_mem hl).2
        rw [Tree.width] at hstop
        have hmid : mid = false := ihChildren hpos.1 hl (by omega)
        exact hnone (hmid ▸ hrest) hpos.2 (by omega)
      · exact ihRest hpos.2 hl hstop

/-- Two empty variables at the same place are the same one. -/
theorem eq_of_start_eq (h : Spaced last ts final) (hpos : ∀ x ∈ leavesOf ts, 0 < x.width)
    (hl : l ∈ locationsOf above start index ts) (hl' : l' ∈ locationsOf above start index ts)
    (hempty : l.IsEmptyVariable) (hempty' : l'.IsEmptyVariable)
    (hstart : l.node.start = l'.node.start) : l = l' := by
  induction h generalizing above start index with
  | nil => cases hl
  | trivia _ _ ih | token _ _ ih =>
      rw [leavesOf, List.forall_mem_append] at hpos
      rw [locationsOf, locationsAt, List.nil_append] at hl hl'
      exact ih hpos.2 hl hl'
  | empty hrest ih =>
      rw [leavesOf, List.forall_mem_append] at hpos
      rw [locationsOf, locationsAt, locationsOf, List.mem_append, List.mem_singleton] at hl hl'
      -- Behind the first of them no other one comes before a token.
      rcases hl with rfl | hl
      · rcases hl' with rfl | hl'
        · rfl
        · exact absurd (hrest.of_start_eq hpos.2 hl' hempty' hstart.symm) Bool.false_ne_true
      · rcases hl' with rfl | hl'
        · exact absurd (hrest.of_start_eq hpos.2 hl hempty hstart) Bool.false_ne_true
        · exact ih hpos.2 hl hl'
  | @node kind children ts _ _ _ hkind _ hchildren hrest ihChildren ihRest =>
      rw [leavesOf, leaves, List.forall_mem_append] at hpos
      rw [locationsOf, locationsAt, List.mem_append, List.mem_cons] at hl hl'
      have hapart : ∀ {a b : Location},
          a ∈ locationsOf (⟨kind, children, start, index⟩ :: above) start 0 children →
          b ∈ locationsOf above (start + (Tree.node kind children).width) (index + 1) ts →
          a.IsEmptyVariable → b.IsEmptyVariable → a.node.start ≠ b.node.start := by
        intro a b ha hb hempty hempty' hsame
        have hstop := (bounds_of_mem ha).2
        have hbehind := (bounds_of_mem hb).1
        rw [Tree.width] at hbehind
        have hmid := hchildren.of_stop_eq hpos.1 ha hempty (by omega)
        have hnext := hrest.of_start_eq hpos.2 hb hempty' (by rw [Tree.width]; omega)
        exact Bool.false_ne_true (hmid.symm.trans hnext)
      rcases hl with (rfl | hl) | hl
      · exact absurd hempty.2 (hkind hempty.1)
      · rcases hl' with (rfl | hl') | hl'
        · exact absurd hempty'.2 (hkind hempty'.1)
        · exact ihChildren hpos.1 hl hl'
        · exact absurd hstart (hapart hl hl' hempty hempty')
      · rcases hl' with (rfl | hl') | hl'
        · exact absurd hempty'.2 (hkind hempty'.1)
        · exact absurd hstart.symm (hapart hl' hl hempty' hempty)
        · exact ihRest hpos.2 hl hl'

/-- A parameter of a lambda is a token. -/
theorem token_of_param (h : Spaced last ts final) (hl : l ∈ locationsOf above start index ts)
    (hkind : l.node.kind = .lambdaParam) : ∃ x, l.node.children = [Tree.token x] := by
  induction h generalizing above start index with
  | nil => cases hl
  | trivia _ _ ih | token _ _ ih =>
      rw [locationsOf, locationsAt, List.nil_append] at hl
      exact ih hl
  | empty _ ih =>
      rw [locationsOf, locationsAt, locationsOf, List.mem_append, List.mem_singleton] at hl
      rcases hl with rfl | hl
      · cases hkind
      · exact ih hl
  | node _ hparam _ _ ihChildren ihRest =>
      rw [locationsOf, locationsAt, List.mem_append, List.mem_cons] at hl
      rcases hl with (rfl | hl) | hl
      · rcases hparam hkind with ⟨x, _, hchildren⟩
        exact ⟨x, hchildren⟩
      · exact ihChildren hl
      · exact ihRest hl

/-- Two parameters of lambdas at the same place are the same one. -/
theorem eq_of_param_start_eq (h : Spaced last ts final) (hpos : ∀ x ∈ leavesOf ts, 0 < x.width)
    (hl : l ∈ locationsOf above start index ts) (hl' : l' ∈ locationsOf above start index ts)
    (hkind : l.node.kind = .lambdaParam) (hkind' : l'.node.kind = .lambdaParam)
    (hstart : l.node.start = l'.node.start) : l = l' := by
  induction h generalizing above start index with
  | nil => cases hl
  | trivia _ _ ih | token _ _ ih =>
      rw [leavesOf, List.forall_mem_append] at hpos
      rw [locationsOf, locationsAt, List.nil_append] at hl hl'
      exact ih hpos.2 hl hl'
  | empty _ ih =>
      rw [leavesOf, List.forall_mem_append] at hpos
      rw [locationsOf, locationsAt, locationsOf, List.mem_append, List.mem_singleton] at hl hl'
      rcases hl with rfl | hl
      · cases hkind
      · rcases hl' with rfl | hl'
        · cases hkind'
        · exact ih hpos.2 hl hl'
  | @node kind children ts _ _ _ hnonempty hparam hchildren hrest ihChildren ihRest =>
      have hfirst : Spaced _ [Tree.node kind children] _ :=
        .node hnonempty hparam hchildren (.nil _)
      have hapart : ∀ {a b : Location},
          a ∈ locationsOf above start index [Tree.node kind children] →
          b ∈ locationsOf above (start + (Tree.node kind children).width) (index + 1) ts →
          a.node.kind = .lambdaParam → a.node.start ≠ b.node.start := by
        intro a b ha hb hkind
        have hleaves : ∀ x ∈ leavesOf [Tree.node kind children], 0 < x.width := by
          rw [leavesOf, List.forall_mem_append] at hpos
          rw [leavesOf, leavesOf, List.append_nil]
          exact hpos.1
        have hextent := widthOf_pos_of_token hleaves ha (hfirst.token_of_param ha hkind)
        have hstop := (bounds_of_mem ha).2
        have hbehind := (bounds_of_mem hb).1
        rw [widthOf, widthOf] at hstop
        omega
      rw [leavesOf, leaves, List.forall_mem_append] at hpos
      rw [locationsOf, List.mem_append] at hl hl'
      rw [locationsOf, locationsOf, List.append_nil] at hapart
      rcases hl with hl | hl
      · rcases hl' with hl' | hl'
        · -- Nothing but a token stands in a parameter.
          rw [locationsAt, List.mem_cons] at hl hl'
          rcases hl with rfl | hl
          · rcases hl' with rfl | hl'
            · rfl
            · rcases hparam hkind with ⟨x, _, rfl⟩
              cases hl'
          · rcases hl' with rfl | hl'
            · rcases hparam hkind' with ⟨x, _, rfl⟩
              cases hl
            · exact ihChildren hpos.1 hl hl'
        · exact absurd hstart (hapart hl hl' hkind)
      · rcases hl' with hl' | hl'
        · exact absurd hstart.symm (hapart hl' hl hkind')
        · exact ihRest hpos.2 hl hl'

end Spaced

end Tree

end Syntax

end Nominal
