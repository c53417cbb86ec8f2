import Nominal.Syntax.Tree

/-!
# What Is Left Without Trivia

The lexemes of a source that are no trivia, and a tree without those that are. Dropping trivia
leaves all nodes where they are, also those that have nothing in them afterwards.

## Main definitions

* `Lexeme.bare`: The lexemes of a list that are no trivia.
* `Tree.bare`: A tree without trivia.

## Theorems

* `Tree.bareOf_map_token`: Leaves side by side, without trivia.
-/

namespace Nominal

namespace Syntax

/-- The lexemes that are no trivia. -/
def Lexeme.bare (ls : List Lexeme) : List Lexeme := ls.filter fun l => !l.isTrivia

namespace Lexeme

@[simp]
theorem bare_nil : bare [] = [] := rfl

@[simp]
theorem bare_append (xs ys : List Lexeme) : bare (xs ++ ys) = bare xs ++ bare ys :=
  List.filter_append ..

theorem bare_cons_token {l : Lexeme} (hl : l.isTrivia = false) (ls : List Lexeme) :
    bare (l :: ls) = l :: bare ls :=
  List.filter_cons_of_pos (by rw [hl]; rfl)

theorem bare_cons_trivia {l : Lexeme} (hl : l.isTrivia = true) (ls : List Lexeme) :
    bare (l :: ls) = bare ls :=
  List.filter_cons_of_neg (by rw [hl]; exact Bool.false_ne_true)

theorem bare_eq_nil {ls : List Lexeme} (h : ∀ l ∈ ls, l.isTrivia = true) : bare ls = [] := by
  rw [bare, List.filter_eq_nil_iff]
  intro l hl
  rw [h l hl]
  exact Bool.false_ne_true

/-- A token that is no trivia is found whether trivia stands before it or not. -/
theorem find?_bare {f : Lexeme → Bool} (hf : ∀ l, l.isTrivia = true → f l = false)
    (ls : List Lexeme) : (bare ls).find? f = ls.find? f := by
  rw [bare, List.find?_filter]
  refine congrArg (ls.find? ·) (funext fun l => ?_)
  cases hl : l.isTrivia with
  | true => simp [hf l hl]
  | false => simp

theorem filter_bare {f : Lexeme → Bool} (hf : ∀ l, l.isTrivia = true → f l = false)
    (ls : List Lexeme) : (bare ls).filter f = ls.filter f := by
  rw [bare, List.filter_filter]
  refine congrArg (ls.filter ·) (funext fun l => ?_)
  cases hl : l.isTrivia with
  | true => rw [hf l hl, Bool.false_and]
  | false => exact Bool.and_true _

theorem beq_trivia {k : Kind} (hk : k.isTrivia = false) (l : Lexeme) (hl : l.isTrivia = true) :
    (l.kind == k) = false := by
  refine beq_eq_false_iff_ne.mpr ?_
  rintro rfl
  exact Bool.false_ne_true (hk.symm.trans hl)

end Lexeme

namespace Tree

/-- Whether a tree is a leaf that is trivia. -/
def isTrivia : Tree → Bool
  | token lexeme => lexeme.isTrivia
  | node _ _ => false

mutual

/-- A tree without trivia. A leaf that is trivia itself is left as it is. -/
def bare : Tree → Tree
  | token lexeme => token lexeme
  | node kind children => node kind (bareOf children)

/-- Several trees without trivia. -/
def bareOf : List Tree → List Tree
  | [] => []
  | t :: ts => if t.isTrivia then bareOf ts else bare t :: bareOf ts

end

@[simp]
theorem bareOf_nil : bareOf [] = [] := rfl

@[simp]
theorem bareOf_node (kind : Kind) (children ts : List Tree) :
    bareOf (node kind children :: ts) = node kind (bareOf children) :: bareOf ts := rfl

theorem bareOf_token {l : Lexeme} (hl : l.isTrivia = false) (ts : List Tree) :
    bareOf (token l :: ts) = token l :: bareOf ts := by
  rw [bareOf, isTrivia, hl, if_neg Bool.false_ne_true, bare]

theorem bareOf_trivia {l : Lexeme} (hl : l.isTrivia = true) (ts : List Tree) :
    bareOf (token l :: ts) = bareOf ts := by
  rw [bareOf, isTrivia, if_pos hl]

@[simp]
theorem bareOf_append (xs ys : List Tree) : bareOf (xs ++ ys) = bareOf xs ++ bareOf ys := by
  induction xs with
  | nil => rw [List.nil_append, bareOf_nil, List.nil_append]
  | cons t ts ih =>
      cases t with
      | node kind children => rw [List.cons_append, bareOf_node, ih, bareOf_node, List.cons_append]
      | token l =>
          cases hl : l.isTrivia with
          | true => rw [List.cons_append, bareOf_trivia hl, ih, bareOf_trivia hl]
          | false => rw [List.cons_append, bareOf_token hl, ih, bareOf_token hl, List.cons_append]

/-- Leaves side by side, without trivia. -/
@[simp]
theorem bareOf_map_token (ls : List Lexeme) :
    bareOf (ls.map token) = (Lexeme.bare ls).map token := by
  induction ls with
  | nil => exact bareOf_nil
  | cons l ls ih =>
      cases hl : l.isTrivia with
      | true => rw [List.map_cons, bareOf_trivia hl, ih, Lexeme.bare_cons_trivia hl]
      | false => rw [List.map_cons, bareOf_token hl, ih, Lexeme.bare_cons_token hl, List.map_cons]

end Tree

end Syntax

end Nominal
