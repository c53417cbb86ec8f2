import Nominal.Proofs.Reading
import Nominal.Extraction.Creation

/-!
# Texts and Trees Before and After an Extraction

An extraction puts lexemes between the lexemes of a text: the name of the new type behind
the keyword of a creation, the name of a member before the member, and the declaration
behind the braces of a type. `Spliced` says of two lists of lexemes that the second one
comes about in this way, and `Altered` says the same of two lists of trees.

What the parser sees ahead of it then changes in few ways. Two spliced lists start with the
same lexeme, and tokens turn up only behind the keyword, behind a brace and behind a comma.
Behind a comma these are always a name and an equals sign. `Foretold` keeps just that.

A declaration is only added to the items of a file or of a namespace. So `Altered` carries
along whether the trees are such items.

## Main definitions

* `Edit`: What an extraction adds.
* `Spliced`: Lexemes before and after an extraction.
* `Foretold`: The kinds of the tokens before and after an extraction.
* `Altered`: Trees before and after an extraction.

## Theorems

* `Spliced.foretold`: The kinds of the tokens of spliced lists.
* `Altered.append`: Trees side by side are altered one by one.
* `Altered.join`: Altered trees stand side by side.
* `Altered.single`: How a single node is altered.
-/

namespace Nominal

open Syntax (Kind Lexeme Tree)

namespace Syntax

/-- A word that is no reserved one. -/
def IsName (text : String) : Prop :=
  ∃ c cs, text.toList = c :: cs ∧ startsWord c = true ∧ (∀ d ∈ cs, continuesWord d = true) ∧
    Kind.reserved? text = none

end Syntax

open Syntax (IsName)

/-- What an extraction adds. -/
structure Edit where
  /-- The name of the new type. -/
  name : String
  /-- What stands between the declaration and the type before it. -/
  separator : List Lexeme
  declaration : Tree

namespace Edit

/-- The lexemes behind the keyword of a creation. -/
def nameLexemes (e : Edit) : List Lexeme := [⟨.whitespace, " "⟩, ⟨.id, e.name⟩]

/-- The lexemes before a member that brings its name. -/
def assignLexemes (name : String) : List Lexeme :=
  [⟨.id, name⟩, ⟨.whitespace, " "⟩, ⟨.equals, "="⟩, ⟨.whitespace, " "⟩]

/-- The trees behind the outermost type. -/
def added (e : Edit) : List Tree := e.separator.map .token ++ [e.declaration]

/-- The lexemes behind the outermost type. -/
def addedLexemes (e : Edit) : List Lexeme := e.separator ++ e.declaration.leaves

end Edit

/-- Lexemes before and after an extraction. -/
inductive Spliced (e : Edit) : List Lexeme → List Lexeme → Prop where
  | nil : Spliced e [] []
  | cons (l : Lexeme) {ls ms : List Lexeme} : Spliced e ls ms → Spliced e (l :: ls) (l :: ms)
  /-- A keyword gets the name behind it. -/
  | name {l : Lexeme} {ls ms : List Lexeme} : l.kind = .kwNew → Spliced e ls ms →
    Spliced e (l :: ls) (l :: (e.nameLexemes ++ ms))
  /-- A member gets its name before it. -/
  | assign {l next : Lexeme} {trivia ls ms : List Lexeme} {name : String} :
    l.kind = .braceOpen ∨ l.kind = .comma → (∀ t ∈ trivia, t.isTrivia = true) →
    next.isTrivia = false → IsName name → Spliced e (next :: ls) ms →
    Spliced e (l :: (trivia ++ next :: ls)) (l :: (trivia ++ (Edit.assignLexemes name ++ ms)))
  /-- A type gets the declaration behind it. -/
  | declare {l : Lexeme} {ls ms : List Lexeme} : l.kind = .braceClose → Spliced e ls ms →
    Spliced e (l :: ls) (l :: (e.addedLexemes ++ ms))

/-- The kinds behind which an extraction adds tokens. -/
def opensSplice (k : Kind) : Bool :=
  k == .kwNew || k == .braceOpen || k == .braceClose || k == .comma

/-- The kinds of the tokens before and after an extraction. -/
inductive Foretold : List Kind → List Kind → Prop where
  | nil : Foretold [] []
  | cons (k : Kind) {ks ls : List Kind} : Foretold ks ls → Foretold (k :: ks) (k :: ls)
  | splice {k : Kind} {ks ls : List Kind} (more : List Kind) : opensSplice k = true →
    k ≠ .comma → Foretold ks ls → Foretold (k :: ks) (k :: (more ++ ls))
  | assign {ks ls : List Kind} : Foretold ks ls →
    Foretold (.comma :: ks) (.comma :: .id :: .equals :: ls)

/-- The kinds of the tokens among lexemes. -/
def kindsOf (ls : List Lexeme) : List Kind := (ls.filter fun l => !l.isTrivia).map Lexeme.kind

theorem kindsOf_append (ls ms : List Lexeme) : kindsOf (ls ++ ms) = kindsOf ls ++ kindsOf ms := by
  rw [kindsOf, List.filter_append, List.map_append]
  rfl

theorem kindsOf_trivia {ls : List Lexeme} (h : ∀ l ∈ ls, l.isTrivia = true) : kindsOf ls = [] := by
  rw [kindsOf, List.filter_eq_nil_iff.mpr, List.map_nil]
  intro l hl
  rw [h l hl]
  exact Bool.false_ne_true

theorem kindsOf_cons {l : Lexeme} (h : l.isTrivia = false) (ls : List Lexeme) :
    kindsOf (l :: ls) = l.kind :: kindsOf ls := by
  rw [kindsOf, List.filter_cons_of_pos (by rw [h]; rfl), List.map_cons]
  rfl

theorem kindsOf_cons_trivia {l : Lexeme} (h : l.isTrivia = true) (ls : List Lexeme) :
    kindsOf (l :: ls) = kindsOf ls := by
  rw [kindsOf, List.filter_cons_of_neg (by rw [h]; exact Bool.false_ne_true)]
  rfl

theorem isTrivia_eq_false {l : Lexeme} {k : Kind} (h : l.kind = k) (hk : k.isTrivia = false) :
    l.isTrivia = false := by
  rw [Lexeme.isTrivia, h, hk]

namespace Foretold

variable {ks ls : List Kind}

/-- Both lists start with the same kind. -/
theorem head (h : Foretold ks ls) : ls.head? = ks.head? := by
  cases h <;> rfl

/-- Nothing is added behind most kinds. -/
theorem tail {j k : Kind} (h : Foretold (k :: ks) (j :: ls)) (hk : opensSplice k = false) :
    j = k ∧ Foretold ks ls := by
  cases h with
  | cons _ h => exact ⟨rfl, h⟩
  | splice more hopens => cases hopens.symm.trans hk
  | assign h => cases hk

/-- A list that starts with a kind has it from the list before. -/
theorem of_cons {k : Kind} (h : Foretold ks (k :: ls)) : ∃ js, ks = k :: js := by
  cases h with
  | cons _ h => exact ⟨_, rfl⟩
  | splice _ _ _ h => exact ⟨_, rfl⟩
  | assign h => exact ⟨_, rfl⟩

theorem cons_of {k : Kind} (h : Foretold (k :: ks) ls) : ∃ js, ls = k :: js := by
  cases h with
  | cons _ h => exact ⟨_, rfl⟩
  | splice _ _ _ h => exact ⟨_, rfl⟩
  | assign h => exact ⟨_, rfl⟩

end Foretold

namespace Spliced

variable {e : Edit} {ls ms : List Lexeme}

theorem refl (e : Edit) (ls : List Lexeme) : Spliced e ls ls := by
  induction ls with
  | nil => exact .nil
  | cons l ls ih => exact .cons l ih

/-- The same lexemes stand before both lists. -/
theorem prepend (trivia : List Lexeme) (h : Spliced e ls ms) :
    Spliced e (trivia ++ ls) (trivia ++ ms) := by
  induction trivia with
  | nil => exact h
  | cons l trivia ih => exact .cons l ih

/-- Both lists start with the same lexeme. -/
theorem head (h : Spliced e ls ms) : ms.head? = ls.head? := by
  cases h <;> rfl

/-- The kinds of the tokens of spliced lists. -/
theorem foretold (h : Spliced e ls ms) : Foretold (kindsOf ls) (kindsOf ms) := by
  induction h with
  | nil => exact .nil
  | @cons l ls ms _ ih =>
      cases hl : l.isTrivia with
      | true => rw [kindsOf_cons_trivia hl, kindsOf_cons_trivia hl]; exact ih
      | false => rw [kindsOf_cons hl, kindsOf_cons hl]; exact .cons _ ih
  | name hl _ ih =>
      rw [kindsOf_cons (isTrivia_eq_false hl rfl), kindsOf_cons (isTrivia_eq_false hl rfl), hl,
        kindsOf_append]
      exact .splice _ rfl nofun ih
  | @assign l next trivia ls ms name hl htrivia hnext _ _ ih =>
      have hkinds : kindsOf (Edit.assignLexemes name) = [.id, .equals] := rfl
      have htoken : l.isTrivia = false := by
        rcases hl with hl | hl
        · exact isTrivia_eq_false hl rfl
        · exact isTrivia_eq_false hl rfl
      rw [kindsOf_cons htoken, kindsOf_cons htoken, kindsOf_append, kindsOf_append, kindsOf_append,
        kindsOf_trivia htrivia, List.nil_append, List.nil_append, hkinds]
      rcases hl with hl | hl
      · rw [hl]
        exact .splice [.id, .equals] rfl nofun ih
      · rw [hl]
        exact .assign ih
  | declare hl _ ih =>
      rw [kindsOf_cons (isTrivia_eq_false hl rfl), kindsOf_cons (isTrivia_eq_false hl rfl), hl,
        kindsOf_append]
      exact .splice _ rfl nofun ih

end Spliced

/-- Whether there is an equals sign among trees. -/
def HasEquals (ts : List Tree) : Prop := ∃ l, .token l ∈ ts ∧ l.kind = .equals

/-- Each member of a creation has its name written or brings it. -/
def AreNameable (ts : List Tree) : Prop :=
  ∀ ms, .node .anonMember ms ∈ ts → HasEquals ms ∨ ∃ name, impliedName? ms = some name ∧ IsName name

/-- Trees before and after an extraction, and whether they are items. -/
inductive Altered (e : Edit) : Bool → List Tree → List Tree → Prop where
  | nil {items : Bool} : Altered e items [] []
  | token {items : Bool} (l : Lexeme) {ts us : List Tree} : Altered e items ts us →
    Altered e items (.token l :: ts) (.token l :: us)
  | node {items : Bool} (kind : Kind) {cs ds ts us : List Tree} :
    Altered e (items && kind == .namespaceDecl) cs ds → Altered e items ts us →
    Altered e items (.node kind cs :: ts) (.node kind ds :: us)
  /-- A creation gets the name of the new type. -/
  | named {items : Bool} {cs ds ts us : List Tree} : Altered e false cs ds → AreNameable ds →
    Altered e items ts us →
    Altered e items (.node .anonObjectCreation cs :: ts) (nameCreation e.name ds :: us)
  /-- A type gets the declaration behind it. -/
  | declared {cs ds ts us : List Tree} : Altered e false cs ds → Altered e true ts us →
    Altered e true (.node .typeDecl cs :: ts) (.node .typeDecl ds :: (e.added ++ us))

namespace Altered

variable {e : Edit} {items : Bool} {ts us : List Tree}

/-- Trees may be left as they are. -/
theorem refl (e : Edit) (items : Bool) (ts : List Tree) : Altered e items ts ts := by
  cases ts with
  | nil => exact .nil
  | cons t ts =>
      cases t with
      | token l => exact .token l (refl e items ts)
      | node kind cs => exact .node kind (refl e _ cs) (refl e items ts)

theorem join {ts' us' : List Tree} (h : Altered e items ts us) (h' : Altered e items ts' us') :
    Altered e items (ts ++ ts') (us ++ us') := by
  induction h with
  | nil => exact h'
  | token l _ ih => exact .token l (ih h')
  | node kind hcs _ _ ih => exact .node kind hcs (ih h')
  | named hcs hnameable _ _ ih => exact .named hcs hnameable (ih h')
  | declared hcs _ _ ih =>
      rw [List.cons_append, List.cons_append, List.append_assoc]
      exact .declared hcs (ih h')

theorem mono (h : Altered e false ts us) : Altered e items ts us := by
  cases items with
  | false => exact h
  | true =>
      generalize hfalse : false = b at h
      induction h with
      | nil => exact .nil
      | token l _ ih => exact .token l (ih hfalse)
      | @node b kind cs ds ts us hcs _ ihChildren ih =>
          subst hfalse
          refine .node kind ?_ (ih rfl)
          cases hkind : kind == Kind.namespaceDecl with
          | true => exact ihChildren rfl
          | false => exact hcs
      | named hcs hnameable _ _ ih =>
          exact .named hcs hnameable (ih hfalse)
      | declared => cases hfalse

/-- Trees side by side are altered one by one. -/
theorem append {xs ys : List Tree} (h : Altered e items (xs ++ ys) us) :
    ∃ vs ws, us = vs ++ ws ∧ Altered e items xs vs ∧ Altered e items ys ws := by
  induction xs generalizing us with
  | nil => exact ⟨[], us, rfl, .nil, h⟩
  | cons x xs ih =>
      rw [List.cons_append] at h
      cases h with
      | token l h =>
          rcases ih h with ⟨vs, ws, rfl, hxs, hys⟩
          exact ⟨.token l :: vs, ws, rfl, .token l hxs, hys⟩
      | node kind hcs h =>
          rcases ih h with ⟨vs, ws, rfl, hxs, hys⟩
          exact ⟨.node kind _ :: vs, ws, rfl, .node kind hcs hxs, hys⟩
      | named hcs hnameable h =>
          rcases ih h with ⟨vs, ws, rfl, hxs, hys⟩
          exact ⟨nameCreation e.name _ :: vs, ws, rfl, .named hcs hnameable hxs, hys⟩
      | declared hcs h =>
          rcases ih h with ⟨vs, ws, rfl, hxs, hys⟩
          refine ⟨.node .typeDecl _ :: (e.added ++ vs), ws, ?_, .declared hcs hxs, hys⟩
          rw [List.cons_append, List.append_assoc]

theorem of_nil (h : Altered e items [] us) : us = [] := by
  generalize hts : ([] : List Tree) = ts at h
  cases h with
  | nil => rfl
  | _ => cases hts

/-- Tokens stay as they are. -/
theorem tokens {ls : List Lexeme} (h : Altered e items (ls.map .token) us) :
    us = ls.map .token := by
  induction ls generalizing us with
  | nil =>
      cases h
      rfl
  | cons l ls ih =>
      cases h with
      | token _ h => rw [ih h, List.map_cons]

theorem append_tokens {xs : List Tree} {ls : List Lexeme}
    (h : Altered e items (xs ++ ls.map .token) us) :
    ∃ vs, us = vs ++ ls.map .token ∧ Altered e items xs vs := by
  rcases h.append with ⟨vs, ws, rfl, hxs, hws⟩
  exact ⟨vs, by rw [hws.tokens], hxs⟩

/-- How a single node is altered. -/
theorem single {kind : Kind} {cs : List Tree} (h : Altered e items [.node kind cs] us) :
    (∃ ds, us = [.node kind ds] ∧ Altered e (items && kind == .namespaceDecl) cs ds) ∨
    (kind = .anonObjectCreation ∧ ∃ ds, us = [nameCreation e.name ds] ∧ AreNameable ds ∧
      Altered e false cs ds) ∨
    (items = true ∧ kind = .typeDecl ∧ ∃ ds, us = .node .typeDecl ds :: e.added ∧
      Altered e false cs ds) := by
  cases h with
  | node _ hcs h =>
      cases h
      exact .inl ⟨_, rfl, hcs⟩
  | named hcs hnameable h =>
      cases h
      exact .inr (.inl ⟨rfl, _, rfl, hnameable, hcs⟩)
  | declared hcs h =>
      cases h
      exact .inr (.inr ⟨rfl, rfl, _, by rw [List.append_nil], hcs⟩)

/-- Most nodes keep their kind and their place. -/
theorem single_plain {kind : Kind} {cs : List Tree} (h : Altered e items [.node kind cs] us)
    (hcreation : (kind == .anonObjectCreation) = false) (htype : (items && kind == .typeDecl) = false) :
    ∃ ds, us = [.node kind ds] ∧ Altered e (items && kind == .namespaceDecl) cs ds := by
  rcases h.single with h | ⟨rfl, _⟩ | ⟨rfl, rfl, _⟩
  · exact h
  · cases hcreation
  · cases htype

end Altered

end Nominal
