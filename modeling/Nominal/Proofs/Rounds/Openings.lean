import Nominal.Proofs.Naming
import Nominal.Proofs.Splice

/-!
# Creations of Anonymous Objects Are Used Up

An anonymous object is created where the keyword is followed by a brace. An extraction puts the
name of the new type between the two, and what else it puts into the text has no such place: a
member that gets its name written out starts with that name, and the new class creates nothing.
So there is one such place less for each creation that is named.

The places are counted in the kinds of the tokens, across the borders of trees. The keyword may
be the last token of one tree and the brace the first one of the next, so the count of a list is
not the sum of the counts of its parts. `Fewer` therefore speaks of what comes behind as well.

## Main definitions

* `openings`: How often the keyword of a creation is followed by a brace.
* `Outnumbers`: One list of kinds has more openings than another one.
* `Fewer`: It has so whatever comes behind the two.

## Theorems

* `fewer_nameCreation`: A creation that is named is an opening less.
* `fewer_nameCreations`: Naming creations in a tree leaves that many openings fewer.
* `openings_class`: A new class has no openings.
-/

namespace Nominal

open Syntax (Kind Lexeme Tree Node)
open Text (Span)

/-- How often among the kinds of tokens the keyword of a creation is followed by a brace. -/
def openings : List Kind → Nat
  | [] => 0
  | k :: ks => (if k = .kwNew ∧ ks.head? = some .braceOpen then 1 else 0) + openings ks

theorem openings_cons_of_ne {k : Kind} (h : k ≠ .kwNew) (ks : List Kind) :
    openings (k :: ks) = openings ks := by
  rw [openings, if_neg fun hboth => h hboth.1, Nat.zero_add]

theorem openings_append_of_not_mem {js : List Kind} (h : Kind.kwNew ∉ js) (ks : List Kind) :
    openings (js ++ ks) = openings ks := by
  induction js with
  | nil => rfl
  | cons j js ih =>
      rw [List.mem_cons, not_or] at h
      rw [List.cons_append, openings_cons_of_ne (Ne.symm h.1), ih h.2]

/-- There are no more openings than tokens. -/
theorem openings_le_length (ks : List Kind) : openings ks ≤ ks.length := by
  induction ks with
  | nil => exact Nat.le_refl 0
  | cons k ks ih =>
      rw [openings, List.length_cons]
      split
      · omega
      · omega

/-- The second list has at least `n` openings fewer than the first one, and does not start with
    a brace where the first one does not. -/
structure Outnumbers (n : Nat) (ks ls : List Kind) : Prop where
  count : openings ls + n ≤ openings ks
  head : ls.head? = some .braceOpen → ks.head? = some .braceOpen

namespace Outnumbers

variable {n m : Nat} {ks ls ms : List Kind}

theorem refl (ks : List Kind) : Outnumbers 0 ks ks := ⟨Nat.le_refl _, id⟩

theorem trans (h : Outnumbers n ks ls) (h' : Outnumbers m ls ms) : Outnumbers (n + m) ks ms where
  count := by
    have hcount := h.count
    have hcount' := h'.count
    omega
  head := h.head ∘ h'.head

theorem cons (k : Kind) (h : Outnumbers n ks ls) : Outnumbers n (k :: ks) (k :: ls) where
  count := by
    have hcount := h.count
    rw [openings, openings]
    by_cases hboth : k = .kwNew ∧ ls.head? = some .braceOpen
    · rw [if_pos hboth, if_pos ⟨hboth.1, h.head hboth.2⟩]
      omega
    · rw [if_neg hboth]
      omega
  head := id

/-- Tokens may be put in that neither start with a brace nor have the keyword among them. -/
theorem insert (js : List Kind) (hjs : Kind.kwNew ∉ js) (hhead : js.head? ≠ some .braceOpen)
    (h : Outnumbers n ks ls) : Outnumbers n ks (js ++ ls) where
  count := by
    rw [openings_append_of_not_mem hjs]
    exact h.count
  head hbrace := by
    cases js with
    | nil => exact h.head hbrace
    | cons j js => exact absurd hbrace hhead

/-- A name between the keyword and the brace takes an opening away. -/
theorem name (h : Outnumbers n (.braceOpen :: ks) ls) :
    Outnumbers (1 + n) (.kwNew :: .braceOpen :: ks) (.kwNew :: .id :: ls) where
  count := by
    have hcount := h.count
    have hnamed : openings (.kwNew :: .id :: ls) = openings ls := by
      rw [openings, if_neg (by simp), openings_cons_of_ne (by decide), Nat.zero_add]
    have hopening : openings (.kwNew :: .braceOpen :: ks) = 1 + openings (.braceOpen :: ks) := by
      rw [openings, if_pos ⟨rfl, rfl⟩]
    omega
  head h := by cases h

end Outnumbers

/-- The second list has at least `n` openings fewer than the first one, whatever comes behind
    the two. -/
def Fewer (n : Nat) (ks ls : List Kind) : Prop :=
  ∀ (m : Nat) (ks' ls' : List Kind), Outnumbers m ks' ls' →
    Outnumbers (n + m) (ks ++ ks') (ls ++ ls')

namespace Fewer

variable {n m : Nat} {ks ls ms : List Kind}

theorem refl (ks : List Kind) : Fewer 0 ks ks := by
  intro m ks' ls' h
  rw [Nat.zero_add]
  induction ks with
  | nil => exact h
  | cons k ks ih => exact ih.cons k

theorem trans (h : Fewer n ks ls) (h' : Fewer m ls ms) : Fewer (n + m) ks ms := by
  intro j ks' ls' hbehind
  have hboth := (h 0 ks' ks' (.refl ks')).trans (h' j ks' ls' hbehind)
  rwa [Nat.add_zero, ← Nat.add_assoc] at hboth

theorem append {ks' ls' : List Kind} (h : Fewer n ks ls) (h' : Fewer m ks' ls') :
    Fewer (n + m) (ks ++ ks') (ls ++ ls') := by
  intro j ks'' ls'' hbehind
  rw [List.append_assoc, List.append_assoc, Nat.add_assoc]
  exact h _ _ _ (h' _ _ _ hbehind)

theorem insert (js : List Kind) (hjs : Kind.kwNew ∉ js) (hhead : js.head? ≠ some .braceOpen)
    (h : Fewer n ks ls) : Fewer n ks (js ++ ls) := by
  intro m ks' ls' hbehind
  rw [List.append_assoc]
  exact (h m ks' ls' hbehind).insert js hjs hhead

/-- So it has by itself. -/
theorem openings_le (h : Fewer n ks ls) : openings ls + n ≤ openings ks := by
  have hcount := (h 0 [] [] (.refl [])).count
  rwa [List.append_nil, List.append_nil] at hcount

end Fewer

/-! ### Naming -/

theorem kindsOf_leavesOf_cons (t : Tree) (ts : List Tree) :
    kindsOf (Tree.leavesOf (t :: ts)) = kindsOf t.leaves ++ kindsOf (Tree.leavesOf ts) := by
  rw [Tree.leavesOf, kindsOf_append]

/-- A member gets its name before it, which is no opening. -/
theorem fewer_asInitializer (t : Tree) : Fewer 0 (kindsOf t.leaves) (kindsOf (asInitializer t).leaves) := by
  unfold asInitializer
  split
  · next children =>
      rw [Tree.leaves, Tree.leaves, Tree.leavesOf_append, kindsOf_append]
      cases impliedName? children with
      | none => exact .refl _
      | some name =>
          have hplain := Fewer.refl (kindsOf (Tree.leavesOf children))
          exact hplain.insert [.id, .equals] (by decide) (by decide)
  · exact .refl _

theorem fewer_map_asInitializer (ts : List Tree) :
    Fewer 0 (kindsOf (Tree.leavesOf ts)) (kindsOf (Tree.leavesOf (ts.map asInitializer))) := by
  induction ts with
  | nil => exact .refl _
  | cons t ts ih =>
      rw [List.map_cons, kindsOf_leavesOf_cons, kindsOf_leavesOf_cons]
      exact (fewer_asInitializer t).append ih

/-- A creation that is named is an opening less. -/
theorem fewer_nameCreation (name : String) {children : List Tree} (h : Tree.Opens children) :
    Fewer 1 (kindsOf (Tree.leavesOf children)) (kindsOf (nameCreation name children).leaves) := by
  rcases h with
    ⟨before, between, keyword, brace, behind, rfl, hbefore, hkeyword, hbetween, hbrace⟩
  rw [nameCreation_opens name hbefore hkeyword hbetween hbrace]
  have hword : keyword.isTrivia = false := isTrivia_eq_false hkeyword rfl
  have hopen : brace.isTrivia = false := isTrivia_eq_false hbrace rfl
  -- Trivia does not count, so the keyword and the brace stand next to each other.
  have hold : kindsOf (Tree.leavesOf (before.map .token
      ++ .token keyword :: (between.map .token ++ .token brace :: behind)))
        = .kwNew :: .braceOpen :: kindsOf (Tree.leavesOf behind) := by
    simp only [Tree.leavesOf_append, Tree.leavesOf_map_token, kindsOf_append, Tree.leavesOf,
      Tree.leaves, List.singleton_append, kindsOf_trivia hbefore, kindsOf_trivia hbetween,
      kindsOf_cons hword, kindsOf_cons hopen, hkeyword, hbrace, List.nil_append]
  have hname : kindsOf (leaf .id name).leaves = [.id] := rfl
  have hspace : kindsOf space.leaves = [] := rfl
  have hnew : kindsOf (Tree.leaves (.node .objectCreation (before.map .token
      ++ .token keyword :: space :: .node .namedType [leaf .id name] :: (between.map .token
        ++ [.node .objectInit (.token brace :: behind.map asInitializer)]))))
          = .kwNew :: .id :: .braceOpen :: kindsOf (Tree.leavesOf (behind.map asInitializer)) := by
    simp only [Tree.leavesOf_append, Tree.leavesOf_map_token, kindsOf_append, Tree.leavesOf,
      Tree.leaves, List.singleton_append, kindsOf_trivia hbefore, kindsOf_trivia hbetween,
      kindsOf_cons hword, kindsOf_cons hopen, hkeyword, hbrace, List.nil_append, hname, hspace,
      List.append_nil]
  rw [hold, hnew]
  intro m ks' ls' hbehind
  have hmembers := fewer_map_asInitializer behind m ks' ls' hbehind
  rw [Nat.zero_add] at hmembers
  exact (hmembers.cons .braceOpen).name

section Naming

variable {isMeant : Span → Bool} {name : String}

/-- Naming creations inside a creation leaves its keyword and its brace. -/
theorem opens_nameCreationsOf {start : Nat} {ts : List Tree} (h : Tree.Opens ts) :
    Tree.Opens (nameCreationsOf isMeant name start ts) := by
  rcases h with ⟨before, between, keyword, brace, behind, rfl, hrest⟩
  rw [nameCreationsOf_tokens, nameCreationsOf, nameCreations, nameCreationsOf_tokens,
    nameCreationsOf, nameCreations]
  exact ⟨before, between, keyword, brace, _, rfl, hrest⟩

mutual

/-- Naming creations in a tree leaves that many openings fewer. -/
theorem fewer_nameCreations {t : Tree} (ht : t.Conforms) (above : List Node) (start index : Nat) :
    Fewer ((Tree.locationsAt above start index t).countP (isNamed isMeant)) (kindsOf t.leaves)
      (kindsOf (nameCreations isMeant name start t).leaves) := by
  cases t with
  | token l => exact .refl _
  | node kind children =>
      cases ht with
      | node hfits hopens hchildren =>
          have hinner := fewer_nameCreationsOf hchildren
            (⟨kind, children, start, index⟩ :: above) start 0
          rw [nameCreations, Tree.locationsAt, List.countP_cons]
          have hhere : isNamed isMeant ⟨⟨kind, children, start, index⟩, above⟩ = true
              ↔ kind = .anonObjectCreation
                ∧ isMeant (Span.ofWidth start (Tree.widthOf children)) = true := by
            rw [isNamed, Bool.and_eq_true, beq_iff_eq]
            rfl
          by_cases hnamed : kind = .anonObjectCreation
              ∧ isMeant (Span.ofWidth start (Tree.widthOf children)) = true
          · rw [if_pos (hhere.mpr hnamed), if_pos hnamed]
            exact hinner.trans (fewer_nameCreation name (opens_nameCreationsOf (hopens hnamed.1)))
          · rw [if_neg (hnamed ∘ hhere.mp), if_neg hnamed]
            exact hinner

theorem fewer_nameCreationsOf {ts : List Tree} (hts : ∀ t ∈ ts, t.Conforms) (above : List Node)
    (start index : Nat) :
    Fewer ((Tree.locationsOf above start index ts).countP (isNamed isMeant))
      (kindsOf (Tree.leavesOf ts))
      (kindsOf (Tree.leavesOf (nameCreationsOf isMeant name start ts))) := by
  cases ts with
  | nil => exact .refl _
  | cons t ts =>
      rw [List.forall_mem_cons] at hts
      rw [nameCreationsOf, kindsOf_leavesOf_cons, kindsOf_leavesOf_cons, Tree.locationsOf,
        List.countP_append]
      exact (fewer_nameCreations hts.1 above start index).append
        (fewer_nameCreationsOf hts.2 above (start + t.width) (index + 1))

end

end Naming

/-! ### The new class -/

/-- No lexeme is the keyword of a creation. -/
def CreatesNothing (ls : List Lexeme) : Prop := (ls.all fun l => l.kind != .kwNew) = true

theorem CreatesNothing.append {ls ms : List Lexeme} (h : CreatesNothing ls)
    (h' : CreatesNothing ms) : CreatesNothing (ls ++ ms) := by
  rw [CreatesNothing, List.all_append, h, h', Bool.and_self]

theorem CreatesNothing.not_mem {ls : List Lexeme} (h : CreatesNothing ls) :
    Kind.kwNew ∉ kindsOf ls := by
  intro hmem
  rcases List.mem_map.mp hmem with ⟨l, hl, hkind⟩
  have hother := List.all_eq_true.mp h l (List.mem_filter.mp hl).1
  rw [hkind] at hother
  cases hother

theorem createsNothing_separated {separator ts : List Tree}
    (hseparator : CreatesNothing (Tree.leavesOf separator))
    (hts : CreatesNothing (Tree.leavesOf ts)) :
    CreatesNothing (Tree.leavesOf (separated separator ts)) := by
  induction ts with
  | nil => exact hts
  | cons t ts ih =>
      cases ts with
      | nil => exact hts
      | cons u us =>
          rw [Tree.leavesOf, CreatesNothing, List.all_append, Bool.and_eq_true] at hts
          have hmore : separated separator (t :: u :: us)
              = t :: (separator ++ separated separator (u :: us)) := rfl
          rw [hmore, Tree.leavesOf, Tree.leavesOf_append]
          exact .append hts.1 (hseparator.append (ih hts.2))

theorem createsNothing_dotted (segments : List String) :
    CreatesNothing (Tree.leavesOf (Program.TypeRef.dotted segments)) := by
  refine createsNothing_separated rfl ?_
  induction segments with
  | nil => rfl
  | cons segment segments ih => exact ih

mutual

/-- A type that is written creates nothing. -/
theorem createsNothing_type (t : Program.TypeRef) : CreatesNothing t.tree.leaves := by
  cases t with
  | missing => rfl
  | predefined keyword => cases keyword <;> rfl
  | named segments args =>
      cases args with
      | none => exact createsNothing_dotted segments
      | some args =>
          have hargs : CreatesNothing (Tree.leavesOf
              (separated [leaf .comma ",", space] (Program.TypeRef.trees args))) :=
            createsNothing_separated rfl (createsNothing_types args)
          have hopen : CreatesNothing [⟨.lt, "<"⟩] := rfl
          rw [Program.TypeRef.tree, Tree.leaves, Tree.leavesOf_append]
          refine (createsNothing_dotted segments).append ?_
          simp only [Tree.leavesOf, Tree.leaves, Tree.leavesOf_append, List.append_nil,
            List.cons_append]
          exact hopen.append (hargs.append rfl)
  | array element => exact (createsNothing_type element).append rfl
  | nullable inner => exact (createsNothing_type inner).append rfl

theorem createsNothing_types (ts : List Program.TypeRef) :
    CreatesNothing (Tree.leavesOf (Program.TypeRef.trees ts)) := by
  cases ts with
  | nil => rfl
  | cons t ts => exact (createsNothing_type t).append (createsNothing_types ts)

end

theorem createsNothing_lineStart (layout : Layout) (indent : String) :
    CreatesNothing (Tree.leavesOf (ClassForm.lineStart layout indent)) := by
  rw [ClassForm.lineStart, blanks]
  split <;> rfl

theorem createsNothing_member (style : MemberStyle) (m : MemberForm) :
    CreatesNothing (m.tree style).leaves := by
  have htype := createsNothing_type m.type
  have hpublic : CreatesNothing [⟨.kwPublic, "public"⟩, ⟨.whitespace, " "⟩] := rfl
  cases style with
  | property => exact hpublic.append (htype.append rfl)
  | field => exact hpublic.append (htype.append rfl)

/-- A new class creates nothing. -/
theorem createsNothing_class (form : ClassForm) (layout : Layout) :
    CreatesNothing (form.tree layout).leaves := by
  have hmembers : CreatesNothing (Tree.leavesOf (form.members.flatMap fun m =>
      ClassForm.lineStart layout (layout.baseIndent ++ form.indent) ++ [m.tree form.style])) := by
    induction form.members with
    | nil => rfl
    | cons m ms ih =>
        rw [List.flatMap_cons, Tree.leavesOf_append, Tree.leavesOf_append, Tree.leavesOf,
          Tree.leavesOf, List.append_nil]
        exact .append (.append (createsNothing_lineStart _ _) (createsNothing_member _ m)) ih
  have hline := createsNothing_lineStart layout layout.baseIndent
  simp only [ClassForm.tree, Tree.leaves, Tree.leavesOf_append]
  exact .append (.append (.append (.append (.append rfl hline) rfl) hmembers) hline) rfl

/-- What is put behind a type is no opening, nor does it complete one. -/
theorem fewer_declared (form : ClassForm) (layout : Layout) {separator : List Tree}
    (hseparator : ∀ l ∈ Tree.leavesOf separator, l.isTrivia = true) (ks : List Kind) :
    Fewer 0 ks (kindsOf (Tree.leavesOf (separator ++ [form.tree layout])) ++ ks) := by
  have hkinds : kindsOf (Tree.leavesOf (separator ++ [form.tree layout]))
      = kindsOf (form.tree layout).leaves := by
    rw [Tree.leavesOf_append, kindsOf_append, kindsOf_trivia hseparator, List.nil_append,
      Tree.leavesOf, Tree.leavesOf, List.append_nil]
  have hhead : (kindsOf (form.tree layout).leaves).head? = some .kwClass := by
    simp only [ClassForm.tree, List.append_assoc]
    rfl
  rw [hkinds]
  exact (Fewer.refl ks).insert _ (createsNothing_class form layout).not_mem
    (by rw [hhead]; decide)

end Nominal
