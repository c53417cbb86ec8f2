import Nominal.Proofs.Derived.Complete
import Nominal.Proofs.Written.Parsed

/-!
# Parsing an Altered Text

The text of trees that were altered by an extraction is parsed as these trees. The reading of the
text before is carried over from its end, where all lexemes are collected; the second reading then
starts with just the lexemes of the altered trees, and these are the ones that the text is cut
into.

## Theorems

* `Altered.length_leaves`: An alteration takes no lexeme away.
* `Grammar.read_altered`: The lexemes of altered trees are read as these trees.
* `Grammar.parse_altered`: The text of altered trees is cut into their lexemes and parsed as these
  trees.
-/

namespace Nominal

open Syntax (Kind Lexeme Tree isBlank)

theorem length_nameCreation (name : String) (children : List Tree) :
    (Tree.leavesOf children).length ≤ (nameCreation name children).leaves.length := by
  have hinit : ∀ t : Tree, t.leaves.length ≤ (asInitializer t).leaves.length := by
    intro t
    unfold asInitializer
    split
    · rw [Tree.leaves, Tree.leaves, Tree.leavesOf_append, List.length_append]
      exact Nat.le_add_left _ _
    · exact Nat.le_refl _
  have hmap : ∀ ts : List Tree,
      (Tree.leavesOf ts).length ≤ (Tree.leavesOf (ts.map asInitializer)).length := by
    intro ts
    induction ts with
    | nil => exact Nat.le_refl _
    | cons t ts ih =>
        simp only [List.map_cons, Tree.leavesOf, List.length_append]
        exact Nat.add_le_add (hinit t) ih
  have hbehind : ∀ ts : List Tree,
      (Tree.leavesOf ts).length ≤ (Tree.leavesOf (ts.flatMap (nameBehind name))).length := by
    intro ts
    induction ts with
    | nil => exact Nat.le_refl _
    | cons t ts ih =>
        rw [List.flatMap_cons, Tree.leavesOf_append, Tree.leavesOf, List.length_append,
          List.length_append]
        refine Nat.add_le_add ?_ ih
        cases t with
        | token l =>
            rw [nameBehind]
            split
            · simp only [Tree.leaves, Tree.leavesOf, List.length_append, List.length_cons]
              omega
            · exact Nat.le_refl _
        | node kind cs => simp [nameBehind, Tree.leavesOf]
  have hsplit := List.takeWhile_append_dropWhile (p := fun t => !isOpening t) (l := children)
  have hlength := congrArg (fun ts => (Tree.leavesOf ts).length) hsplit
  simp only [Tree.leavesOf_append, List.length_append] at hlength
  rw [nameCreation, Tree.leaves, Tree.leavesOf_append, Tree.leavesOf, Tree.leavesOf, Tree.leaves,
    List.append_nil, List.length_append, ← hlength]
  exact Nat.add_le_add ((hmap _).trans (hbehind _)) (hmap _)

/-- An alteration takes no lexeme away. -/
theorem Altered.length_leaves {e : Edit} {items : Bool} {ts us : List Tree}
    (h : Altered e items ts us) : (Tree.leavesOf ts).length ≤ (Tree.leavesOf us).length := by
  induction h with
  | nil => exact Nat.le_refl _
  | token l _ ih =>
      simp only [Tree.leavesOf, List.length_append]
      exact Nat.add_le_add_left ih _
  | node kind _ _ ihChildren ih =>
      simp only [Tree.leavesOf, Tree.leaves, List.length_append]
      exact Nat.add_le_add ihChildren ih
  | named _ _ _ ihChildren ih =>
      simp only [Tree.leavesOf, Tree.leaves, List.length_append]
      exact Nat.add_le_add (ihChildren.trans (length_nameCreation _ _)) ih
  | declared _ _ ihChildren ih =>
      simp only [Tree.leavesOf, Tree.leaves, Tree.leavesOf_append, List.length_append]
      omega

namespace Grammar

/-- A course whose second readings may be nested deeper by as much as the declaration takes. -/
theorem isFollowed_edit {c : Course} {form : ClassForm} {layout : Layout} (hform : form.IsWritable)
    (hedit : c.edit = form.edit layout) {d : Nat} (hd : (form.tree layout).leaves.length ≤ d)
    (n : Nat) : (c.within d n).IsFollowed := by
  have hsome : 0 < d := by
    refine Nat.lt_of_lt_of_le ?_ hd
    rw [form.tree_eq layout, Tree.leaves, leavesOf_classTrees, classStart]
    exact Nat.succ_pos _
  obtain ⟨k, rfl⟩ : ∃ k, d = k + 1 := ⟨d - 1, by omega⟩
  refine isFollowed_readProduction c (k + 1) (fun n => readsNames_readProduction c.limit (n + k))
    (fun n => ?_) n
  have hdeclaration : (c.within (k + 1) n).edit.declaration = form.tree layout :=
    congrArg Edit.declaration hedit
  refine readsAdded_class hform hdeclaration ?_ (k := n + k) rfl (by omega)
  · rw [show (c.within (k + 1) n).edit = form.edit layout from hedit]
    refine List.forall_mem_cons.mpr ⟨rfl, ClassForm.trivia_lineLexemes layout layout.baseIndent⟩

/-- The reading of a source without mistakes is carried over to the lexemes of altered trees, which
    are spliced into those of the source. -/
theorem read_altered {source : String} {parsed : Parsed} (h : parse source = .ok parsed)
    (hsilent : parsed.diagnostics = []) {form : ClassForm} (hform : form.IsWritable)
    {layout : Layout} {children us : List Tree} (htree : parsed.tree = .node .root children)
    (haltered : Altered (form.edit layout) true children us)
    (hlength : (Tree.leavesOf children).length + (form.tree layout).leaves.length
      ≤ (Tree.leavesOf us).length) :
    Spliced (form.edit layout) (Syntax.lex source) (Tree.leavesOf us) ∧ ∃ fuel q,
      fileScript.read defaultLimits.depth
        (readProduction defaultLimits.depth (levels * ((Tree.leavesOf us).length + 1)))
        ⟨Tree.leavesOf us, [], [], 0, 0, fuel⟩ = some ((), q) ∧ q.output = us := by
  rcases read_of_parse h hsilent with ⟨p, hread, houtput⟩
  have hchildren : p.output = children := by
    rw [htree] at houtput
    exact (Syntax.Tree.node.inj houtput).2.symm
  have hleaves : Tree.leavesOf children = Syntax.lex source := by
    have hleaves := leaves_parseLexemes h
    rw [htree] at hleaves
    exact hleaves
  -- At the end of the first reading all lexemes are collected.
  have hend : p.pending ++ p.rest = [] := by
    have htotal : Tree.leavesOf p.output ++ (p.pending ++ p.rest) = Syntax.lex source :=
      total_script (fun q => read_total _ _ q) fileScript _ p () hread
    rw [hchildren, hleaves] at htotal
    exact List.append_cancel_left (htotal.trans (List.append_nil _).symm)
  rcases List.append_eq_nil_iff.mp hend with ⟨hpending, hrest⟩
  let n := levels * ((Syntax.lex source).length + 1)
  let d := levels * ((Tree.leavesOf us).length - (Syntax.lex source).length)
  let c : Course := ⟨defaultLimits.depth, fun _ _ => none, fun _ _ => none, form.edit layout, p.fuel, 0⟩
  rw [hleaves] at hlength
  have hdeeper : levels * ((Tree.leavesOf us).length + 1) = n + d := by
    simp only [n, d, levels]
    omega
  have hfollowed : (c.within d n).IsFollowed :=
    isFollowed_edit hform rfl (by simp only [d, levels]; omega) n
  have hback : Follows (c.within d n) 0 0 ((c.within d n).Linked ((c.within d n).Trees true))
      ((c.within d n).Linked ((c.within d n).Trees true)) fileScript :=
    .bind (.call (hfollowed (.items false) 0 0 true (absurd · (by decide)))) fun _ =>
      .keepTrivia (peels_trees _ true)
  rcases hback _ p () (Nat.zero_le _) hread with ⟨_, hback⟩
  have hlinked : (c.within d n).Linked ((c.within d n).Trees true) p
      { p with output := us, fuel := 0 } :=
    ⟨.refl _ _, rfl, hchildren ▸ haltered, rfl, rfl, by
      simp only [c, Course.within]
      omega, Nat.le_refl _⟩
  rcases hback _ hlinked with ⟨p', hp, hread'⟩
  -- Nothing is collected at the start of the first reading, so nothing is at that of the second.
  have hstart : p'.output = [] := hp.output.of_nil
  have hrest' : p'.rest = Tree.leavesOf us := by
    have htotal := total_script (fun q => read_total _ _ q) fileScript _ _ _ hread'
    rw [Place.total, Place.total, hstart, hp.pending] at htotal
    simpa only [hpending, hrest, Tree.leavesOf, List.nil_append, List.append_nil, State.place,
      State.initial] using htotal.symm
  have hplace : p' = ⟨Tree.leavesOf us, [], [], 0, 0, p'.fuel⟩ := by
    rcases p' with ⟨_, _, _, _, _, fuel⟩
    cases hstart
    cases hrest'
    cases hp.pending
    cases hp.depth
    cases hp.opened
    rfl
  refine ⟨hrest' ▸ hp.rest, p'.fuel, { p with output := us, fuel := 0 }, ?_, rfl⟩
  rw [← hplace, hdeeper]
  exact hread'

/-- The text of altered trees is cut into their lexemes. It is parsed as these trees and nothing
    is reported about it, unless the next token is looked at too often or there are too many of
    them. -/
theorem parse_altered {source : String} {parsed : Parsed} (h : parse source = .ok parsed)
    (hsilent : parsed.diagnostics = []) {form : ClassForm} (hform : form.IsWritable)
    {layout : Layout} (hlayout : layout.IsBlank)
    (hindent : ∀ c ∈ form.indent.toList, isBlank c = true) {children us : List Tree}
    (htree : parsed.tree = .node .root children)
    (haltered : Altered (form.edit layout) true children us)
    (hlength : (Tree.leavesOf children).length + (form.tree layout).leaves.length
      ≤ (Tree.leavesOf us).length) :
    Syntax.lex (Lexeme.textOf (Tree.leavesOf us)) = Tree.leavesOf us ∧
      (parse (Lexeme.textOf (Tree.leavesOf us)) = .error .stuck ∨
        (∃ parsed', parse (Lexeme.textOf (Tree.leavesOf us)) = .ok parsed' ∧
          parsed'.tree = .node .root us ∧ parsed'.diagnostics = []) ∨
        parse (Lexeme.textOf (Tree.leavesOf us)) = .error (.exceeded .tokens)) := by
  rcases read_altered h hsilent hform htree haltered hlength with
    ⟨hspliced, fuel, q, hread, houtput⟩
  have hlex : Syntax.lex (Lexeme.textOf (Tree.leavesOf us)) = Tree.leavesOf us :=
    Syntax.lex_spliced (isInset_edit hlayout hform hindent) hspliced
  refine ⟨hlex, ?_⟩
  rw [parse, parseWith, hlex]
  rcases parseLexemes_of_read_or False False.elim hread with hstuck | ⟨parsed', hok, htree', hreports⟩ |
    ⟨_, hout⟩
  · exact .inl hstuck
  · exact .inr (.inl ⟨parsed', hok, houtput ▸ htree', hreports⟩)
  · exact .inr (.inr hout)

end Grammar

end Nominal
