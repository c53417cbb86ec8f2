import Nominal.Proofs.Derived.Complete
import Nominal.Proofs.Naming
import Nominal.Proofs.Typed.Members
import Nominal.Proofs.Typed.Spelt
import Nominal.Proofs.Visited

/-!
# Names in the Tree of a Source

Wherever a program has a name it is the text of an identifier, so it is a word that is not
reserved. There are two exceptions. A namespace may be without a name, but not if nothing is
reported about the source, because its rule demands a path and the rule of a path an identifier.
And what a member of an anonymous object brings may be the word of a built-in type.

That a rule demands a path does not mean yet that there is a node for it: a word tells only kinds.
But kinds of nodes are no kinds of tokens.

## Main definitions

* `Part.Declares`: What a part declares are words, in namespaces of words.
* `Part.Brings`: What a part brings is a word, or it is the word of a built-in type.

## Theorems

* `isDeclarable_of_isDerived`: What a derived tree declares are words in namespaces of words.
* `name_of_mem_anonMembers`: The names of members are words, or they are brought by keywords.
-/

namespace Nominal

open Syntax (Tree Kind Lexeme IsName lex)
open Program (AnonMember)
open Nominal.Types (IsDeclarable NameContext typesOfItem typesOfItems typesInContext)

namespace Syntax.Tree

theorem mem_leavesOf_of_mem {ts : List Tree} {t : Tree} (ht : t ∈ ts) {l : Lexeme}
    (hl : l ∈ t.leaves) : l ∈ leavesOf ts := by
  induction ts with
  | nil => cases ht
  | cons u us ih =>
      rcases List.mem_cons.mp ht with rfl | ht
      · exact List.mem_append_left _ hl
      · exact List.mem_append_right _ (ih ht)

theorem mem_leavesOf_of_leaf? {ts : List Tree} {l : Lexeme} (hl : l ∈ ts.filterMap leaf?) :
    l ∈ leavesOf ts := by
  rcases List.mem_filterMap.mp hl with ⟨t, ht, hleaf⟩
  refine mem_leavesOf_of_mem ht ?_
  cases t with
  | token l' =>
      cases hleaf
      exact List.mem_singleton_self l
  | node kind children => cases hleaf

/-- A kind that a rule fills in is in all its words. -/
theorem mem_of_fill {r : Phrase} {k : Kind} (hr : r.fill [[k]] = []) {w : List Kind}
    (hw : w ∈ r.words) : k ∈ w := by
  have hhas : Has [[k]] (w ++ []) := Has.fill hw (by rw [hr]; exact .nil)
  rw [List.append_nil] at hhas
  clear hw
  induction w with
  | nil => cases hhas
  | cons j w ih =>
      cases hhas with
      | cons hj _ =>
          rw [List.mem_singleton.mp hj]
          exact List.mem_cons_self
      | cons_right h => exact List.mem_cons_of_mem j (ih h)

/-- A kind of tokens in a word is that of a token. -/
theorem exists_token_of_mem_word {ts : List Tree} (hts : ∀ t ∈ ts, t.IsDerived) {k : Kind}
    (hk : k ∈ word ts) (hrule : k.rule = .never) : ∃ l ∈ ts.filterMap leaf?, l.kind = k := by
  rcases List.mem_map.mp (List.mem_filter.mp hk).1 with ⟨t, ht, rfl⟩
  cases t with
  | token l => exact ⟨l, List.mem_filterMap.mpr ⟨_, ht, rfl⟩, rfl⟩
  | node kind children =>
      cases hts _ ht with
      | node hword _ =>
          rw [show kind.rule = .never from hrule] at hword
          exact absurd hword (Language.notMem_zero _)

/-- A kind of nodes in a word is that of a node. -/
theorem exists_node_of_mem_word {source : String} {ts : List Tree}
    (hts : ∀ l ∈ leavesOf ts, l ∈ lex source) {k : Kind} (hk : k ∈ word ts)
    (hrule : k.rule ≠ .never) : ∃ children, .node k children ∈ ts := by
  rcases List.mem_map.mp (List.mem_filter.mp hk).1 with ⟨t, ht, rfl⟩
  cases t with
  | token l =>
      have hl : l ∈ leavesOf ts := mem_leavesOf_of_mem ht (List.mem_singleton_self l)
      exact absurd (rule_of_mem_lex (hts l hl)) hrule
  | node kind children => exact ⟨children, ht⟩

end Syntax.Tree

/-! ### Declarations -/

namespace Program.Part

/-- What a part declares are words, in namespaces of words. -/
def Declares : Part → Prop
  | .path segments => segments ≠ [] ∧ ∀ s ∈ segments, IsName s
  | .typeDecl d => ∀ name, d.name = some name → IsName name
  | .item i => ∀ c : NameContext, (∀ s ∈ c.home, IsName s) → ∀ x ∈ typesOfItem c i, IsDeclarable x
  | .file f => ∀ x ∈ typesInContext f, IsDeclarable x
  | _ => True

variable {ps : List Part}

theorem isDeclarable_items (h : ∀ p ∈ ps, p.Declares) {c : NameContext}
    (hc : ∀ s ∈ c.home, IsName s) : ∀ x ∈ typesOfItems c (items ps), IsDeclarable x := by
  induction ps with
  | nil => exact List.forall_mem_nil _
  | cons p ps ih =>
      rw [List.forall_mem_cons] at h
      have hrest := ih h.2
      cases p with
      | item i => exact List.forall_mem_append.mpr ⟨h.1 c hc, hrest⟩
      | typeDecl d =>
          refine List.forall_mem_append.mpr ⟨?_, hrest⟩
          exact List.forall_mem_singleton.mpr fun name hname => ⟨hc, h.1 name hname⟩
      | _ => exact hrest

theorem mem_names_of_name? {name : String} (h : name? ps = some name) : name ∈ names ps := by
  rcases Option.map_eq_some_iff.mp h with ⟨l, hl, rfl⟩
  refine List.mem_map_of_mem (List.mem_filter.mpr ⟨List.mem_of_find?_eq_some hl, ?_⟩)
  exact (List.find?_eq_some_iff_append.mp hl).1

/-- What a node declares, if it has the names that it needs. -/
theorem declares_assemble (kind : Kind) (span : Text.Span) (hps : ∀ p ∈ ps, p.Declares)
    (hnames : ∀ name ∈ names ps, IsName name) (hpath : kind = .path → names ps ≠ [])
    (hspace : kind = .namespaceDecl → (path? ps).isSome) : (assemble kind span ps).Declares := by
  cases kind with
  | root => exact isDeclarable_items hps (List.forall_mem_nil _)
  | usingDirective => exact fun _ _ => List.forall_mem_nil _
  | namespaceDecl =>
      intro c hc
      rcases Option.isSome_iff_exists.mp (hspace rfl) with ⟨segments, hsegments⟩
      have hpath : segments ≠ [] ∧ ∀ s ∈ segments, IsName s := by
        rcases List.exists_of_findSome?_eq_some hsegments with ⟨p, hp, hpick⟩
        have hdeclares := hps p hp
        cases p with
        | path segments' =>
            cases hpick
            exact hdeclares
        | _ => cases hpick
      have hhome : ∀ s ∈ (c.enter (path? ps) (items ps)).home, IsName s := by
        rw [hsegments]
        cases segments with
        | nil => exact absurd rfl hpath.1
        | cons s segments => exact List.forall_mem_append.mpr ⟨hc, hpath.2⟩
      exact isDeclarable_items hps hhome
  | path => exact ⟨hpath rfl, hnames⟩
  | typeDecl =>
      exact fun name hname => hnames name (mem_names_of_name? hname)
  | _ => trivial

/-- The names among trees of a source are words. -/
theorem isName_of_mem_names {source : String} {ts : List Tree} {start : Nat}
    (hts : ∀ l ∈ Tree.leavesOf ts, l ∈ lex source) :
    ∀ name ∈ names (ofTrees start ts), IsName name := by
  intro name hname
  rw [names, tokens_ofTrees, List.mem_map] at hname
  rcases hname with ⟨l, hl, rfl⟩
  rw [List.mem_filter, beq_iff_eq] at hl
  exact Syntax.isName_of_mem (hts l (Tree.mem_leavesOf_of_leaf? hl.1)) hl.2

/-- A path among trees is one among their parts. -/
theorem isSome_path? {ts cs : List Tree} (h : .node .path cs ∈ ts) (start : Nat) :
    (path? (ofTrees start ts)).isSome := by
  rw [path?, List.isSome_findSome?]
  induction ts generalizing start with
  | nil => cases h
  | cons t ts ih =>
      rw [ofTrees, List.any_cons, Bool.or_eq_true]
      rcases List.mem_cons.mp h with rfl | h
      · exact .inl rfl
      · exact .inr (ih h _)

end Program.Part

open Program (Part)

mutual

/-- What a derived tree declares are words in namespaces of words. -/
theorem declares_ofTree {source : String} {t : Tree} (ht : t.IsDerived)
    (hlex : ∀ l ∈ t.leaves, l ∈ lex source) (start : Nat) : (Part.ofTree start t).Declares := by
  cases t with
  | token l => trivial
  | node kind children =>
      cases ht with
      | node hword hchildren =>
          rw [Part.ofTree]
          refine Part.declares_assemble kind _ (declares_ofTrees hchildren hlex start)
            (Part.isName_of_mem_names hlex) ?_ ?_
          · rintro rfl
            have hid : Kind.id ∈ Tree.word children := Tree.mem_of_fill (by decide) hword
            rcases Tree.exists_token_of_mem_word hchildren hid rfl with ⟨l, hl, hkind⟩
            refine List.ne_nil_of_mem (a := l.text) (List.mem_map_of_mem ?_)
            rw [Part.tokens_ofTrees, List.mem_filter, beq_iff_eq]
            exact ⟨hl, hkind⟩
          · rintro rfl
            have hpath : Kind.path ∈ Tree.word children := Tree.mem_of_fill (by decide) hword
            rcases Tree.exists_node_of_mem_word hlex hpath nofun with ⟨cs, hcs⟩
            exact Part.isSome_path? hcs start

theorem declares_ofTrees {source : String} {ts : List Tree} (hts : ∀ t ∈ ts, t.IsDerived)
    (hlex : ∀ l ∈ Tree.leavesOf ts, l ∈ lex source) (start : Nat) :
    ∀ p ∈ Part.ofTrees start ts, p.Declares := by
  cases ts with
  | nil => exact List.forall_mem_nil _
  | cons t ts =>
      rw [List.forall_mem_cons] at hts
      rw [Tree.leavesOf, List.forall_mem_append] at hlex
      exact List.forall_mem_cons.mpr
        ⟨declares_ofTree hts.1 hlex.1 start, declares_ofTrees hts.2 hlex.2 _⟩

end

/-- What the program of a derived tree declares are words in namespaces of words. -/
theorem isDeclarable_of_isDerived {source : String} {children : List Tree}
    (ht : (Syntax.Tree.node .root children).IsDerived)
    (hlex : ∀ l ∈ (Syntax.Tree.node .root children).leaves, l ∈ lex source) :
    ∀ x ∈ typesInContext (Program.SourceFile.ofTree (.node .root children)), IsDeclarable x :=
  declares_ofTree ht hlex 0

/-! ### Members of creations -/

namespace Program.Part

/-- What a part brings is a word, unless the part is the word of a built-in type. -/
def Brings : Part → Prop
  | .expr e => ∀ name, e.broughtName? = some name → IsName name ∨ e.isKeyword = true
  | _ => True

theorem brings_ofTree {source : String} {t : Tree} (hlex : ∀ l ∈ t.leaves, l ∈ lex source)
    (start : Nat) : (ofTree start t).Brings := by
  cases t with
  | token l => trivial
  | node kind children =>
      rw [ofTree]
      cases kind with
      | nameRef =>
          intro name hname
          rcases Option.map_eq_some_iff.mp hname with ⟨l, hl, rfl⟩
          have hkind := (List.find?_eq_some_iff_append.mp hl).1
          have hleaf := List.mem_of_find?_eq_some hl
          rw [tokens_ofTrees] at hleaf
          rw [Bool.or_eq_true, beq_iff_eq, beq_iff_eq] at hkind
          rcases hkind with hid | hkeyword
          · exact .inl (Syntax.isName_of_mem (hlex l (Tree.mem_leavesOf_of_leaf? hleaf)) hid)
          · refine .inr ?_
            rw [expression, hl]
            exact beq_iff_eq.mpr hkeyword
      | memberAccess =>
          exact fun name hname => .inl (isName_of_mem_names hlex name (mem_names_of_name? hname))
      | _ =>
          first
          | trivial
          | exact fun _ hname => by cases hname

theorem brings_ofTrees {source : String} {ts : List Tree}
    (hlex : ∀ l ∈ Tree.leavesOf ts, l ∈ lex source) (start : Nat) :
    ∀ p ∈ ofTrees start ts, p.Brings := by
  induction ts generalizing start with
  | nil => exact List.forall_mem_nil _
  | cons t ts ih =>
      rw [Tree.leavesOf, List.forall_mem_append] at hlex
      exact List.forall_mem_cons.mpr ⟨brings_ofTree hlex.1 start, ih hlex.2 _⟩

/-- So is what the first expression brings. -/
theorem brings_exprAt {ps : List Part} (h : ∀ p ∈ ps, p.Brings) {name : String}
    (hname : (exprAt 0 ps).broughtName? = some name) :
    IsName name ∨ (exprAt 0 ps).isKeyword = true := by
  rw [exprAt] at hname ⊢
  cases hfirst : (exprs ps)[0]? with
  | none =>
      rw [hfirst] at hname
      cases hname
  | some e =>
      rw [hfirst] at hname
      rcases List.mem_filterMap.mp (List.mem_of_getElem? hfirst) with ⟨p, hp, hpick⟩
      have hbrings := h p hp
      cases p with
      | expr e' =>
          cases hpick
          exact hbrings name hname
      | _ => cases hpick

/-- The name of a member is a word, unless the value is the word of a built-in type. -/
theorem name_of_anonMember {source : String} {ms : List Tree}
    (hlex : ∀ l ∈ Tree.leavesOf ms, l ∈ lex source) {start : Nat} {m : AnonMember}
    (hm : ofTree start (.node .anonMember ms) = .anonMember m) {name : String}
    (hname : m.name? = some name) : IsName name ∨ m.value.isKeyword = true := by
  have hbrings : ∀ p ∈ ofTrees start ms, p.Brings := brings_ofTrees hlex start
  cases hm
  generalize hwritten : (if hasToken .equals (ofTrees start ms) then name? (ofTrees start ms)
    else Option.none) = explicit at hname
  cases explicit with
  | none =>
      rw [AnonMember.name?_mk_none] at hname
      exact brings_exprAt hbrings hname
  | some written =>
      cases hname
      split at hwritten
      · exact .inl (isName_of_mem_names hlex _ (mem_names_of_name? hwritten))
      · cases hwritten

/-- Members come from nodes for members, and know where they stand. -/
theorem exists_of_mem_anonMembers {ts : List Tree} {start : Nat} {m : AnonMember}
    (hm : m ∈ anonMembers (ofTrees start ts)) :
    ∃ front ms back, ts = front ++ .node .anonMember ms :: back
      ∧ ofTree (start + Tree.widthOf front) (.node .anonMember ms) = .anonMember m := by
  induction ts generalizing start with
  | nil => cases hm
  | cons t ts ih =>
      have hcases : ofTree start t = .anonMember m ∨ m ∈ anonMembers (ofTrees (start + t.width) ts) := by
        rw [ofTrees, anonMembers, List.mem_filterMap] at hm
        rcases hm with ⟨p, hp, hpick⟩
        rcases List.mem_cons.mp hp with rfl | hp
        · left
          generalize ofTree start t = p at hpick
          cases p with
          | anonMember m' =>
              cases hpick
              rfl
          | _ => cases hpick
        · exact .inr (List.mem_filterMap.mpr ⟨p, hp, hpick⟩)
      rcases hcases with hhere | hbehind
      · cases t with
        | token l => cases hhere
        | node kind children =>
            have hsort := sort_ofTree_node start kind children
            rw [hhere] at hsort
            have hkind : kind = .anonMember := by
              revert hsort
              cases kind <;> first | exact fun _ => rfl | exact nofun
            subst hkind
            exact ⟨[], children, ts, rfl, hhere⟩
      · rcases ih hbehind with ⟨front, ms, back, rfl, hof⟩
        exact ⟨t :: front, ms, back, rfl, by rw [Tree.widthOf, ← Nat.add_assoc, hof]⟩

/-- And nodes for members become members. -/
theorem mem_anonMembers_of_mem {ts ms : List Tree} (h : .node .anonMember ms ∈ ts) (start : Nat) :
    ∃ m ∈ anonMembers (ofTrees start ts), ∃ at', ofTree at' (.node .anonMember ms) = .anonMember m := by
  induction ts generalizing start with
  | nil => cases h
  | cons t ts ih =>
      rw [ofTrees]
      rcases List.mem_cons.mp h with rfl | h
      · exact ⟨_, List.mem_cons_self, start, rfl⟩
      · rcases ih h (start + t.width) with ⟨m, hm, hof⟩
        rcases List.mem_filterMap.mp hm with ⟨p, hp, hpick⟩
        exact ⟨m, List.mem_filterMap.mpr ⟨p, List.mem_cons_of_mem _ hp, hpick⟩, hof⟩

/-- The names of members are words, unless the values are words of built-in types. -/
theorem name_of_mem_anonMembers {source : String} {ts : List Tree}
    (hlex : ∀ l ∈ Tree.leavesOf ts, l ∈ lex source) {start : Nat} {m : AnonMember}
    (hm : m ∈ anonMembers (ofTrees start ts)) {name : String} (hname : m.name? = some name) :
    IsName name ∨ m.value.isKeyword = true := by
  rcases exists_of_mem_anonMembers hm with ⟨front, ms, back, rfl, hof⟩
  have hms : .node .anonMember ms ∈ front ++ .node .anonMember ms :: back :=
    List.mem_append_right front List.mem_cons_self
  exact name_of_anonMember (fun l hl => hlex l (Tree.mem_leavesOf_of_mem hms hl)) hof hname

end Program.Part

end Nominal
