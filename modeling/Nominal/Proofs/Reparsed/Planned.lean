import Nominal.Proofs.Derived.Names
import Nominal.Proofs.Preview
import Nominal.Proofs.Reparsed.Sound

/-!
# Plans That Can Be Written Out

What a plan writes can be read back. The name of the new type is a word: it is the one that was
asked for, or one with a number behind it, and reserved words consist of small letters. The types
of the members are written as registered types are. And the members have the names that the fields
of the anonymous type have, which are those of the members of the creation that the plan starts
from.

Such a name may be the word of a built-in type, which a member brings if it consists of this word
alone. But then the field has the unknown type, which cannot be written, so there is no plan.

All creations of the type have the same fields. So their members have, or bring, words for names.

## Theorems

* `isName_of_allocate`: The name of a new type is a word.
* `Model.memberForms_eq_ok`: The members of the class are the fields of the type, in the same order.
* `exists_fields`: All creations of the type have its fields as their members.
* `Document.writes`: A plan writes a class that can be read back, and its creations can be given a
  name.
-/

namespace Nominal

open Syntax (Tree Kind Lexeme Location IsName IsTokenOf lex isBlank)
open Nominal.Types (TypeId Field Registry)
open Program (AnonMember Part)

/-! ### The name of the new type -/

/-- Reserved words consist of small letters. -/
theorem isLower_of_reserved? {word : String} {k : Kind} (h : Kind.reserved? word = some k) :
    ∀ c ∈ word.toList, c.isLower = true := by
  have htypes : (Kind.predefinedTypes.all fun w => w.toList.all Char.isLower) = true := by
    decide +kernel
  have hkeywords : (Kind.keywords.all fun k =>
      k.spelling?.all fun w => w.toList.all Char.isLower) = true := by decide +kernel
  rw [Kind.reserved?] at h
  split at h
  · next hpredefined =>
      have hword := List.all_eq_true.mp htypes word (List.contains_iff_mem.mp hpredefined)
      exact List.all_eq_true.mp hword
  · have hspelling : k.spelling? = some word :=
      of_decide_eq_true (List.find?_eq_some_iff_append.mp h).1
    have hword := List.all_eq_true.mp hkeywords k (List.mem_of_find?_eq_some h)
    rw [hspelling] at hword
    exact List.all_eq_true.mp hword

theorem not_isLower_of_isDigit {c : Char} (h : c.isDigit = true) : c.isLower = false := by
  by_contra hlower
  rw [Bool.not_eq_false] at hlower
  have hnine : c.val ≤ '9'.val := of_decide_eq_true (Bool.and_eq_true_iff.mp h).2
  have ha : 'a'.val ≤ c.val := of_decide_eq_true (Bool.and_eq_true_iff.mp hlower).1
  exact absurd (UInt32.le_trans ha hnine) (by decide)

/-- A word with a number behind it is a word. -/
theorem Syntax.IsName.number {base : String} (h : IsName base) (n : Nat) :
    IsName (base ++ toString n) := by
  rcases h with ⟨c, cs, hbase, hc, hcs, _⟩
  have hdigits : ∀ d ∈ (toString n).toList, d.isDigit = true := by
    intro d hd
    rw [Nat.toString_eq_repr, Nat.toList_repr] at hd
    exact Nat.isDigit_of_mem_toDigits (by decide) (Nat.le_refl 10) hd
  have hsome : (toString n).toList ≠ [] := by
    rw [Nat.toString_eq_repr, Nat.toList_repr]
    exact Nat.toDigits_ne_nil
  refine ⟨c, cs ++ (toString n).toList, ?_, hc, ?_, ?_⟩
  · rw [String.toList_append, hbase, List.cons_append]
  · rw [List.forall_mem_append]
    refine ⟨hcs, fun d hd => ?_⟩
    rw [Syntax.continuesWord, Char.isAlphanum, hdigits d hd, Bool.or_true, Bool.true_or]
  · cases hreserved : Kind.reserved? (base ++ toString n) with
    | none => rfl
    | some k =>
        rcases List.exists_mem_of_ne_nil _ hsome with ⟨d, hd⟩
        have hlower := isLower_of_reserved? hreserved d (by
          rw [String.toList_append]
          exact List.mem_append_right _ hd)
        rw [not_isLower_of_isDigit (hdigits d hd)] at hlower
        cases hlower

/-- The name of a new type is a word. -/
theorem isName_of_allocate {base name : String} {taken : List String}
    (h : allocate base taken = .ok name) : IsName name := by
  rw [allocate] at h
  split at h
  · cases h
  · next hbase =>
      rw [Bool.not_eq_true', Bool.not_eq_false, isTypeName, Bool.and_eq_true, beq_iff_eq] at hbase
      have hname : IsName base := IsTokenOf.isName hbase.2
      split at h
      · cases h
        exact hname
      · split at h
        · next found hfound =>
            cases h
            rcases Option.map_eq_some_iff.mp hfound with ⟨k, _, rfl⟩
            exact hname.number (k + 1)
        · cases h

/-! ### Members -/

/-- The fields of an anonymous type are what a new type takes over. -/
theorem dataMembers_eq_ok {isStructural : TypeId → Bool} {fields members : List Field}
    (h : dataMembers isStructural
      (TypeMember.withObject (fields.map (TypeMember.ofField .property))) = .ok members) :
    members = fields := by
  have hmethods : ∀ ms : List TypeMember, (∀ m ∈ ms, m.kind = .method) →
      dataMembers isStructural ms = .ok [] := by
    intro ms hms
    induction ms with
    | nil => rfl
    | cons m ms ih =>
        rw [List.forall_mem_cons] at hms
        rw [dataMembers, hms.1]
        exact ih hms.2
  have hobject : ∀ m ∈ TypeMember.ofObject.filter (fun m =>
      !(fields.map (TypeMember.ofField .property)).any fun n => n.name == m.name),
      m.kind = .method := by
    intro m hm
    have hall : ∀ m ∈ TypeMember.ofObject, m.kind = .method := by decide
    exact hall m (List.mem_of_mem_filter hm)
  rw [TypeMember.withObject] at h
  generalize TypeMember.ofObject.filter _ = methods at h hobject
  induction fields generalizing members with
  | nil =>
      rw [List.map_nil, List.nil_append, hmethods methods hobject] at h
      cases h
      rfl
  | cons f fields ih =>
      have hfield : ∀ ms, dataMembers isStructural (TypeMember.ofField .property f :: ms)
          = if isStructural f.type then .error (.nestedAnonymous f.name)
            else (dataMembers isStructural ms).map (f :: ·) := fun _ => rfl
      rw [List.map_cons, List.cons_append, hfield] at h
      split at h
      · cases h
      · cases hrest : dataMembers isStructural
            (fields.map (TypeMember.ofField .property) ++ methods) with
        | error refusal =>
            rw [hrest] at h
            cases h
        | ok rest =>
            rw [hrest] at h
            cases h
            rw [ih hrest]

/-- The members of a class are the fields that it is to have, with their types as they are
    written. -/
theorem Model.memberForms_eq_ok {m : Model} {scope : Scope} {newName : String} {fields : List Field}
    {forms : List MemberForm} (h : m.memberForms scope newName fields = .ok forms) :
    List.Forall₂ (fun f form => form.name = f.name
      ∧ m.spell? f.type scope newName = some form.type) fields forms := by
  induction fields generalizing forms with
  | nil =>
      cases h
      exact .nil
  | cons f fields ih =>
      rw [memberForms] at h
      split at h
      · cases h
      · next type htype =>
          cases hrest : m.memberForms scope newName fields with
          | error refusal =>
              rw [hrest] at h
              cases h
          | ok rest =>
              rw [hrest] at h
              cases h
              exact .cons ⟨rfl, htype⟩ (ih hrest)

/-- The unknown type cannot be written. -/
theorem Model.ne_unknown_of_spell? {m : Model} (hm : m.registry.IsSpelt) {scope : Scope}
    {newName : String} {t : TypeId} {type : Program.TypeRef}
    (h : m.spell? t scope newName = some type) : t ≠ .unknown := by
  rintro rfl
  have hshape : m.registry.shape? .unknown = some .unknown :=
    hm.grown.isSound Registry.isSound_initial
  rw [Model.spell?, Types.spell?, Types.spellWithin?, hshape] at h
  cases h

/-! ### Creations in a document -/

/-- A site creates an object of its type. -/
theorem Model.creates_of_mem_sites {m : Model} {t : Tree} {site : Site} (h : site ∈ m.sites t) :
    m.creates site.type site.location = true := by
  have hwithin : site ∈ m.sitesWithin t site.type site.location := by
    rw [Model.sitesWithin, List.mem_filter, beq_self_eq_true, Bool.true_and]
    exact ⟨h, Syntax.isWithin_of_suffix (List.suffix_refl _)⟩
  have hlocation := List.mem_map_of_mem (f := Site.location) hwithin
  rw [Model.locations_sitesWithin (Model.inLambda_of_mem_sites h).2, List.mem_filter,
    Bool.and_eq_true] at hlocation
  exact hlocation.2.1

section Documents

variable {source : String} {d : Document} (hd : Document.parse source = .ok d)

include hd

theorem mem_lex_of_mem_locations {l : Location} (hl : l ∈ d.tree.locations) :
    ∀ x ∈ Tree.leavesOf l.node.children, x ∈ lex source := by
  rcases Document.parse_eq_ok hd with ⟨_, hleaves, _⟩
  have hholds : ∀ x ∈ l.node.tree.leaves, x ∈ lex source := by
    refine Syntax.holds_of_mem_locationsAt (P := fun t => ∀ x ∈ t.leaves, x ∈ lex source)
      (fun kind children h t ht x hx => ?_) (fun x hx => hleaves ▸ hx) hl
    exact h x (Tree.mem_leavesOf_of_mem ht hx)
  exact hholds

/-- Types are registered as they should be, if nothing is reported. -/
theorem Document.spelt (hsilent : d.diagnostics = []) : d.model.registry.IsSpelt := by
  rcases Document.parse_eq_ok hd with ⟨_, hleaves, _, hmodel, parsed, hparsed, htree, hdiagnostics⟩
  rw [hsilent, eq_comm, List.append_eq_nil_iff] at hdiagnostics
  rcases Grammar.isDerived_of_parse hparsed hdiagnostics.1 with ⟨children, hroot, hderived⟩
  rw [← htree] at hroot
  rw [hmodel, hroot]
  have hlex : ∀ l ∈ (Syntax.Tree.node .root children).leaves, l ∈ lex source := by
    rw [← hroot, hleaves]
    exact fun l hl => hl
  exact Model.spelt_ofTree (isDeclarable_of_isDerived hderived hlex)

/-- All creations of the type of a site have the fields of the type as their members. -/
theorem exists_fields {anchor : Site} (hsite : anchor ∈ d.sites) :
    ∃ fields, d.model.registry.shape? anchor.type = some (.anonymous fields)
      ∧ ∀ l ∈ d.tree.locations, d.model.creates anchor.type l = true →
        l.IsNameable ∧ List.Forall₂ AnonMember.Gives l.node.anonMembers fields := by
  rcases Document.parse_eq_ok hd with ⟨_, hleaves, hconforms, hmodel, parsed, hparsed, htree, _⟩
  rcases Grammar.kind_parseLexemes hparsed with ⟨children, hroot⟩
  rw [← htree] at hroot
  have hpos : ∀ x ∈ d.tree.leaves, 0 < x.width := hleaves ▸ Syntax.pos_of_mem_lex source
  have hstructural : d.model.isStructural anchor.type = true :=
    (Model.inLambda_of_mem_sites hsite).2
  rw [Model.isStructural, Registry.isAnonymous] at hstructural
  cases hshape : d.model.registry.shape? anchor.type with
  | none =>
      rw [hshape] at hstructural
      cases hstructural
  | some shape =>
  rw [hshape] at hstructural
  cases shape with
  | anonymous fields =>
      refine ⟨fields, rfl, fun l hl hcreates => ?_⟩
      rw [Model.creates, Bool.and_eq_true, beq_iff_eq, beq_iff_eq] at hcreates
      rcases hcreates with ⟨hkind, htype⟩
      have hfiled := Model.shape?_creation hconforms hpos hroot hl hkind
      rw [← hmodel, htype] at hfiled
      rcases hfiled with ⟨_, shape, hshape', hof, _⟩
      rw [hshape] at hshape'
      cases hshape'
      exact ⟨(Syntax.Location.isNameable_iff hkind).mpr hof.isAnonymous.symm, hof.gives⟩
  | _ => cases hstructural

end Documents

/-! ### What a plan writes -/

/-- A member without an equals sign brings its name, wherever it stands. -/
theorem impliedName?_of_ofTree {ms : List Tree} {start : Nat} {m : AnonMember}
    (hm : Part.ofTree start (.node .anonMember ms) = .anonMember m) (hequals : ¬HasEquals ms) :
    impliedName? ms = m.name? := by
  have hnone : (ms.filterMap Tree.leaf?).find? (fun l => l.kind == .equals) = none := by
    rw [List.find?_eq_none]
    intro l hl hkind
    rcases List.mem_filterMap.mp hl with ⟨t, ht, hleaf⟩
    cases t with
    | token l' =>
        cases hleaf
        exact hequals ⟨l, ht, beq_iff_eq.mp hkind⟩
    | node kind children => cases hleaf
  have hbrought := (Altered.refl ⟨"", [], default⟩ false ms).filterMap_brought? start 0
  have hplain : Part.hasToken .equals (Part.ofTrees start ms) = false := by
    rw [Part.hasToken, Part.token?, Part.tokens_ofTrees, hnone]
    rfl
  cases hm
  rw [impliedName?_eq, hnone, if_neg (fun h => Bool.noConfusion h.1), if_neg (hplain ▸ Bool.false_ne_true),
    AnonMember.name?_mk_none, Part.broughtName?_exprAt, hbrought]

/-- The creations of a type whose members bring words can be given a name. -/
theorem areNameable_of_isNameable {source : String} {l : Location}
    (hlex : ∀ x ∈ Tree.leavesOf l.node.children, x ∈ lex source) (hnameable : l.IsNameable)
    (hplain : ∀ m ∈ l.node.anonMembers, m.value.isKeyword = false) :
    AreNameable l.node.children := by
  intro ms hms
  rcases Part.mem_anonMembers_of_mem hms l.node.start with ⟨m, hm, at', hof⟩
  have hnamed := hnameable.2.1 m.name? (List.mem_map_of_mem hm)
  rcases Option.isSome_iff_exists.mp hnamed with ⟨name, hname⟩
  have hword : IsName name := by
    refine (Part.name_of_mem_anonMembers hlex hm hname).resolve_right ?_
    rw [hplain m hm]
    exact Bool.false_ne_true
  by_cases hequals : HasEquals ms
  · exact .inl hequals
  · exact .inr ⟨name, (impliedName?_of_ofTree hof hequals).trans hname, hword⟩

/-- The class of a plan can be read back, and the creations of its type can be given its name. -/
theorem Document.writes {source : String} {d : Document} (hd : Document.parse source = .ok d)
    (hsilent : d.diagnostics = []) {anchor : Site} (hsite : anchor ∈ d.sites) {request : Request}
    {p : Plan} (hplan : d.model.planAt d.tree anchor request = .ok p) :
    ∃ form : ClassForm, form.name = p.newName ∧ form.indent = request.indent
      ∧ p.declaration = form.tree p.layout ∧ form.IsWritable
      ∧ ∀ l ∈ d.tree.locations, d.model.creates p.target l = true →
        AreNameable l.node.children := by
  rcases Model.planAt_eq_ok hplan with
    ⟨_, htarget, _, hmembers, hname, _, forms, hforms, hdeclaration⟩
  rcases exists_fields hd hsite with ⟨fields, hshape, hcreations⟩
  have hspelt := d.spelt hd hsilent
  have hfields : p.members = fields := by
    rw [Model.members, hshape] at hmembers
    exact dataMembers_eq_ok hmembers
  rw [hfields] at hforms
  have hwritten := Model.memberForms_eq_ok hforms
  -- A field with a type that can be written is no word of a built-in type.
  have hknown : ∀ f ∈ fields, f.type ≠ .unknown := by
    intro f hf
    rcases forall₂_right hwritten.flip hf with ⟨form, _, _, htype⟩
    exact Model.ne_unknown_of_spell? hspelt htype
  have hplain : ∀ l ∈ d.tree.locations, d.model.creates anchor.type l = true →
      ∀ m ∈ l.node.anonMembers, m.value.isKeyword = false := by
    intro l hl hcreates m hm
    rcases forall₂_right (hcreations l hl hcreates).2.flip hm with ⟨f, hf, hgives⟩
    exact Bool.eq_false_iff.mpr fun hkeyword => hknown f hf (hgives.keyword hkeyword)
  refine ⟨⟨p.newName, forms, request.style, request.indent⟩, rfl, rfl, hdeclaration, ⟨?_, ?_⟩, ?_⟩
  · exact isName_of_allocate hname
  · intro form hform
    rcases forall₂_right hwritten hform with ⟨f, hf, hsame, htype⟩
    refine ⟨?_, hspelt.isWritable htype⟩
    have hanchor := Model.mem_locations_of_mem_sites hsite
    have hcreates := Model.creates_of_mem_sites hsite
    rcases forall₂_right (hcreations _ hanchor hcreates).2 hf with ⟨m, hm, hgives⟩
    refine (Part.name_of_mem_anonMembers (mem_lex_of_mem_locations hd hanchor) hm
      (hsame ▸ hgives.name)).resolve_right ?_
    rw [hplain _ hanchor hcreates m hm]
    exact Bool.false_ne_true
  · intro l hl hcreates
    rw [htarget] at hcreates
    exact areNameable_of_isNameable (mem_lex_of_mem_locations hd hl) (hcreations l hl hcreates).1
      (hplain l hl hcreates)

end Nominal
