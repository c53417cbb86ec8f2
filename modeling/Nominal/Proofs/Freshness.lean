import Nominal.Proofs.Extracted

/-!
# The Name of the New Type

A plan settles what the new type is called before anything is rewritten. The name must not
clash with what is declared around it: with the types of the namespace, with the types
nested in the container, and with the members of the new type itself. Nor may it be a
simple name that the file uses for a type or a namespace already, since the new type would
then be found in its place.

Names that nobody uses are not looked for. A type of the catalogue and a namespace may
have the full name of the new type, as long as the file does not refer to them by the
simple name.

## Theorems

* `allocate_not_mem`: An allocated name is none of those that are taken.
* `planned_name_free`: The name of a plan is free, and no simple name that the file uses for
  a type or a namespace.
* `planned_name_not_apart`: The full name may be that of a type of the catalogue, or that of
  a namespace.
-/

namespace Nominal

open Syntax (Kind Lexeme Location Tree)
open Nominal.Types (Catalogue.has Catalogue.hasNamed Catalogue.isNamespace Catalogue.hasSegment
  DeclaredTypes Namespace)

/-! ### Allocating a name -/

/-- A name with a number behind it is only answered if it is free. -/
theorem numbered?_not_mem {base name : String} {taken : List String}
    (h : numbered? base taken = some name) : name ∉ taken := by
  rcases Option.map_eq_some_iff.mp h with ⟨k, hk, rfl⟩
  simpa using List.find?_some hk

/-- An allocated name is none of those that are taken. -/
theorem allocate_not_mem {base name : String} {taken : List String}
    (h : allocate base taken = .ok name) : name ∉ taken := by
  rw [allocate] at h
  split at h
  · cases h
  · split at h
    · next hfree =>
        cases h
        simpa using hfree
    · split at h
      · next hnumbered =>
          cases h
          exact numbered?_not_mem hnumbered
      · cases h

/-! ### What is declared and what is named -/

namespace Types

/-- A type without arguments that the catalogue has is one of its names. -/
theorem Catalogue.hasNamed_of_has {home : Namespace} {name : String} {arity : Nat}
    (h : Catalogue.has home name arity = true) : Catalogue.hasNamed name arity = true := by
  rw [Catalogue.has, List.contains_iff_mem] at h
  rw [Catalogue.hasNamed, List.any_eq_true]
  exact ⟨_, h, by simp⟩

namespace DeclaredTypes

/-- What is declared in a namespace is among its names. -/
theorem mem_namesIn_iff {d : DeclaredTypes} {home : Namespace} {name : String} :
    name ∈ d.namesIn home ↔ (d.get? home name).isSome := by
  rw [namesIn, get?, List.find?_isSome, List.mem_map]
  constructor
  · rintro ⟨t, ht, rfl⟩
    rw [List.mem_filter] at ht
    exact ⟨t, ht.1, by rw [ht.2, beq_self_eq_true, Bool.and_self]⟩
  · rintro ⟨t, ht, hboth⟩
    rw [Bool.and_eq_true, beq_iff_eq, beq_iff_eq] at hboth
    exact ⟨t, List.mem_filter.mpr ⟨ht, beq_iff_eq.mpr hboth.1⟩, hboth.2⟩

/-- The last part of the path of a namespace names a namespace. -/
theorem names_of_isNamespace {d : DeclaredTypes} {home : Namespace} {name : String}
    (h : d.isNamespace (home ++ [name]) = true) : d.namesTypeOrNamespace name = true := by
  have hlast : name ∈ home ++ [name] := List.mem_append_right home (List.mem_singleton_self name)
  rw [isNamespace, Bool.or_eq_true] at h
  rw [namesTypeOrNamespace, Bool.or_eq_true, Bool.or_eq_true]
  rcases h with hdeclared | hlibrary
  · left; right
    rw [List.contains_iff_mem] at hdeclared
    exact List.any_eq_true.mpr ⟨_, hdeclared, List.contains_iff_mem.mpr hlast⟩
  · right
    rw [Catalogue.isNamespace, List.any_eq_true] at hlibrary
    rcases hlibrary with ⟨t, ht, hpath⟩
    rw [Bool.and_eq_true, List.isPrefixOf_iff_prefix] at hpath
    exact List.any_eq_true.mpr ⟨t, ht, List.contains_iff_mem.mpr (hpath.2.subset hlast)⟩

/-- A type of the catalogue that has no arguments is named by its name. -/
theorem names_of_has {d : DeclaredTypes} {home : Namespace} {name : String}
    (h : Catalogue.has home name 0 = true) : d.namesTypeOrNamespace name = true := by
  rw [namesTypeOrNamespace, Catalogue.hasNamed_of_has h, Bool.or_true, Bool.true_or, Bool.true_or]

end DeclaredTypes

end Types

/-! ### The name of a plan -/

/-- The nodes of a tree are its top and what stands below the top. -/
theorem locations_eq_top_cons {t : Tree} {l : Location} (h : l ∈ t.locations) :
    t.locations = topOf l :: locationsBelow (topOf l) := by
  cases t with
  | token lexeme => cases h
  | node kind children =>
      have htop : topOf l = ⟨⟨kind, children, 0, 0⟩, []⟩ := by
        rw [Tree.locations, Tree.locationsAt, List.mem_cons] at h
        rcases h with rfl | hbelow
        · rfl
        · rcases Syntax.lineage_of_mem_locationsOf hbelow with ⟨inner, hlineage⟩
          simp only [topOf, hlineage, List.getLast_append_of_ne_nil, ne_eq,
            List.cons_ne_self, not_false_eq_true, List.getLast_singleton]
      rw [htop]
      rfl

namespace Model

variable {m : Model} {t : Tree} {anchor : Site} {request : Request} {p : Plan}

/-- The name of a plan is none of those that its scope and its members take. -/
theorem planAt_newName_not_mem (h : m.planAt t anchor request = .ok p) :
    p.newName ∉ m.declared.namesIn p.scope.home ∧ p.newName ∉ m.reservedNames p.scope.container
      ∧ p.newName ∉ p.members.map Types.Field.name := by
  rcases planAt_eq_ok h with ⟨hscope, _, _, _, hname, _⟩
  rcases scopeOf_eq_ok hscope with ⟨_, _, _, _, hexisting, hreserved⟩
  have hnot := allocate_not_mem hname
  rw [Scope.taken, List.mem_append, List.mem_eraseDups, List.mem_append, hexisting, hreserved]
    at hnot
  exact ⟨fun h => hnot (.inl (.inl h)), fun h => hnot (.inl (.inr h)), fun h => hnot (.inr h)⟩

/-- Nobody uses a name that is not reserved. -/
theorem usedName?_ne_of_not_mem {l : Location} {name : String} {container : Location}
    (hname : name ∉ m.reservedNames container) (hl : l ∈ t.locations)
    (htop : ∃ anchor ∈ t.locations, topOf container = topOf anchor) :
    m.usedName? l ≠ some name := by
  rcases htop with ⟨anchor, hanchor, htop⟩
  intro hused
  refine hname ?_
  rw [reservedNames, List.mem_eraseDups, htop, ← locations_eq_top_cons hanchor]
  exact List.mem_append_right _ (List.mem_filterMap.mpr ⟨l, hl, hused⟩)

end Model

/-- The name of a plan is free: no type of the namespace, no type nested in the container and
    no member has it. Nor is it the first part of a written type, wherever one stands, and if
    the catalogue has a type or anybody a namespace of its full name, no expression uses it. -/
theorem planned_name_free {d : Document} {anchor : Site} {request : Request} {p : Plan}
    (hanchor : anchor ∈ d.sites) (hplan : d.model.planAt d.tree anchor request = .ok p) :
    d.model.declared.get? p.scope.home p.newName = none
      ∧ p.newName ∉ Model.nestedNames p.scope.container
      ∧ (∀ f ∈ p.members, f.name ≠ p.newName)
      ∧ (∀ l ∈ d.tree.locations, l.node.kind = .namedType →
        (l.node.token? .id).map (fun t => t.1.text) ≠ some p.newName)
      ∧ (Catalogue.has p.scope.home p.newName 0 = true
          ∨ d.model.declared.isNamespace (p.scope.home ++ [p.newName]) = true →
        ∀ l ∈ d.tree.locations, l.node.kind = .nameRef → ∀ token, nameToken? l = some token →
          token.kind = .id → token.text ≠ p.newName) := by
  rcases Model.planAt_newName_not_mem hplan with ⟨hdeclared, hreserved, hmembers⟩
  have htop : ∃ l ∈ d.tree.locations, topOf p.scope.container = topOf l := by
    rcases Model.scopeOf_eq_ok (Model.planAt_eq_ok hplan).1 with ⟨hcontainer, _⟩
    rcases Syntax.outermost?_eq_some hcontainer with ⟨hsuffix, _⟩
    exact ⟨anchor.location, Model.mem_locations_of_mem_sites hanchor, topOf_of_suffix hsuffix⟩
  have hused : ∀ l ∈ d.tree.locations, d.model.usedName? l ≠ some p.newName :=
    fun l hl => Model.usedName?_ne_of_not_mem hreserved hl htop
  refine ⟨?_, ?_, ?_, ?_, ?_⟩
  · rw [DeclaredTypes.mem_namesIn_iff, Option.not_isSome_iff_eq_none] at hdeclared
    exact hdeclared
  · intro hnested
    refine hreserved ?_
    rw [Model.reservedNames, List.mem_eraseDups]
    exact List.mem_append_left _ hnested
  · exact fun f hf hname => hmembers (List.mem_map.mpr ⟨f, hf, hname⟩)
  · intro l hl hkind
    have hfirst := hused l hl
    rwa [Model.usedName?, hkind] at hfirst
  · intro htaken l hl hkind token htoken hid htext
    have hnames : d.model.declared.namesTypeOrNamespace p.newName = true :=
      htaken.elim DeclaredTypes.names_of_has DeclaredTypes.names_of_isNamespace
    have hname := hused l hl
    rw [Model.usedName?, hkind] at hname
    simp only [htoken, hid, htext, hnames] at hname
    exact hname rfl

/-! ### Texts in which the first site has a plan -/

/-- The request for a name. -/
def Request.named (name : String) : Request :=
  { Request.plain with naming := ⟨some name, true, "Anon"⟩ }

/-- What was evaluated of the plan for the first site of a text holds of such a plan. -/
theorem exists_plan (source : String) (request : Request) (check : Document → Plan → Bool)
    (h : ((Document.parse source).toOption.any fun d => d.sites.head?.any fun anchor =>
      (d.model.planAt d.tree anchor request).toOption.any (check d)) = true) :
    ∃ d anchor p, Document.parse source = .ok d ∧ anchor ∈ d.sites
      ∧ d.model.planAt d.tree anchor request = .ok p ∧ check d p = true := by
  rcases (Option.any_eq_true _ _).mp h with ⟨d, hd, hsite⟩
  rcases (Option.any_eq_true _ _).mp hsite with ⟨anchor, hanchor, hplan⟩
  rcases (Option.any_eq_true _ _).mp hplan with ⟨p, hp, hcheck⟩
  cases hparse : Document.parse source with
  | error failure => rw [hparse] at hd; cases hd
  | ok d' =>
      rw [hparse] at hd
      cases hd
      cases hplanned : d.model.planAt d.tree anchor request with
      | error refusal => rw [hplanned] at hp; cases hp
      | ok p' =>
          rw [hplanned] at hp
          cases hp
          exact ⟨d, anchor, p, rfl, List.mem_of_mem_head? hanchor, hplanned, hcheck⟩

/-- The name of a nested type is passed over, also where the variable suggests it. -/
theorem planned_name_free_nested :
    ∃ d anchor p, Document.parse
        "namespace N { class C { class X { } void M() { var x = new { A = 1 }; } } }" = .ok d
      ∧ anchor ∈ d.sites ∧ d.model.planAt d.tree anchor Request.plain = .ok p
      ∧ p.newName = "X1"
      ∧ d.model.declared.get? p.scope.home p.newName = none
      ∧ p.newName ∉ Model.nestedNames p.scope.container
      ∧ (∀ f ∈ p.members, f.name ≠ p.newName)
      ∧ (∀ l ∈ d.tree.locations, l.node.kind = .namedType →
        (l.node.token? .id).map (fun t => t.1.text) ≠ some p.newName)
      ∧ (Catalogue.has p.scope.home p.newName 0 = true
          ∨ d.model.declared.isNamespace (p.scope.home ++ [p.newName]) = true →
        ∀ l ∈ d.tree.locations, l.node.kind = .nameRef → ∀ token, nameToken? l = some token →
          token.kind = .id → token.text ≠ p.newName) := by
  rcases exists_plan "namespace N { class C { class X { } void M() { var x = new { A = 1 }; } } }"
    Request.plain (fun _ p => p.newName == "X1") (by decide +kernel)
    with ⟨d, anchor, p, hd, hanchor, hplan, hname⟩
  exact ⟨d, anchor, p, hd, hanchor, hplan, beq_iff_eq.mp hname, planned_name_free hanchor hplan⟩

/-- A new type may get the full name of a type of the catalogue, or that of a namespace. -/
theorem planned_name_not_apart :
    (∃ d anchor p, Document.parse
        "namespace System { class C { DateTime d; void M() { var x = new { T = d.TimeOfDay }; } } }"
          = .ok d
      ∧ anchor ∈ d.sites ∧ d.model.planAt d.tree anchor (Request.named "TimeSpan") = .ok p
      ∧ Catalogue.has p.scope.home p.newName 0 = true)
    ∧ ∃ d anchor p, Document.parse
        "namespace A.B { class D { } } namespace A { class C { void M() { var x = new { Y = 1 }; } } }"
          = .ok d
      ∧ anchor ∈ d.sites ∧ d.model.planAt d.tree anchor (Request.named "B") = .ok p
      ∧ d.model.declared.isNamespace (p.scope.home ++ [p.newName]) = true :=
  ⟨exists_plan _ _ (fun _ p => Catalogue.has p.scope.home p.newName 0) (by decide +kernel),
    exists_plan _ _ (fun d p => d.model.declared.isNamespace (p.scope.home ++ [p.newName]))
      (by decide +kernel)⟩

end Nominal
