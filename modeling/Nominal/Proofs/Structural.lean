import Nominal.Proofs.Detected
import Nominal.Proofs.Interned
import Nominal.Proofs.Tallied
import Nominal.Proofs.Typed.Told

/-!
# Types of Anonymous Objects

A creation of an anonymous object says what its type is: the names of its members, in their order,
with the types of their values. That is also what is filed for it, provided that every member has a
name of its own, and then two creations have the same type if and only if they say the same. A
member without a name of its own is reported, and nothing else is.

What is said of values here is what a model answers after typing, not what was known when the
creation was typed. Both are the same because no expression is visited twice, so nothing that has
been filed for one is ever replaced. And one anonymous type has one number, because no shape is
registered twice.

## Main definitions

* `Model.fieldsAt`: The members of a creation, with the types that are filed for their values.
* `Model.typedCreations`: The creations that have a type.

## Theorems

* `Model.typeAt?_of_mem`: What is filed for an expression is never replaced.
* `Model.shape?_nameable`: The type of a creation has its members as fields.
* `Model.reported_ofTree`: What is reported about a tree.
* `anonymous_types_faithful`: Types of creations say what the creations do.
-/

namespace Nominal

open Syntax (Tree Kind Location)
open Nominal.Types (TypeId Field Registry)
open Program (Creation AnonMember Expr)
open Typing (NodeKey timesFiled timesVisited IsFiled IsFilled)
open Text (Span)

namespace Program

theorem Expr.kind_of_key? {e : Expr} {key : NodeKey} (h : e.key? = some key) :
    key.kind ∈ Kind.expressions := by
  rw [key?, Option.map_eq_some_iff] at h
  rcases h with ⟨span, hspan, rfl⟩
  cases e with
  | missing => cases hspan
  | _ => exact List.contains_iff_mem.mp rfl

/-- A creation is visited as often as it is among the creations. -/
theorem count_creationsAmong_le (span : Span) (es : List Expr) :
    ((creationsAmong es).map Creation.span).count span
      ≤ timesVisited ⟨.anonObjectCreation, span⟩ es := by
  rw [List.count, List.countP_map, creationsAmong, List.countP_filterMap]
  refine List.countP_mono_left fun e _ hspan => ?_
  cases e with
  | anonymous span' keyword members =>
      have hsame : span' = span := eq_of_beq hspan
      rw [hsame]
      exact beq_self_eq_true _
  | _ => cases hspan

end Program

/-- Something with a property is found first if it is the only one. -/
theorem find?_of_mem {α : Type} {p : α → Bool} {xs : List α} {x : α} (hx : x ∈ xs)
    (hp : p x = true) (hone : xs.countP p ≤ 1) : xs.find? p = some x := by
  induction xs with
  | nil => cases hx
  | cons y ys ih =>
      rw [List.countP_cons] at hone
      cases hy : p y with
      | true =>
          -- There is no other one behind the first.
          rw [List.find?_cons_of_pos hy]
          rcases List.mem_cons.mp hx with rfl | hx
          · rfl
          · have hsome : 0 < ys.countP p := List.countP_pos_iff.mpr ⟨x, hx, hp⟩
            rw [if_pos hy] at hone
            omega
      | false =>
          rw [List.find?_cons_of_neg (by rw [hy]; exact Bool.false_ne_true)]
          refine ih ((List.mem_cons.mp hx).resolve_left ?_) (Nat.le_of_add_right_le hone)
          rintro rfl
          rw [hp] at hy
          cases hy

namespace Model

/-- A member of a creation as a field. What is no value has the unknown type. -/
def fieldOf (m : Model) (a : AnonMember) : Field :=
  ⟨a.name?.getD "", (a.value.key?.bind m.typeAt?).getD .unknown⟩

/-- The members of a creation in their order, with the types that are filed for their values. -/
def fieldsAt (m : Model) (l : Location) : List Field := l.node.anonMembers.map m.fieldOf

/-- The creations that have a type. -/
def typedCreations (m : Model) (t : Tree) : List Location :=
  t.locations.filter fun l => l.node.kind == .anonObjectCreation && (m.typeOf? l).isSome

/-- No shape has two numbers after typing. -/
theorem nodup_shapes (t : Tree) : (ofTree t).1.registry.shapes.Nodup := by
  have hcollect := Types.DeclaredTypes.grows_collect (Program.SourceFile.ofTree t) Registry.initial
  have hfound : ∀ declared, Typing.Found _ _ (Typing.typeFile declared _ _) := fun declared =>
    Typing.found_typeFile (Program.SourceFile.ofTree t)
      (hcollect.isSound Types.Registry.isSound_initial)
  exact (hcollect.trans (hfound _).grows).nodup Types.Registry.consistent_initial.nodup

section Filed

variable {t : Tree} (ht : t.Anchored) (hpos : ∀ x ∈ t.leaves, 0 < x.width) {children : List Tree}
  (hroot : t = .node .root children)

include ht hpos hroot

/-- What is filed for an expression is never replaced. -/
theorem typeAt?_of_mem {key : NodeKey} {type : TypeId} (hkind : key.kind ∈ Kind.expressions)
    (hmem : (key, type) ∈ (ofTree t).1.records) : (ofTree t).1.typeAt? key = some type := by
  -- Parameters and variables are filed under kinds of their own.
  have hother : ∀ kind ∈ Kind.expressions, kind ≠ .lambdaParam ∧ kind ≠ .varDeclarator := by
    decide
  have honce : timesFiled key (ofTree t).1.records ≤ 1 :=
    Nat.le_trans (Typing.timesFiled_typeFile (Program.SourceFile.ofTree t) _
        (hother _ hkind).1 (hother _ hkind).2)
      (timesVisited_items_le_one ht hpos hroot hkind)
  rw [typeAt?, find?_of_mem hmem (beq_self_eq_true key) honce]
  rfl

/-- The type that is filed for an expression is the one that is answered for it. -/
theorem type_of_isFiled {e : Expr} {type : TypeId} (h : IsFiled (ofTree t).1.records e type) :
    (e.key?.bind (ofTree t).1.typeAt?).getD .unknown = type := by
  rw [IsFiled] at h
  cases hkey : e.key? with
  | none =>
      rw [hkey] at h
      exact h.symm
  | some key =>
      rw [hkey] at h
      rw [Option.bind_some, typeAt?_of_mem ht hpos hroot (Expr.kind_of_key? hkey) h]
      rfl

/-- Fields with the names of members and the types of their values are these members. -/
theorem fields_eq {ms : List AnonMember} {fields : List Field}
    (hgives : List.Forall₂ AnonMember.Gives ms fields)
    (hfilled : IsFilled (ofTree t).1.records ms fields) :
    fields = ms.map (ofTree t).1.fieldOf := by
  induction hgives with
  | nil => rfl
  | @cons m f ms fields hfield _ ih =>
      cases hfilled with
      | cons htype hrest =>
          have hthis : (ofTree t).1.fieldOf m = f := by
            rw [fieldOf, hfield.name, type_of_isFiled ht hpos hroot htype]
            rfl
          rw [List.map_cons, hthis, ← ih hrest]

/-- The type of a creation whose members can be named has these members as fields. -/
theorem shape?_nameable (hconforms : t.Conforms) {l : Location} (hl : l ∈ t.locations)
    (hnameable : l.IsNameable) {type : TypeId} (htype : (ofTree t).1.typeOf? l = some type) :
    (ofTree t).1.registry.shape? type = some (.anonymous ((ofTree t).1.fieldsAt l)) := by
  have hfiled := shape?_creation hconforms hpos hroot hl hnameable.1
  rw [htype] at hfiled
  rcases hfiled with ⟨_, shape, hshape, hof, hfields⟩
  rw [Creation.IsOfShape, if_pos ((Location.isNameable_iff hnameable.1).mp hnameable)] at hof
  rcases hof with ⟨fields, rfl, hgives⟩
  have heq : fields = (ofTree t).1.fieldsAt l :=
    fields_eq ht hpos hroot hgives (hfields fields rfl)
  rw [hshape, heq]

/-- Typing visits each creation that has a type, and each of them once. -/
theorem perm_typedCreations (hconforms : t.Conforms) :
    (Program.creationsOfItems (Program.SourceFile.ofTree t).items).Perm
      (((ofTree t).1.typedCreations t).map Location.creation) := by
  have hkind : Kind.anonObjectCreation ∈ Kind.expressions := by decide
  have hvisited : (Program.creationsOfItems (Program.SourceFile.ofTree t).items).Nodup := by
    refine List.Nodup.of_map Creation.span (List.nodup_iff_count_le_one.mpr fun span => ?_)
    rw [← Program.creationsAmong_visitedOfItems]
    exact Nat.le_trans (Program.count_creationsAmong_le span _)
      (timesVisited_items_le_one ht hpos hroot hkind)
  have hmem : ∀ l ∈ (ofTree t).1.typedCreations t, l ∈ t.locations
      ∧ l.node.kind = .anonObjectCreation := by
    intro l hl
    rw [typedCreations, List.mem_filter, Bool.and_eq_true, beq_iff_eq] at hl
    exact ⟨hl.1, hl.2.1⟩
  -- Two nodes are different creations because they have different spans.
  have hlocated : (((ofTree t).1.typedCreations t).map Location.creation).Nodup := by
    refine List.Nodup.map_on (fun l hl l' hl' heq => ?_) ?_
    · rcases hmem l hl with ⟨hin, hkind⟩
      rcases hmem l' hl' with ⟨hin', hkind'⟩
      exact Syntax.eq_of_span_eq hconforms hpos hin hin' hkind hkind' (congrArg Creation.span heq)
    · refine List.Nodup.filter _ ((Syntax.pairwise_locations t).imp ?_)
      rintro l _ hless rfl
      exact List.lt_irrefl _ hless
  rw [List.perm_ext_iff_of_nodup hvisited hlocated]
  intro c
  rw [mem_creationsOfItems hconforms hroot, List.mem_map]
  refine exists_congr fun l => ?_
  rw [typedCreations, List.mem_filter, Bool.and_eq_true, beq_iff_eq, and_assoc, and_assoc]
  refine and_congr_right fun hl => and_congr_right fun hkind => ?_
  -- A creation has a type exactly if it is not passed over.
  have htype := typeAt?_creation hconforms hpos hroot hl hkind
  refine and_congr ?_ eq_comm
  cases hfound : (ofTree t).1.typeOf? l with
  | none =>
      rw [hfound] at htype
      rw [htype]
      exact iff_of_false Bool.noConfusion Bool.false_ne_true
  | some type =>
      rw [hfound] at htype
      exact iff_of_true htype.1 rfl

/-- What is reported about a tree are the mistakes in the creations that have a type. -/
theorem reported_ofTree (hconforms : t.Conforms) :
    (ofTree t).2.Perm (((ofTree t).1.typedCreations t).flatMap fun l => l.creation.faults) := by
  have hreported : (ofTree t).2.Perm _ := Typing.reported_typeFile _ _ _
  have hcreations := (perm_typedCreations ht hpos hroot hconforms).flatMap_right Creation.faults
  rw [List.flatMap_map] at hcreations
  exact hreported.trans hcreations

end Filed

end Model

/-- A creation that has a type has an anonymous one exactly if its members all have names of their
    own. The fields of that type are the members with the types that are filed for their values, so
    that two such creations have the same type exactly if these are the same. What typing reports
    is one mistake for each member that has no name, or the name of a member before it. -/
theorem anonymous_types_faithful {source : String} {d : Document}
    (hd : Document.parse source = .ok d) :
    (∀ l ∈ d.tree.locations, l.node.kind = .anonObjectCreation →
      ∀ type, d.model.typeOf? l = some type →
        (d.model.isStructural type = true ↔ l.IsNameable) ∧
        (l.IsNameable → d.model.registry.shape? type = some (.anonymous (d.model.fieldsAt l)))) ∧
    (∀ l ∈ d.tree.locations, l.IsNameable → ∀ l' ∈ d.tree.locations, l'.IsNameable →
      ∀ type type', d.model.typeOf? l = some type → d.model.typeOf? l' = some type' →
        (type = type' ↔ d.model.fieldsAt l = d.model.fieldsAt l')) ∧
    (Model.ofTree d.tree).2.Perm
      ((d.model.typedCreations d.tree).flatMap fun l =>
        Program.faultsBehind [] l.node.anonMembers) := by
  rcases Document.parse_eq_ok hd with ⟨_, hleaves, hconforms, hmodel, parsed, hparsed, htree, _⟩
  rcases Grammar.kind_parseLexemes hparsed with ⟨children, hroot⟩
  have hanchored := Grammar.anchored_parseLexemes hparsed
  rw [← htree] at hroot hanchored
  have hpos : ∀ x ∈ d.tree.leaves, 0 < x.width := hleaves ▸ Syntax.pos_of_mem_lex source
  rw [hmodel]
  have hshape : ∀ l ∈ d.tree.locations, l.IsNameable → ∀ type,
      (Model.ofTree d.tree).1.typeOf? l = some type →
      (Model.ofTree d.tree).1.registry.shape? type
        = some (.anonymous ((Model.ofTree d.tree).1.fieldsAt l)) := fun l hl hnameable type htype =>
    Model.shape?_nameable hanchored hpos hroot hconforms hl hnameable htype
  refine ⟨?structural, ?same, ?reported⟩
  case structural =>
    intro l hl hkind type htype
    have hfiled := Model.typeAt?_creation hconforms hpos hroot hl hkind
    rw [htype] at hfiled
    exact ⟨hfiled.2, fun hnameable => hshape l hl hnameable type htype⟩
  case same =>
    intro l hl hnameable l' hl' hnameable' type type' htype htype'
    have hfirst := hshape l hl hnameable type htype
    have hsecond := hshape l' hl' hnameable' type' htype'
    constructor
    · rintro rfl
      rw [hfirst] at hsecond
      exact Types.Shape.anonymous.inj (Option.some.inj hsecond)
    · intro hfields
      rw [← hfields] at hsecond
      exact Registry.eq_of_shape?_eq (Model.nodup_shapes d.tree) hfirst hsecond
  case reported => exact Model.reported_ofTree hanchored hpos hroot hconforms

/-- Two creations say the same and have the same type. Of two others one takes a name twice and one
    has a member without a name, and both mistakes are reported. -/
theorem anonymous_types_faithful_pair :
    ∃ d, Document.parse "var a = new { A = 1 }; f(new { A = 2 }, new { A = 1, A = a }, new { 1 });"
        = .ok d
      ∧ ∃ l ∈ d.tree.locations, ∃ l' ∈ d.tree.locations, ∃ type, l ≠ l'
        ∧ d.model.typeOf? l = some type ∧ d.model.typeOf? l' = some type
        ∧ d.model.isStructural type = true
        ∧ d.model.registry.shape? type = some (.anonymous (d.model.fieldsAt l))
        ∧ d.model.fieldsAt l = d.model.fieldsAt l'
        ∧ (Model.ofTree d.tree).2.Perm ((d.model.typedCreations d.tree).flatMap fun l =>
          Program.faultsBehind [] l.node.anonMembers)
        ∧ (d.model.typedCreations d.tree).length = 4 ∧ (Model.ofTree d.tree).2.length = 2 := by
  have hok : ((Document.parse
      "var a = new { A = 1 }; f(new { A = 2 }, new { A = 1, A = a }, new { 1 });").toOption.any
        fun d => (Model.ofTree d.tree).2.length == 2
          && (d.model.typedCreations d.tree).length == 4
          && (d.model.typedCreations d.tree)[0]?.any fun l =>
            (d.model.typedCreations d.tree)[1]?.any fun l' => decide l.IsNameable
              && decide l'.IsNameable && l.path != l'.path
              && (d.model.typeOf? l).isSome && d.model.typeOf? l == d.model.typeOf? l') = true := by
    decide +kernel
  cases hd : Document.parse
      "var a = new { A = 1 }; f(new { A = 2 }, new { A = 1, A = a }, new { 1 });" with
  | error failure =>
      rw [hd] at hok
      cases hok
  | ok d =>
      simp only [hd, Except.toOption, Option.any_some, Bool.and_eq_true, beq_iff_eq,
        Option.any_eq_true, decide_eq_true_eq, bne_iff_ne] at hok
      rcases hok with ⟨⟨htwo, hfour⟩, l, hfirst, l', hsecond, hpair⟩
      rcases hpair with ⟨⟨⟨⟨hnameable, hnameable'⟩, hpath⟩, hsome⟩, htypes⟩
      rcases Option.isSome_iff_exists.mp hsome with ⟨type, htype⟩
      rcases anonymous_types_faithful hd with ⟨hstructural, hsame, hreported⟩
      have hl := (List.mem_filter.mp (List.mem_of_getElem? hfirst)).1
      have hl' := (List.mem_filter.mp (List.mem_of_getElem? hsecond)).1
      have htype' := htypes ▸ htype
      rcases hstructural l hl hnameable.1 type htype with ⟨hanonymous, hshape⟩
      refine ⟨d, rfl, l, hl, l', hl', type, fun heq => hpath (heq ▸ rfl), htype, htype',
        hanonymous.mpr hnameable, hshape hnameable, ?_, hreported, hfour, htwo⟩
      exact (hsame l hl hnameable l' hl' hnameable' type type htype htype').mp rfl

end Nominal
