import Mathlib.Data.List.Forall2
import Nominal.Proofs.Typed

/-!
# Members of Anonymous Objects

The members of a creation are typed one after the other, and each one becomes a field unless it
has no name of its own. Whether all of them can be named is a matter of the program, and so are
the names of the fields. Of the types only one thing is known in advance: the word of a built-in
type refers to no value, so a member that consists of it has the unknown type.

## Main definitions

* `AnonMember.Gives`: What is known of a field from the member that it was.
* `Creation.IsOfShape`: The shape of the type that is filed for a creation.

## Theorems

* `answers_typeMembers`: What typing finds out about the members of a creation.
-/

namespace Nominal

open Nominal.Types (TypeId Shape Field DeclaredTypes)

namespace Program

/-- Whether an expression is the word of a built-in type. -/
def Expr.isKeyword : Expr → Bool
  | .name _ (some l) => l.kind == .predefinedType
  | _ => false

/-- A field has the name of a member, and the type of what is no value is unknown. -/
structure AnonMember.Gives (m : AnonMember) (f : Field) : Prop where
  name : m.name? = some f.name
  keyword : m.value.isKeyword = true → f.type = .unknown

/-- The shape of the type that is filed for a creation. -/
def Creation.IsOfShape (c : Creation) (shape : Shape) : Prop :=
  if c.isSound then
    ∃ fields, shape = .anonymous fields ∧ List.Forall₂ AnonMember.Gives c.members fields
  else shape = .unknown

theorem Creation.IsOfShape.isAnonymous {c : Creation} {shape : Shape} (h : c.IsOfShape shape) :
    shape.isAnonymous = c.isSound := by
  unfold IsOfShape at h
  split at h
  · next hsound =>
      rcases h with ⟨fields, rfl, _⟩
      exact hsound.symm
  · next hsound =>
      rw [h, (Bool.not_eq_true _).mp hsound]
      rfl

/-- The members of an object of an anonymous type are those of the type. -/
theorem Creation.IsOfShape.gives {c : Creation} {fields : List Field}
    (h : c.IsOfShape (.anonymous fields)) : List.Forall₂ AnonMember.Gives c.members fields := by
  unfold IsOfShape at h
  split at h
  · rcases h with ⟨fields', heq, hgives⟩
    cases heq
    exact hgives
  · cases h

end Program

namespace Typing

open Program

variable {declared : DeclaredTypes}

theorem answers_settle (e : Expr) :
    Answers (examine declared e >>= settle e) fun t => e.isKeyword = true → t = .unknown := by
  cases e with
  | name span token =>
      cases token with
      | none => exact fun _ hword => by cases hword
      | some l =>
          by_cases hkind : l.kind = .predefinedType
          · have hsettled : ∀ r : Referent, (∀ t, r ≠ .value t) →
                Answers (settle (.name span (some l)) r) fun t =>
                  (Expr.name span (some l)).isKeyword = true → t = .unknown := by
              intro r hr s _
              cases r with
              | value t => exact absurd rfl (hr t)
              | type | namespacePath | nothing => rfl
            refine Answers.bind (P := fun r => ∀ t, r ≠ Referent.value t) ?_ hsettled
            rw [examine, examineName]
            rw [if_pos hkind]
            split
            · exact .pure fun _ hvalue => by cases hvalue
            · exact .pure fun _ hvalue => by cases hvalue
          · exact fun s hword => absurd (beq_iff_eq.mp hword) hkind
  | _ => exact fun _ hword => by cases hword

/-- Whether a name is taken by a field. -/
theorem any_name_eq (fields : List Field) (name : String) :
    (fields.any fun f => f.name == name) = (fields.map Field.name).contains name := by
  rw [List.contains_eq_any_beq, List.any_map]
  refine congrArg (fields.any ·) (funext fun f => ?_)
  exact Bool.beq_comm

/-- What becomes of a member with a known type. -/
theorem answers_addAnonymousMember (found : AnonymousMembers) (m : AnonMember) (type : TypeId)
    (names : List (Option String)) :
    Answers (addAnonymousMember found m type) fun r =>
      (r.valid && areApart (r.fields.map Field.name) names)
          = (found.valid && areApart (found.fields.map Field.name) (m.name? :: names)) ∧
        (r.valid = true → ∃ name, m.name? = some name
          ∧ r.fields = found.fields ++ [⟨name, type⟩]) := by
  rw [addAnonymousMember]
  split
  · next hname =>
      refine Answers.last fun _ => .pure ⟨?_, (absurd · Bool.false_ne_true)⟩
      rw [hname, areApart, Bool.false_and, Bool.and_false]
  · next name hname =>
      rw [hname, areApart, ← any_name_eq]
      split
      · next htaken =>
          refine Answers.last fun _ => .pure ⟨?_, (absurd · Bool.false_ne_true)⟩
          rw [htaken, Bool.not_true, Bool.false_and, Bool.false_and, Bool.and_false]
      · next hfree =>
          rw [Bool.not_eq_true] at hfree
          refine .pure ⟨?_, fun _ => ⟨name, rfl, rfl⟩⟩
          rw [hfree, Bool.not_false, Bool.true_and, List.map_append, List.map_singleton]

/-- The members of a creation can be named if each one has a name of its own, and then they are
    the fields that are found. -/
theorem answers_typeMembers (found : AnonymousMembers) (ms : List AnonMember) :
    Answers (typeMembers declared found ms) fun r =>
      r.valid = (found.valid && areApart (found.fields.map Field.name) (ms.map AnonMember.name?)) ∧
        (r.valid = true → ∃ fields, r.fields = found.fields ++ fields
          ∧ List.Forall₂ AnonMember.Gives ms fields) := by
  induction ms generalizing found with
  | nil =>
      rw [typeMembers]
      refine .pure ⟨?_, fun _ => ⟨[], (List.append_nil _).symm, .nil⟩⟩
      rw [List.map_nil, areApart, Bool.and_true]
  | cons m ms ih =>
      cases m with
      | mk span explicit value =>
          rw [typeMembers, ← bind_assoc]
          refine (answers_settle value).bind fun t ht => ?_
          refine (answers_addAnonymousMember found _ t (ms.map AnonMember.name?)).bind fun r hr => ?_
          refine fun s => ⟨(ih r s).1.trans (by rw [hr.1, List.map_cons]), fun hvalid => ?_⟩
          have hfirst : r.valid = true := by
            rw [(ih r s).1, Bool.and_eq_true] at hvalid
            exact hvalid.1
          rcases hr.2 hfirst with ⟨name, hname, hfields⟩
          rcases (ih r s).2 hvalid with ⟨fields, hmore, hgives⟩
          refine ⟨⟨name, t⟩ :: fields, ?_, .cons ⟨hname, ht⟩ hgives⟩
          rw [hmore, hfields, List.append_assoc]
          rfl

end Typing

end Nominal
