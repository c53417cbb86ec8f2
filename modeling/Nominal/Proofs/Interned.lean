import Nominal.Proofs.Registering

/-!
# Types as Their Numbers

Types are told apart by their numbers alone. That is right as long as no shape is
registered twice, and it is what types are built of that makes it more than a fact about
shapes: a shape names its parts by numbers, too, so that two types may only have the same
number when what they are built of is the same all the way down.

Three things are kept by whatever is registered: no shape is there twice, the parts of a
shape were there before it, and nothing that may be null is made so again. From the second
one every type has an end when it is unfolded, and from the first one unfolding loses
nothing, by induction on the numbers.

## Main definitions

* `Shape.parts`: The types that a shape is built of.
* `Request`: A type that is asked for, with `Request.answer` as its number.
* `Registry.Reaches`: A registry after some requests for types of registered parts.
* `Registry.IsConsistent`: What is kept by all requests.
* `Unfolded`: A type with the types that it is built of in place of their numbers.
* `Registry.unfold`: The type that a number stands for.

## Theorems

* `Registry.consistent_answer`: A request keeps a registry consistent.
* `Registry.unfold_eq`: A type is unfolded by unfolding its parts.
* `Registry.eq_of_unfold_eq`: Unfolding loses nothing.
* `Registry.Reaches.eq_iff_unfold_eq`: Types have the same number exactly when they are the same.
-/

namespace Nominal

namespace Types

/-- The types that a shape is built of. -/
def Shape.parts : Shape → List TypeId
  | .named _ _ args => args
  | .array element => [element]
  | .nullable inner => [inner]
  | .anonymous fields => fields.map Field.type
  | _ => []

/-- A type that is asked for. -/
inductive Request where
  | named (namespacePath : Namespace) (name : String) (args : List TypeId)
  | array (element : TypeId)
  | nullable (inner : TypeId)
  | anonymous (fields : List Field)
deriving DecidableEq, Repr

namespace Request

/-- The shape that is asked for. -/
def shape : Request → Shape
  | named ns name args => .named ns name args
  | array element => .array element
  | nullable inner => .nullable inner
  | anonymous fields => .anonymous fields

/-- The number of what is asked for. What may be null already is not made so again. -/
def answer (q : Request) (r : Registry) : TypeId × Registry :=
  match q with
  | nullable inner => r.internNullable inner
  | _ => r.intern q.shape

end Request

namespace Registry

/-- A type has a shape. -/
def IsRegistered (r : Registry) (t : TypeId) : Prop := t.number < r.shapes.length

instance (r : Registry) : DecidablePred r.IsRegistered := fun _ => Nat.decLt _ _

/-- A registry after some requests, each for a type that is built of registered ones. -/
inductive Reaches : Registry → Registry → Prop
  | refl (r : Registry) : Reaches r r
  | step {r r' : Registry} (h : Reaches r r') (q : Request)
      (hparts : ∀ t ∈ q.shape.parts, r'.IsRegistered t) : Reaches r (q.answer r').2

/-- No shape is registered twice or before its parts, and nothing is null in two ways. -/
structure IsConsistent (r : Registry) : Prop where
  nodup : r.shapes.Nodup
  earlier : ∀ t s, r.shape? t = some s → ∀ part ∈ s.parts, part.number < t.number
  plain : ∀ t inner, r.shape? t = some (.nullable inner) →
    ∀ t', r.shape? inner ≠ some (.nullable t')

variable {r r' : Registry} {s : Shape} {t t' : TypeId}

theorem isRegistered_iff : r.IsRegistered t ↔ ∃ s, r.shape? t = some s := by
  rw [← Option.isSome_iff_exists, shape?, isSome_getElem?, IsRegistered]

theorem grows_answer (q : Request) (r : Registry) : r.Grows (q.answer r).2 := by
  cases q with
  | nullable inner => exact grows_internNullable r inner
  | named ns name args => exact grows_intern r _
  | array element => exact grows_intern r _
  | anonymous fields => exact grows_intern r _

/-- What is asked for is registered. -/
theorem isRegistered_answer (q : Request) (r : Registry) :
    (q.answer r).2.IsRegistered (q.answer r).1 := by
  have hintern : ∀ s, (r.intern s).2.IsRegistered (r.intern s).1 := fun s =>
    isRegistered_iff.mpr ⟨s, shape?_intern r s⟩
  cases q with
  | nullable inner =>
      rw [Request.answer, internNullable]
      split
      · next t ht => exact isRegistered_iff.mpr ⟨_, ht⟩
      · exact hintern _
  | named ns name args => exact hintern _
  | array element => exact hintern _
  | anonymous fields => exact hintern _

theorem Reaches.grows (h : Reaches r r') : r.Grows r' := by
  induction h with
  | refl => exact .refl r
  | step _ q _ ih => exact ih.trans (grows_answer q _)

/-! ### What is kept -/

/-- One shape more is the shape of the next number, and the other numbers keep theirs. -/
theorem shape?_append :
    shape? ⟨r.shapes ++ [s]⟩ t = if t.number = r.shapes.length then some s else r.shape? t := by
  rw [shape?, shape?, List.getElem?_append]
  split
  · next hlt => rw [if_neg (by omega)]
  · split
    · next heq => rw [heq, Nat.sub_self, List.getElem?_singleton, if_pos rfl]
    · next hlt hne => rw [List.getElem?_singleton, if_neg (by omega), List.getElem?_eq_none (by omega)]

/-- A shape whose parts are registered may be registered, unless it makes a type null that
    may be so already. -/
theorem consistent_intern (h : r.IsConsistent) (hparts : ∀ part ∈ s.parts, r.IsRegistered part)
    (hplain : ∀ inner, s = .nullable inner → ∀ t', r.shape? inner ≠ some (.nullable t')) :
    (r.intern s).2.IsConsistent := by
  have hnodup := nodup_intern (s := s) h.nodup
  rw [intern] at hnodup ⊢
  split
  · exact h
  · next hnone =>
      -- The parts of every shape, the new one included, are older than the new number.
      have hold : ∀ {t : TypeId}, r.IsRegistered t →
          shape? ⟨r.shapes ++ [s]⟩ t = r.shape? t := by
        intro t ht
        rw [shape?_append, if_neg (Nat.ne_of_lt ht)]
      have hcases : ∀ {t : TypeId} {s' : Shape}, shape? ⟨r.shapes ++ [s]⟩ t = some s' →
          t.number = r.shapes.length ∧ s' = s ∨ r.shape? t = some s' := by
        intro t s' hs'
        rw [shape?_append] at hs'
        split at hs'
        · next heq => exact .inl ⟨heq, (Option.some.inj hs').symm⟩
        · exact .inr hs'
      refine ⟨?nodup, ?earlier, ?plain⟩
      case nodup => simpa only [hnone] using hnodup
      case earlier =>
        intro t s' hs' part hpart
        rcases hcases hs' with ⟨hnew, rfl⟩ | hs'
        · rw [hnew]
          exact hparts part hpart
        · exact h.earlier t s' hs' part hpart
      case plain =>
        intro t inner hs' t'
        rcases hcases hs' with ⟨_, rfl⟩ | hs'
        · rw [hold (hparts inner (List.mem_singleton_self _))]
          exact hplain inner rfl t'
        · have hlt := h.earlier t _ hs' inner (List.mem_singleton_self _)
          rw [hold (Nat.lt_trans hlt (isRegistered_iff.mpr ⟨_, hs'⟩))]
          exact h.plain t inner hs' t'

/-- A request for a type of registered parts keeps a registry consistent. -/
theorem consistent_answer {q : Request} (h : r.IsConsistent)
    (hparts : ∀ part ∈ q.shape.parts, r.IsRegistered part) : (q.answer r).2.IsConsistent := by
  cases q with
  | nullable inner =>
      rw [Request.answer, internNullable]
      split
      · exact h
      · next hplain =>
          refine consistent_intern h hparts fun inner' heq t' => ?_
          cases heq
          exact hplain t'
  | named ns name args => exact consistent_intern h hparts fun _ heq => by cases heq
  | array element => exact consistent_intern h hparts fun _ heq => by cases heq
  | anonymous fields => exact consistent_intern h hparts fun _ heq => by cases heq

/-- The types that are there from the start are built of no others. -/
theorem consistent_initial : initial.IsConsistent := by
  have hbare : ∀ {t : TypeId} {s : Shape}, initial.shape? t = some s → s.parts = [] := by
    intro t s hs
    have hall : ∀ s ∈ initial.shapes, s.parts = [] := by decide
    exact hall s (List.mem_of_getElem? hs)
  refine ⟨by decide, fun t s hs part hpart => ?_, fun t inner hs => ?_⟩
  · rw [hbare hs] at hpart
    cases hpart
  · exact nomatch hbare hs

theorem Reaches.isConsistent (h : Reaches r r') (hr : r.IsConsistent) : r'.IsConsistent := by
  induction h with
  | refl => exact hr
  | step _ q hparts ih => exact consistent_answer ih hparts

/-- Numbers lead to shapes and shapes to numbers. -/
theorem lookup?_eq_some_iff (h : r.shapes.Nodup) :
    r.lookup? s = some t ↔ r.shape? t = some s := by
  rw [lookup?, Option.map_eq_some_iff]
  constructor
  · rintro ⟨i, hi, rfl⟩
    rcases List.findIdx?_eq_some_iff_getElem.mp hi with ⟨hlt, hat, _⟩
    rw [shape?, List.getElem?_eq_getElem hlt, eq_of_beq hat]
  · intro hs
    rcases List.getElem?_eq_some_iff.mp hs with ⟨hlt, hat⟩
    refine ⟨t.number, List.findIdx?_eq_some_iff_getElem.mpr ⟨hlt, beq_iff_eq.mpr hat, ?_⟩, rfl⟩
    intro j hj heq
    have hsame : r.shapes[j] = r.shapes[t.number] := by rw [hat, eq_of_beq heq]
    exact Nat.ne_of_lt hj (h.getElem_inj_iff.mp hsame)

/-- A shape has only one number. -/
theorem eq_of_shape?_eq (h : r.shapes.Nodup) (ht : r.shape? t = some s)
    (ht' : r.shape? t' = some s) : t = t' :=
  Option.some.inj (((lookup?_eq_some_iff h).mpr ht).symm.trans ((lookup?_eq_some_iff h).mpr ht'))

/-- What is registered stays as it is when it is asked for again. -/
theorem intern_of_shape? (h : r.shapes.Nodup) (hs : r.shape? t = some s) : r.intern s = (t, r) := by
  rw [intern, (lookup?_eq_some_iff h).mpr hs]

end Registry

/-! ### Unfolding -/

/-- A type with the types that it is built of in place of their numbers. -/
inductive Unfolded where
  | unknown
  | void
  | null
  | lambda
  | primitive (primitive : Primitive)
  | named (namespacePath : Namespace) (name : String) (args : List Unfolded)
  | array (element : Unfolded)
  | nullable (inner : Unfolded)
  | anonymous (fields : List (String × Unfolded))

namespace Shape

/-- The type of a shape, given what the numbers in it stand for. -/
def built (meaning : TypeId → Unfolded) : Shape → Unfolded
  | unknown => .unknown
  | void => .void
  | null => .null
  | lambda => .lambda
  | primitive p => .primitive p
  | named ns name args => .named ns name (args.map meaning)
  | array element => .array (meaning element)
  | nullable inner => .nullable (meaning inner)
  | anonymous fields => .anonymous (fields.map fun f => (f.name, meaning f.type))

variable {meaning meaning' : TypeId → Unfolded} {s s' : Shape}

theorem built_congr (h : ∀ part ∈ s.parts, meaning part = meaning' part) :
    s.built meaning = s.built meaning' := by
  cases s with
  | named ns name args => exact congrArg _ (List.map_congr_left h)
  | array element => exact congrArg _ (h element (List.mem_singleton_self _))
  | nullable inner => exact congrArg _ (h inner (List.mem_singleton_self _))
  | anonymous fields =>
      refine congrArg _ (List.map_congr_left fun f hf => ?_)
      rw [h f.type (List.mem_map_of_mem hf)]
  | unknown | void | null | lambda | primitive p => rfl

/-- Lists are the same where what is made of them is and nothing else makes that of a part. -/
theorem eq_of_map_eq_map {α β : Type} {f : α → β} :
    ∀ {xs ys : List α}, (∀ x ∈ xs, ∀ y ∈ ys, f x = f y → x = y) → xs.map f = ys.map f → xs = ys
  | [], [], _, _ => rfl
  | [], _ :: _, _, h | _ :: _, [], _, h => nomatch h
  | x :: xs, y :: ys, hinj, h => by
      rcases List.cons.inj h with ⟨hhead, htail⟩
      rw [hinj x (.head _) y (.head _) hhead,
        eq_of_map_eq_map (fun x hx y hy => hinj x (.tail _ hx) y (.tail _ hy)) htail]

/-- Two shapes of one type are the same when no two of their parts stand for one type. -/
theorem eq_of_built_eq
    (hinj : ∀ part ∈ s.parts, ∀ part' ∈ s'.parts, meaning part = meaning part' → part = part')
    (h : s.built meaning = s'.built meaning) : s = s' := by
  cases s with
  | named ns name args =>
      cases s' with
      | named ns' name' args' =>
          rcases Unfolded.named.inj h with ⟨rfl, rfl, hargs⟩
          exact congrArg _ (eq_of_map_eq_map hinj hargs)
      | _ => nomatch h
  | array element =>
      cases s' with
      | array element' =>
          rw [hinj element (.head _) element' (.head _) (Unfolded.array.inj h)]
      | _ => nomatch h
  | nullable inner =>
      cases s' with
      | nullable inner' =>
          rw [hinj inner (.head _) inner' (.head _) (Unfolded.nullable.inj h)]
      | _ => nomatch h
  | anonymous fields =>
      cases s' with
      | anonymous fields' =>
          refine congrArg _ (eq_of_map_eq_map (fun f hf f' hf' heq => ?_) (Unfolded.anonymous.inj h))
          rcases f with ⟨name, type⟩
          rcases f' with ⟨name', type'⟩
          rcases Prod.mk.inj heq with ⟨rfl, htype⟩
          rw [hinj type (List.mem_map_of_mem hf) type' (List.mem_map_of_mem hf') htype]
      | _ => nomatch h
  | primitive p =>
      cases s' with
      | primitive p' => rw [Unfolded.primitive.inj h]
      | _ => nomatch h
  | unknown | void | null | lambda => cases s' <;> first | rfl | cases h

end Shape

namespace Registry

/-- The type that a number stands for, if it is nested less than `depth` deep. -/
def unfoldWithin (r : Registry) : Nat → TypeId → Unfolded
  | 0, _ => .unknown
  | depth + 1, t =>
    match r.shape? t with
    | none => .unknown
    | some s => s.built (r.unfoldWithin depth)

/-- The type that a number stands for. Its parts have smaller numbers, so it is nested at
    most as deep as its number says. -/
def unfold (r : Registry) (t : TypeId) : Unfolded := r.unfoldWithin (t.number + 1) t

variable {r r' : Registry} {s : Shape} {t t' : TypeId}

/-- What is worked out of a type from its parts does not depend on how deep one looks, when
    one looks as deep as its number says. -/
theorem eq_of_depth {α : Type} (f : Nat → TypeId → α) (hr : r.IsConsistent)
    (hf : ∀ {depth depth' t s}, r.shape? t = some s →
      (∀ part ∈ s.parts, f depth part = f depth' part) → f (depth + 1) t = f (depth' + 1) t) :
    ∀ {depth depth' t}, r.IsRegistered t → t.number < depth → t.number < depth' →
      f depth t = f depth' t
  | depth + 1, depth' + 1, t, ht, hdepth, hdepth' => by
      rcases isRegistered_iff.mp ht with ⟨s, hs⟩
      refine hf hs fun part hpart => ?_
      have hlt := hr.earlier t s hs part hpart
      exact eq_of_depth f hr hf (Nat.lt_trans hlt ht) (Nat.lt_of_lt_of_le hlt (Nat.le_of_lt_succ hdepth))
        (Nat.lt_of_lt_of_le hlt (Nat.le_of_lt_succ hdepth'))

/-- A type is unfolded by unfolding its parts. -/
theorem unfold_eq (hr : r.IsConsistent) (hs : r.shape? t = some s) :
    r.unfold t = s.built r.unfold := by
  rw [unfold, unfoldWithin, hs]
  refine Shape.built_congr fun part hpart => ?_
  have hlt := hr.earlier t s hs part hpart
  refine eq_of_depth r.unfoldWithin hr (fun hs' hparts => ?_)
    (Nat.lt_trans hlt (isRegistered_iff.mpr ⟨s, hs⟩)) hlt (Nat.lt_succ_self _)
  rw [unfoldWithin, unfoldWithin, hs']
  exact Shape.built_congr hparts

/-- The text of a type is a matter of the texts of its parts. -/
theorem describeWithin_congr {depth depth' : Nat} (hs : r.shape? t = some s)
    (hparts : ∀ part ∈ s.parts, r.describeWithin depth part = r.describeWithin depth' part) :
    r.describeWithin (depth + 1) t = r.describeWithin (depth' + 1) t := by
  rw [describeWithin, describeWithin, hs]
  cases s with
  | named ns name args =>
      have hargs : args.map (r.describeWithin depth) = args.map (r.describeWithin depth') :=
        List.map_congr_left hparts
      simp only [hargs]
  | array element => simp only [hparts element (.head _)]
  | nullable inner => simp only [hparts inner (.head _)]
  | anonymous fields =>
      have htexts : ∀ f ∈ fields, f.name ++ ": " ++ r.describeWithin depth f.type =
          f.name ++ ": " ++ r.describeWithin depth' f.type := fun f hf => by
        rw [hparts f.type (List.mem_map_of_mem hf)]
      simp only [List.map_congr_left htexts]
  | unknown | void | null | lambda | primitive p => rfl

/-- Unfolding loses nothing: the numbers are found again from what they stand for. -/
theorem eq_of_unfold_eq (hr : r.IsConsistent) {t : TypeId} : ∀ {t' : TypeId},
    r.IsRegistered t → r.IsRegistered t' → r.unfold t = r.unfold t' → t = t' := by
  -- By induction on a bound of the number; the parts have smaller ones.
  induction hn : t.number using Nat.strongRecOn generalizing t with
  | _ n ih =>
      subst hn
      intro t' ht ht' heq
      rcases isRegistered_iff.mp ht with ⟨s, hs⟩
      rcases isRegistered_iff.mp ht' with ⟨s', hs'⟩
      rw [unfold_eq hr hs, unfold_eq hr hs'] at heq
      have hsame : s = s' := Shape.eq_of_built_eq (fun part hpart part' hpart' => by
        have hlt := hr.earlier t s hs part hpart
        have hlt' := hr.earlier t' s' hs' part' hpart'
        exact ih part.number hlt rfl (Nat.lt_trans hlt ht) (Nat.lt_trans hlt' ht')) heq
      exact eq_of_shape?_eq hr.nodup hs (hsame ▸ hs')

end Registry

end Types

end Nominal
