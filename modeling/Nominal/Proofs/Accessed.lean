import Nominal.Model.Members
import Nominal.Proofs.Extracted
import Nominal.Proofs.Structural
import Nominal.Proofs.Typed.Entered

/-!
# Accesses to Members

What members a type has is answered in two ways: a model lists them, and typing looks up the one that
an access names. Both go by the declared types, but not in the same way. The list goes by the name
of a type whatever its arguments are, and it has the fields of an anonymous type. Typing looks up
types without arguments among the declared ones and all others in the library, which knows no
anonymous types. So the two agree on declared types without arguments, and the members of an
anonymous type are of no use to an access.

An access is typed at one moment, and then the type of its receiver is registered, so that it has the
same members in the end. And nothing else is filed for the access or for its receiver, because no
expression is visited twice.

## Main definitions

* `Expr.access?`: The receiver and the name of an access to a member.
* `DeclaredTypes.instanceMember?`: The type of a member of the values of a type.
* `FilesOnlyValues`: A step that files nothing unless it answers a value.

## Theorems

* `advances_examine_of_ne`: Of an expression that refers to no value only the parts are filed.
* `access_entered`: An access is typed by the type that its receiver has in the end.
* `Model.typeAt?_access`: An access has the type of the member of the type of its receiver.
* `Model.member?_of_mem_members`: A listed member of a declared type is the one that is looked up.
* `accesses_typed_as_declared`: An access to a declared type without arguments agrees with the list.
-/

namespace Nominal

open Syntax (Tree Kind)
open Text (Span)
open Nominal.Types (TypeId Registry DeclaredTypes Catalogue.instanceMember?)

namespace Program

/-- The receiver and the name of an access to a member. -/
def Expr.access? : Expr → Option (Expr × String)
  | .member _ receiver (some label) => some (receiver, label)
  | _ => none

theorem Expr.access?_eq_some {e receiver : Expr} {name : String} :
    e.access? = some (receiver, name) ↔ ∃ span, e = .member span receiver (some name) := by
  constructor
  · intro h
    rw [Expr.access?.eq_def] at h
    split at h
    · cases h
      exact ⟨_, rfl⟩
    · cases h
  · rintro ⟨span, rfl⟩
    rfl

end Program

namespace Types

namespace DeclaredTypes

/-- The type of a member of the values of a type. -/
def instanceMember? (d : DeclaredTypes) (r : Registry) (owner : TypeId) (name : String) :
    Option TypeId :=
  match d.member? r owner name with
  | some t => some t
  | none => (Catalogue.instanceMember? r owner name).map fun derived => (derived.intern r).1

variable {d : DeclaredTypes} {r r' : Registry} {owner : TypeId} {name : String}

/-- The member depends on the shape of the type alone, and its type keeps its number. -/
theorem instanceMember?_eq (hshape : r'.shape? owner = r.shape? owner) (hnodup : r'.shapes.Nodup)
    (hgrows : ∀ derived, d.member? r owner name = none →
      Catalogue.instanceMember? r owner name = some derived → (derived.intern r).2.Grows r') :
    d.instanceMember? r' owner name = d.instanceMember? r owner name := by
  have hmember : d.member? r' owner name = d.member? r owner name := by
    rw [member?, member?, ofType?, ofType?, hshape]
  have hlibrary : Catalogue.instanceMember? r' owner name
      = Catalogue.instanceMember? r owner name := by
    rw [Catalogue.instanceMember?, Catalogue.instanceMember?, Catalogue.find?, Catalogue.find?, hshape]
  rw [instanceMember?, instanceMember?, hmember, hlibrary]
  cases hfound : d.member? r owner name with
  | some t => rfl
  | none =>
      refine Option.map_congr fun derived hderived => ?_
      cases derived with
      | known t => rfl
      | shaped s =>
          have hregistered := (hgrows _ hfound hderived).shape? (Registry.shape?_intern r s)
          rw [Derived.intern, Registry.intern_of_shape? hnodup hregistered]
          rfl

end DeclaredTypes

end Types

namespace Typing

open Program

variable {declared : DeclaredTypes} {α : Type} {e : Expr} {es : List Expr} {s s' t : TypingState}

/-! ### What refers to no value -/

/-- Nothing is filed unless a value is answered. -/
def FilesOnlyValues (c : TypingM Referent) : Prop :=
  ∀ s, (∀ t, (c s).1 ≠ .value t) → (c s).2.records = s.records

namespace FilesOnlyValues

theorem pure (r : Referent) : FilesOnlyValues (Pure.pure r) := fun _ _ => rfl

/-- A step that answers a value may file what it likes. -/
theorem value {c : TypingM α} {t : TypeId} :
    FilesOnlyValues (c >>= fun _ => Pure.pure (.value t)) := fun _ h => absurd rfl (h t)

/-- A first step may file nothing. -/
theorem first {c : TypingM α} {f : α → TypingM Referent} (hc : ∀ s, (c s).2.records = s.records)
    (hf : ∀ a, FilesOnlyValues (f a)) : FilesOnlyValues (c >>= f) :=
  fun s h => (hf _ _ h).trans (hc s)

end FilesOnlyValues

theorem filesOnlyValues_examineName (span : Span) (token : Option Syntax.Lexeme) :
    FilesOnlyValues (examineName declared span token) := by
  rw [examineName.eq_def]
  split
  · exact .pure _
  · split
    · split
      · exact .pure _
      · exact .pure _
    · refine .first (fun _ => rfl) fun s => ?_
      split
      · exact .value
      · refine .first (fun _ => rfl) fun t => ?_
        split
        · exact .pure _
        · split
          · exact .pure _
          · exact .pure _

theorem filesOnlyValues_examineMember (span : Span) (referent : Referent) (name : String) :
    FilesOnlyValues (examineMember declared span referent name) := by
  have hfound : ∀ {c : TypingM (Option TypeId)}, (∀ s, (c s).2.records = s.records) →
      FilesOnlyValues (c >>= fun o => match o with
        | some t => do
          record .memberAccess span t
          return .value t
        | none => return .nothing) := by
    intro c hc
    refine .first hc fun o => ?_
    cases o with
    | none => exact .pure _
    | some t => exact .value
  have hderived : ∀ (derived : Option Types.Derived) (s : TypingState),
      (internDerived? derived s).2.records = s.records := by
    intro derived s
    cases derived with
    | none => rfl
    | some d => rfl
  have hlooked : ∀ (o : Option TypeId) (derived : Option Types.Derived) (s : TypingState),
      ((match o with
        | some t => Pure.pure (some t)
        | none => internDerived? derived : TypingM (Option TypeId)) s).2.records = s.records := by
    intro o derived s
    cases o with
    | none => exact hderived derived s
    | some t => rfl
  cases referent with
  | namespacePath path =>
      rw [examineMember, examineInNamespace]
      refine .first (fun _ => rfl) fun t => ?_
      split
      · exact .pure _
      · split
        · exact .pure _
        · exact .pure _
  | type owner =>
      exact hfound fun s => hlooked (declared.member? s.registry owner name) _ s
  | value owner =>
      exact hfound fun s => hlooked (declared.member? s.registry owner name) _ s
  | nothing => exact .pure _

/-- Of an expression that refers to no value only the parts are filed when it is examined. -/
theorem advances_examine_of_ne (hs : s.IsReady declared)
    (hne : ∀ t, (examine declared e s).1 ≠ .value t) :
    Advances e.within s (examine declared e s).2 := by
  refine ⟨(Steps.examined (Steps.completes e) hs).1.grows, ?_⟩
  have hnone : (examine declared e s).2.records = s.records → ∃ new,
      (examine declared e s).2.records = new ++ s.records ∧ ∀ key : NodeKey,
        key.kind ≠ .lambdaParam → key.kind ≠ .varDeclarator →
          timesFiled key new ≤ timesVisited key e.within :=
    fun h => ⟨[], h, fun _ _ _ => Nat.zero_le _⟩
  cases hkind : [Syntax.Kind.memberAccess, .nameRef, .error].contains e.kind with
  | false =>
      have hanswers : Answers (examine declared e) fun r => ∃ t, r = .value t :=
        answers_examine hkind
      rcases hanswers s with ⟨t, ht⟩
      exact absurd ht (hne t)
  | true =>
      cases e with
      | missing => exact hnone rfl
      | name span token => exact hnone (filesOnlyValues_examineName span token s hne)
      | member span receiver name =>
          cases name with
          | none => exact hnone rfl
          | some name =>
              -- What is filed for the receiver has been filed before the member is looked up.
              rw [examine] at hne ⊢
              have hreceiver := (Steps.examined (Steps.completes receiver) hs).1.filed
              have hmember : (examineMember declared span (examine declared receiver s).1 name
                  (examine declared receiver s).2).2.records
                    = (examine declared receiver s).2.records :=
                filesOnlyValues_examineMember span _ name _ hne
              rw [← hmember] at hreceiver
              exact hreceiver
      | _ => cases hkind

/-- If an expression is visited once and is not filed at its own moment, it is not filed at all. -/
theorem notMem_records {before after : List Expr} {t' : TypingState} {key : NodeKey}
    (hkey : e.key? = some key) (hone : timesVisited key (before ++ (e.visited ++ after)) ≤ 1)
    (hbefore : Advances before s t) (hexamined : Advances e.within t t')
    (hafter : Advances after t' s') (hs : s.records = []) (type : TypeId) :
    (key, type) ∉ s'.records := by
  have hkind := Expr.kind_of_key? hkey
  have hother : ∀ kind ∈ Syntax.Kind.expressions, kind ≠ .lambdaParam ∧ kind ≠ .varDeclarator := by
    decide
  have hself : timesVisited key [e] = 1 := by
    rw [timesVisited, List.countP_singleton, hkey, if_pos (beq_self_eq_true _)]
  rw [Expr.visited, timesVisited_append, timesVisited_append, timesVisited_append, hself] at hone
  rcases (hbefore.trans (hexamined.trans hafter)).filed with ⟨new, hnew, hcount⟩
  have hnone := hcount key (hother _ hkind).1 (hother _ hkind).2
  rw [timesVisited_append, timesVisited_append] at hnone
  rw [hnew, hs, List.append_nil]
  intro hmem
  have hsome : 0 < timesFiled key new :=
    List.countP_pos_iff.mpr ⟨(key, type), hmem, beq_self_eq_true key⟩
  omega

/-- An access is examined by examining the receiver and looking up the member then. -/
theorem entered_receiver {span : Span} {receiver : Expr} {name : String}
    (h : Entered declared (.member span receiver (some name)) es s t s') :
    ∃ before after, es = before ++ (receiver.visited ++ after) ∧ Advances before s t ∧
      t.IsReady declared ∧ Advances after (examine declared receiver t).2 s' := by
  rcases h with ⟨before, after, t', hes, hbefore, ht, ht', hafter⟩
  have hreceiver := Steps.examined (Steps.completes receiver) ht
  have hmember : Advances [.member span receiver (some name)] (examine declared receiver t).2 t' := by
    have hfinish : ∀ {β : Type} {finish : Referent → TypingM β},
        (∀ t s', s'.IsReady declared → s'.registry.IsRegistered t →
          Steps declared [] [] s' (finish (.value t)) fun _ _ => True) →
        (∀ r s', s'.IsReady declared → r.IsRegistered s'.registry →
          Steps declared [.member span receiver (some name)] [] s' (finish r) fun _ _ => True) →
        Advances [.member span receiver (some name)] (examine declared receiver t).2
          ((examine declared (.member span receiver (some name)) >>= finish) t).2 := by
      intro β finish hvalue hother
      rw [examine, bind_assoc]
      exact (Steps.examineMember hreceiver.1.ready hreceiver.2 name hvalue hother).1.toAdvances
    rcases ht' with rfl | rfl
    · rw [← bind_pure (examine declared (.member span receiver (some name)))]
      exact hfinish (fun _ _ hs _ => .pure hs trivial) fun _ _ hs _ => .more (.pure hs trivial) [_]
    · exact hfinish (fun _ _ hs _ => .pure hs trivial) fun _ _ hs hr =>
        (Steps.settle hs _ hr).imp fun _ _ _ => trivial
  refine ⟨before, [.member span receiver (some name)] ++ after, ?_, hbefore, ht,
    hmember.trans hafter⟩
  rw [hes, Expr.visited, Expr.within, Expr.visited, List.append_assoc]

/-- The member that is looked up. If the library tells its type, it is registered then. -/
theorem instanceMemberType_eq (owner : TypeId) (name : String) (s : TypingState) :
    (instanceMemberType declared owner name s).1 = declared.instanceMember? s.registry owner name ∧
    ∀ derived, declared.member? s.registry owner name = none →
      Types.Catalogue.instanceMember? s.registry owner name = some derived →
      (instanceMemberType declared owner name s).2.registry = (derived.intern s.registry).2 := by
  have hboth : ∀ (o : Option TypeId) (derived : Option Types.Derived),
      ((match o with
        | some t => Pure.pure (some t)
        | none => internDerived? derived : TypingM (Option TypeId)) s).1
        = (match o with
          | some t => some t
          | none => derived.map fun d => (d.intern s.registry).1) ∧
      ∀ d, o = none → derived = some d →
        ((match o with
          | some t => Pure.pure (some t)
          | none => internDerived? derived : TypingM (Option TypeId)) s).2.registry
          = (d.intern s.registry).2 := by
    intro o derived
    cases o with
    | some t => exact ⟨rfl, fun _ h => by cases h⟩
    | none =>
        cases derived with
        | none => exact ⟨rfl, fun _ _ h => by cases h⟩
        | some d =>
            refine ⟨rfl, fun _ _ h => ?_⟩
            cases h
            rfl
  exact hboth _ _

/-- What an access to a member of a value refers to. -/
theorem examineMember_value (span : Span) (owner : TypeId) (name : String) (s : TypingState) :
    (examineMember declared span (.value owner) name s).1
      = ((declared.instanceMember? s.registry owner name).map Referent.value).getD .nothing ∧
    (examineMember declared span (.value owner) name s).2.registry
      = (instanceMemberType declared owner name s).2.registry := by
  have hanswer : ∀ (o : Option TypeId) (s : TypingState),
      ((match o with
        | some t => do
          record .memberAccess span t
          return .value t
        | none => return .nothing : TypingM Referent) s).1 = (o.map Referent.value).getD .nothing ∧
      ((match o with
        | some t => do
          record .memberAccess span t
          return .value t
        | none => return .nothing : TypingM Referent) s).2.registry = s.registry := by
    intro o s
    cases o with
    | none => exact ⟨rfl, rfl⟩
    | some t => exact ⟨rfl, rfl⟩
  rw [← (instanceMemberType_eq owner name s).1]
  exact hanswer _ _

/-- Settling an expression registers nothing. -/
theorem registry_settle (e : Expr) (r : Referent) (s : TypingState) :
    (settle e r s).2.registry = s.registry := by
  cases r with
  | value t => rfl
  | type | namespacePath | nothing =>
      rw [settle.eq_def]
      cases e.span? with
      | none => rfl
      | some span => rfl

theorem answer_settle_of_ne {r : Referent} (hne : ∀ t, r ≠ .value t) :
    (settle e r s).1 = .unknown := by
  cases r with
  | value t => exact absurd rfl (hne t)
  | type | namespacePath | nothing =>
      rw [settle.eq_def]
      cases e.span? with
      | none => rfl
      | some span => rfl

/-- What is filed for an expression that is visited once is one type. -/
theorem eq_of_mem_records {key : NodeKey} {a b : TypeId} (hkind : key.kind ∈ Syntax.Kind.expressions)
    (hone : timesVisited key es ≤ 1) (h : Advances es s s') (hs : s.records = [])
    (ha : (key, a) ∈ s'.records) (hb : (key, b) ∈ s'.records) : a = b := by
  have hother : ∀ kind ∈ Syntax.Kind.expressions, kind ≠ .lambdaParam ∧ kind ≠ .varDeclarator := by
    decide
  rcases h.filed with ⟨new, hnew, hcount⟩
  rw [hs, List.append_nil] at hnew
  rw [hnew] at ha hb
  have hfiled := Nat.le_trans (hcount key (hother _ hkind).1 (hother _ hkind).2) hone
  have hfound := find?_of_mem ha (beq_self_eq_true key) hfiled
  cases hfound.symm.trans (find?_of_mem hb (beq_self_eq_true key) hfiled)
  rfl

/-- If an expression refers to a value at its own moment, the type of the value is filed. -/
theorem mem_records_of_value {key : NodeKey} {type : TypeId} {after : List Expr}
    (hkey : e.key? = some key) (hvalue : (examine declared e t).1 = .value type)
    (hafter : Advances after (examine declared e t).2 s') : (key, type) ∈ s'.records := by
  have hfiled : IsValueFiled e (examine declared e t).1 (examine declared e t).2 :=
    isValueFiled_examine e t
  rcases hfiled type hvalue with ⟨key', hkey', hmem⟩
  cases hkey.symm.trans hkey'
  rcases hafter.filed with ⟨new, hnew, _⟩
  rw [hnew]
  exact List.mem_append_right _ hmem

namespace Entered

/-- What is registered when an expression has been examined stays registered. -/
theorem grows (h : Entered declared e es s t s') :
    (examine declared e t).2.registry.Grows s'.registry := by
  rcases h with ⟨before, after, t', _, _, _, ht', hafter⟩
  have hgrows := hafter.grows
  rcases ht' with rfl | rfl
  · exact hgrows
  · have hsettled : ((examine declared e >>= settle e) t).2.registry
        = (examine declared e t).2.registry := registry_settle _ _ _
    rwa [hsettled] at hgrows

variable {key : NodeKey} {type : TypeId} (h : Entered declared e es s t s')
  (hkey : e.key? = some key)

include h hkey

/-- So it is if the expression is settled afterwards. -/
theorem mem_records (hvalue : (examine declared e t).1 = .value type) :
    (key, type) ∈ s'.records := by
  rcases h with ⟨before, after, t', _, _, _, ht', hafter⟩
  have hexamined : Advances after (examine declared e t).2 s' := by
    rcases ht' with rfl | rfl
    · exact hafter
    · have hsettled : ((examine declared e >>= settle e) t).2 = (examine declared e t).2 := by
        change (settle e (examine declared e t).1 (examine declared e t).2).2 = _
        rw [hvalue]
        rfl
      rwa [hsettled] at hafter
  exact mem_records_of_value hkey hvalue hexamined

/-- If it refers to no value then, it is filed as unknown or not at all. -/
theorem eq_unknown (hmoves : Advances es s s') (hs : s.records = [])
    (hone : timesVisited key es ≤ 1) (hne : ∀ o, (examine declared e t).1 ≠ .value o)
    (hmem : (key, type) ∈ s'.records) : type = .unknown := by
  rcases h with ⟨before, after, t', rfl, hbefore, ht, ht', hafter⟩
  rcases ht' with rfl | rfl
  · exact absurd hmem
      (notMem_records hkey hone hbefore (advances_examine_of_ne ht hne) hafter hs type)
  · -- What refers to no value is filed as unknown when it is settled, and it is filed once.
    have hfiled : IsFiled (settle e (examine declared e t).1 (examine declared e t).2).2.records e
        (settle e (examine declared e t).1 (examine declared e t).2).1 :=
      isFiled_settle_of_ne e hne _
    rw [answer_settle_of_ne hne, IsFiled, hkey] at hfiled
    rcases hafter.filed with ⟨new, hnew, _⟩
    exact eq_of_mem_records (Expr.kind_of_key? hkey) hone hmoves hs hmem
      (hnew ▸ List.mem_append_right _ hfiled)

end Entered

/-- If an access is examined at some moment and no expression is visited twice, then it has the type
    of the member of the type of its receiver in the end, and no type if there is no such member. -/
theorem access_entered {span : Span} {receiver : Expr} {name : String} {key : NodeKey}
    {owner : TypeId} (hmoves : Advances es s s') (hs : s.records = [])
    (hone : ∀ key : NodeKey, key.kind ∈ Syntax.Kind.expressions → timesVisited key es ≤ 1)
    (hnodup : s'.registry.shapes.Nodup)
    (hentered : Entered declared (.member span receiver (some name)) es s t s')
    (hkey : receiver.key? = some key) (howner : (key, owner) ∈ s'.records) :
    (∀ type, declared.instanceMember? s'.registry owner name = some type →
      (⟨.memberAccess, span⟩, type) ∈ s'.records) ∧
    (declared.instanceMember? s'.registry owner name = none →
      ∀ type, (⟨.memberAccess, span⟩, type) ∈ s'.records → type = .unknown) := by
  rcases entered_receiver hentered with ⟨before, after, hes, hbefore, ht, hafter⟩
  have hreceiver := Steps.examined (Steps.completes receiver) ht
  have honce := hone key (Expr.kind_of_key? hkey)
  -- The receiver refers to a value of the type that is filed for it.
  have hvalue : (examine declared receiver t).1 = .value owner := by
    by_cases hne : ∀ o, (examine declared receiver t).1 ≠ .value o
    · exact absurd howner (notMem_records hkey (hes ▸ honce) hbefore
        (advances_examine_of_ne ht hne) hafter hs owner)
    · push Not at hne
      rcases hne with ⟨o, ho⟩
      rw [ho, eq_of_mem_records (Expr.kind_of_key? hkey) honce hmoves hs howner
        (mem_records_of_value hkey ho hafter)]
  have hregistered : (examine declared receiver t).2.registry.IsRegistered owner := by
    have hanswer := hreceiver.2
    rw [hvalue] at hanswer
    exact hanswer
  generalize hu : (examine declared receiver t).2 = u at hafter hregistered
  have hexamined : examine declared (.member span receiver (some name)) t
      = examineMember declared span (.value owner) name u := by
    rw [examine, ← hu, ← hvalue]
    rfl
  have hmember : (examineMember declared span (.value owner) name u).1
        = ((declared.instanceMember? u.registry owner name).map Referent.value).getD .nothing ∧
      (examineMember declared span (.value owner) name u).2.registry
        = (instanceMemberType declared owner name u).2.registry :=
    examineMember_value span owner name u
  -- What is known of the type of the receiver then is known of it in the end.
  have hlooked : declared.instanceMember? s'.registry owner name
      = declared.instanceMember? u.registry owner name := by
    rcases Types.Registry.isRegistered_iff.mp hregistered with ⟨shape, hshape⟩
    refine DeclaredTypes.instanceMember?_eq ((hafter.grows.shape? hshape).trans hshape.symm) hnodup
      fun derived hnone hderived => ?_
    rw [← (instanceMemberType_eq owner name u).2 derived hnone hderived, ← hmember.2, ← hexamined]
    exact hentered.grows
  have hanswer : (examine declared (.member span receiver (some name)) t).1
      = ((declared.instanceMember? s'.registry owner name).map Referent.value).getD .nothing := by
    rw [hexamined, hmember.1, hlooked]
  have hself : Syntax.Kind.memberAccess ∈ Syntax.Kind.expressions := by decide
  refine ⟨fun type htype => ?_, fun hnone type hmem => ?_⟩
  · rw [htype] at hanswer
    exact hentered.mem_records rfl hanswer
  · rw [hnone] at hanswer
    refine hentered.eq_unknown rfl hmoves hs (hone ⟨_, span⟩ hself) (fun o heq => ?_) hmem
    cases hanswer.symm.trans heq

end Typing

namespace Model

open Program
open Typing

/-- The fields and properties of a declared type are listed as they are looked up. -/
theorem member?_of_mem_members {m : Model}
    (hnames : m.declared.All fun members _ => (members.map Types.Field.name).Nodup)
    {owner : TypeId} {home : Types.Namespace} {type : String}
    (hshape : m.registry.shape? owner = some (.named home type [])) {x : TypeMember}
    (hx : x ∈ m.members owner) (hdata : x.kind.isData = true) :
    m.declared.member? m.registry owner x.name = some x.type := by
  have hobject : ∀ y ∈ TypeMember.ofObject, y.kind.isData = false := by decide
  have hlisted : ∀ {ys : List TypeMember}, x ∈ TypeMember.withObject ys → x ∈ ys := by
    intro ys hmem
    refine (List.mem_append.mp hmem).resolve_right fun hrest => ?_
    rw [hobject x (List.mem_filter.mp hrest).1] at hdata
    cases hdata
  rw [members, hshape] at hx
  rw [DeclaredTypes.member?, DeclaredTypes.ofType?, hshape]
  dsimp only at hx ⊢
  cases hdecl : m.declared.get? home type with
  | none =>
      rw [hdecl] at hx
      cases hlisted hx
  | some decl =>
      rw [hdecl] at hx
      rcases List.mem_append.mp (hlisted hx) with hfield | hmethod
      · rcases List.mem_map.mp hfield with ⟨f, hf, rfl⟩
        have hnodup := hnames decl (List.mem_of_find?_eq_some hdecl)
        have hone : decl.members.countP (fun g => g.name == f.name) ≤ 1 := by
          have hcount := List.nodup_iff_count_le_one.mp hnodup f.name
          rwa [List.count, List.countP_map] at hcount
        have hfind := find?_of_mem (p := fun g => g.name == f.name) hf (beq_self_eq_true _) hone
        rw [Option.bind_some, TypeMember.ofField, hfind]
        rfl
      · rcases List.mem_map.mp hmethod with ⟨f, _, rfl⟩
        cases hdata

section Visited

variable {t : Tree} (ht : t.Anchored) (hpos : ∀ x ∈ t.leaves, 0 < x.width) {children : List Tree}
  (hroot : t = .node .root children)

include ht hpos hroot

/-- An access has the type of the member of the type of its receiver, and no type if there is no such
    member. -/
theorem typeAt?_access {span : Span} {receiver : Expr} {name : String}
    (hvisited : .member span receiver (some name) ∈ visitedOfItems (SourceFile.ofTree t).items)
    (hcalled : ¬ IsCalled (.member span receiver (some name))
      (visitedOfItems (SourceFile.ofTree t).items))
    {owner : TypeId} (howner : receiver.key?.bind (ofTree t).1.typeAt? = some owner) :
    (∀ type, (ofTree t).1.declared.instanceMember? (ofTree t).1.registry owner name = some type →
      (ofTree t).1.typeAt? ⟨.memberAccess, span⟩ = some type) ∧
    ((ofTree t).1.declared.instanceMember? (ofTree t).1.registry owner name = none →
      ((ofTree t).1.typeAt? ⟨.memberAccess, span⟩).getD .unknown = .unknown) := by
  have hcollected := DeclaredTypes.isRegistered_collect (SourceFile.ofTree t)
    Types.Registry.isReady_initial
  have hmoves := moves_typeFile (SourceFile.ofTree t) hcollected.1 hcollected.2
  have hfound : ∀ {key : NodeKey} {type : TypeId}, (ofTree t).1.typeAt? key = some type →
      (key, type) ∈ (ofTree t).1.records := by
    intro key type htype
    rcases Option.map_eq_some_iff.mp htype with ⟨⟨key', type'⟩, hfind, rfl⟩
    have hsame := List.find?_some hfind
    cases eq_of_beq hsame
    exact List.mem_of_find?_eq_some hfind
  rcases Option.bind_eq_some_iff.mp howner with ⟨key, hkey, htype⟩
  rcases (hmoves.entered _ hvisited rfl).resolve_left hcalled with ⟨u, hentered⟩
  have haccess := access_entered hmoves.toAdvances rfl
    (fun key hkind => timesVisited_items_le_one ht hpos hroot hkind) (nodup_shapes t) hentered hkey
    (hfound htype)
  refine ⟨fun type hmember => ?_, fun hnone => ?_⟩
  · exact typeAt?_of_mem ht hpos hroot (List.contains_iff_mem.mp rfl) (haccess.1 type hmember)
  · cases haccesstype : (ofTree t).1.typeAt? ⟨.memberAccess, span⟩ with
    | none => rfl
    | some type => exact haccess.2 hnone type (hfound haccesstype)

end Visited

end Model

/-- An access that is not called has the type of the member that typing looks up for the type that is
    filed for its receiver: a declared member if the type is declared and has no arguments, else one
    that the library tells. A member that is listed for a declared type without arguments is the one
    that is looked up. None is looked up for an anonymous type, although its members are listed. -/
theorem accesses_typed_as_declared {source : String} {d : Document}
    (hd : Document.parse source = .ok d) {span : Span} {receiver : Program.Expr} {name : String}
    (hvisited : .member span receiver (some name)
      ∈ Program.visitedOfItems (Program.SourceFile.ofTree d.tree).items)
    (hcalled : ¬ Typing.IsCalled (.member span receiver (some name))
      (Program.visitedOfItems (Program.SourceFile.ofTree d.tree).items))
    {owner : TypeId} (howner : receiver.key?.bind d.model.typeAt? = some owner) :
    (d.model.typeAt? ⟨.memberAccess, span⟩).getD .unknown
      = (d.model.declared.instanceMember? d.model.registry owner name).getD .unknown ∧
    ∀ m ∈ d.model.members owner, m.kind.isData = true → m.name = name →
      (∀ home type, d.model.registry.shape? owner = some (.named home type []) →
        d.model.typeAt? ⟨.memberAccess, span⟩ = some m.type) ∧
      (d.model.isStructural owner = true →
        (d.model.typeAt? ⟨.memberAccess, span⟩).getD .unknown = .unknown) := by
  rcases Document.parse_eq_ok hd with ⟨_, hleaves, _, hmodel, parsed, hparsed, htree, _⟩
  rcases Grammar.kind_parseLexemes hparsed with ⟨children, hroot⟩
  have hanchored := Grammar.anchored_parseLexemes hparsed
  rw [← htree] at hroot hanchored
  have hpos : ∀ x ∈ d.tree.leaves, 0 < x.width := hleaves ▸ Syntax.pos_of_mem_lex source
  rw [hmodel] at howner ⊢
  have haccess := Model.typeAt?_access hanchored hpos hroot hvisited hcalled howner
  refine ⟨?general, fun m hm hdata hname => ⟨fun home type hshape => ?declared, fun hanonymous =>
    ?anonymous⟩⟩
  case general =>
    cases hmember : (Model.ofTree d.tree).1.declared.instanceMember?
        (Model.ofTree d.tree).1.registry owner name with
    | none => exact haccess.2 hmember
    | some type => rw [haccess.1 type hmember]
  case declared =>
    have hnames := DeclaredTypes.nodup_collect (Program.SourceFile.ofTree d.tree)
      Types.Registry.isReady_initial
    refine haccess.1 m.type ?_
    rw [DeclaredTypes.instanceMember?, ← hname, Model.member?_of_mem_members hnames hshape hm hdata]
  case anonymous =>
    rcases (Option.any_eq_true _ _).mp hanonymous with ⟨shape, hshape, hanonymous⟩
    refine haccess.2 ?_
    cases shape with
    | anonymous fields =>
        rw [DeclaredTypes.instanceMember?, DeclaredTypes.member?, DeclaredTypes.ofType?, hshape]
        dsimp only [Option.bind_none]
        rw [Types.Catalogue.instanceMember?, hshape]
        dsimp only
        rw [Types.Catalogue.find?, hshape]
        rfl
    | _ => cases hanonymous

/-- Of two accesses to a member that is listed, the one to a declared type has the type of the
    member, and the one to an anonymous type has no type. -/
theorem accesses_typed_as_declared_both :
    ∃ source d span span' receiver receiver' name name' owner owner' m m', source =
        "class P { int A; void M(P p) { var a = new { A = 1 }; var x = p.A; var y = a.A; } }"
      ∧ Document.parse source = .ok d
      ∧ .member span receiver (some name)
        ∈ Program.visitedOfItems (Program.SourceFile.ofTree d.tree).items
      ∧ .member span' receiver' (some name')
        ∈ Program.visitedOfItems (Program.SourceFile.ofTree d.tree).items
      ∧ receiver.key?.bind d.model.typeAt? = some owner
      ∧ receiver'.key?.bind d.model.typeAt? = some owner'
      ∧ m ∈ d.model.members owner ∧ m' ∈ d.model.members owner' ∧ m.name = name ∧ m'.name = name'
      ∧ m.type = .primitive .int ∧ m'.type = .primitive .int
      ∧ d.model.typeAt? ⟨.memberAccess, span⟩ = some m.type
      ∧ (d.model.typeAt? ⟨.memberAccess, span'⟩).getD .unknown = .unknown := by
  generalize hsource :
    "class P { int A; void M(P p) { var a = new { A = 1 }; var x = p.A; var y = a.A; } }" = source
  have hok : ((Document.parse source).toOption.any fun d =>
      (Program.visitedOfItems (Program.SourceFile.ofTree d.tree).items).all
        (fun e => e.kind != .call) &&
      (Program.visitedOfItems (Program.SourceFile.ofTree d.tree).items).any fun e =>
        (Program.visitedOfItems (Program.SourceFile.ofTree d.tree).items).any fun e' =>
          e.access?.any fun a => e'.access?.any fun a' =>
            (a.1.key?.bind d.model.typeAt?).any fun owner =>
              (a'.1.key?.bind d.model.typeAt?).any fun owner' =>
                (d.model.members owner).any fun m => (d.model.members owner').any fun m' =>
                  m.kind.isData && m.name == a.2 && m.type == .primitive .int
                    && m'.kind.isData && m'.name == a'.2 && m'.type == .primitive .int
                    && d.model.registry.shape? owner == some (.named [] "P" [])
                    && d.model.isStructural owner') = true := by
    rw [← hsource]
    decide +kernel
  rcases (Option.any_eq_true _ _).mp hok with ⟨d, hd, hall⟩
  rw [Bool.and_eq_true, List.all_eq_true] at hall
  rcases hall with ⟨hplain, hany⟩
  have hcalled : ∀ e, ¬ Typing.IsCalled e
      (Program.visitedOfItems (Program.SourceFile.ofTree d.tree).items) := by
    rintro e ⟨span, args, hmem⟩
    cases hplain _ hmem
  rcases List.any_eq_true.mp hany with ⟨e, he, hany⟩
  rcases List.any_eq_true.mp hany with ⟨e', he', hboth⟩
  rcases (Option.any_eq_true _ _).mp hboth with ⟨⟨receiver, name⟩, haccess, hboth⟩
  rcases (Option.any_eq_true _ _).mp hboth with ⟨⟨receiver', name'⟩, haccess', hboth⟩
  rcases (Option.any_eq_true _ _).mp hboth with ⟨owner, howner, hboth⟩
  rcases (Option.any_eq_true _ _).mp hboth with ⟨owner', howner', hboth⟩
  rcases List.any_eq_true.mp hboth with ⟨m, hm, hboth⟩
  rcases List.any_eq_true.mp hboth with ⟨m', hm', hboth⟩
  simp only [Bool.and_eq_true, beq_iff_eq] at hboth
  rcases hboth with
    ⟨⟨⟨⟨⟨⟨⟨hdata, hname⟩, htype⟩, hdata'⟩, hname'⟩, htype'⟩, hshape⟩, hanonymous⟩
  rcases Program.Expr.access?_eq_some.mp haccess with ⟨span, rfl⟩
  rcases Program.Expr.access?_eq_some.mp haccess' with ⟨span', rfl⟩
  cases hparse : Document.parse source with
  | error failure =>
      rw [hparse] at hd
      cases hd
  | ok d' =>
      rw [hparse] at hd
      cases hd
      have hfirst := (accesses_typed_as_declared hparse he (hcalled _) howner).2 m hm hdata hname
      have hsecond :=
        (accesses_typed_as_declared hparse he' (hcalled _) howner').2 m' hm' hdata' hname'
      exact ⟨source, d, span, span', receiver, receiver', name, name', owner, owner', m, m', rfl,
        hparse, he, he', howner, howner', hm, hm', hname, hname', htype, htype',
        hfirst.1 _ _ hshape, hsecond.2 hanonymous⟩

end Nominal
