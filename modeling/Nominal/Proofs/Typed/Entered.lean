import Nominal.Proofs.Typed.Filed
import Nominal.Proofs.Typed.Registered

/-!
# Where Expressions Are Examined

An expression is examined at one moment of typing, and what it refers to depends on what is known
then: the variables around, the type in sight, the types that are registered. Whatever a step of
typing comes across is examined at such a moment, apart from what is called, of which only the
receiver is examined. The moment cuts the step in two, and what comes before and after has shares of
its own in what the step comes across. So if no expression is come across twice, nothing is filed for
it except at its own moment.

At every moment all types that typing goes on with are registered. This makes what is known of a
type then what is known of it in the end.

## Main definitions

* `TypingState.IsReady`: All types that typing goes on with are registered.
* `Advances`: What one step may do to what is known.
* `Entered`: An expression is examined at some moment of a step.
* `Steps`: A step that keeps types registered and examines what it comes across.

## Theorems

* `Steps.bind`: Steps in a row are such a step.
* `Steps.completes`: Examining an expression is one.
* `Steps.typeStmt`, `Steps.typeItems`: So is typing a statement, and typing items.
* `moves_typeFile`: What a file consists of is examined while the file is typed.
-/

namespace Nominal

namespace Typing

open Nominal.Types (TypeId Registry DeclaredTypes Shape Field)
open Program

/-- All types that typing goes on with are registered. -/
structure TypingState.IsReady (declared : DeclaredTypes) (s : TypingState) : Prop where
  registry : s.registry.IsReady
  declared : declared.IsRegistered s.registry
  records : ∀ r ∈ s.records, s.registry.IsRegistered r.2
  thisType : ∀ t, s.thisType = some t → s.registry.IsRegistered t
  scopes : ∀ scope ∈ s.scopes, ∀ v ∈ scope, s.registry.IsRegistered v.2

/-- What an expression refers to is registered, if it is a type or has one. -/
def Referent.IsRegistered (r : Registry) : Referent → Prop
  | .value t | .type t => r.IsRegistered t
  | .namespacePath _ | .nothing => True

/-- The type that a called method is looked up on is registered. -/
def Callee.IsRegistered (r : Registry) : Callee → Prop
  | .instanceMethod owner _ | .staticMethod owner _ => r.IsRegistered owner
  | .own _ | .unknown => True

/-- What is known before a step and after it, if the step comes across some expressions. -/
structure Advances (es : List Expr) (s s' : TypingState) : Prop where
  grows : s.registry.Grows s'.registry
  filed : ∃ new, s'.records = new ++ s.records ∧
    ∀ key : NodeKey, key.kind ≠ .lambdaParam → key.kind ≠ .varDeclarator →
      timesFiled key new ≤ timesVisited key es

/-- An expression is examined at a moment of a step, and perhaps settled. -/
def Entered (declared : DeclaredTypes) (e : Expr) (es : List Expr) (s t s' : TypingState) : Prop :=
  ∃ before after t', es = before ++ (e.visited ++ after) ∧ Advances before s t ∧
    t.IsReady declared ∧
    (t' = (examine declared e t).2 ∨ t' = ((examine declared e >>= settle e) t).2) ∧
    Advances after t' s'

/-- An expression is what some call calls. -/
def IsCalled (e : Expr) (es : List Expr) : Prop := ∃ span args, .call span e args ∈ es

/-- What is known before a step and after it, if the step keeps types registered and some of the
    expressions that it comes across are examined or called. -/
structure Moves (declared : DeclaredTypes) (es examined : List Expr) (s s' : TypingState) : Prop
    extends Advances es s s' where
  ready : s'.IsReady declared
  /-- A lambda among the arguments of a query is typed otherwise. -/
  entered : ∀ e ∈ examined, (e.kind == .lambda) = false →
    IsCalled e es ∨ ∃ t, Entered declared e es s t s'

/-- A step that does so, and what holds of its answer then. -/
def Steps (declared : DeclaredTypes) {α : Type} (es examined : List Expr) (s : TypingState)
    (c : TypingM α) (Q : α → Registry → Prop) : Prop :=
  Moves declared es examined s (c s).2 ∧ Q (c s).1 (c s).2.registry

variable {declared : DeclaredTypes} {α β : Type} {es es' fs fs' : List Expr} {e : Expr}
  {s s' s'' t : TypingState}

namespace Advances

theorem refl (s : TypingState) : Advances [] s s :=
  ⟨.refl _, [], rfl, fun _ _ _ => Nat.le_refl 0⟩

theorem trans (h : Advances es s s') (h' : Advances fs s' s'') : Advances (es ++ fs) s s'' := by
  rcases h with ⟨hgrows, new, hnew, hcount⟩
  rcases h' with ⟨hgrows', new', hnew', hcount'⟩
  refine ⟨hgrows.trans hgrows', new' ++ new, ?_, fun key hparam hvariable => ?_⟩
  · rw [hnew', hnew, List.append_assoc]
  · have hfirst := hcount key hparam hvariable
    have hnext := hcount' key hparam hvariable
    rw [timesFiled] at hfirst hnext ⊢
    rw [List.countP_append, timesVisited_append]
    omega

/-- Nothing need be filed for what is come across. -/
theorem more (h : Advances es s s') (fs : List Expr) : Advances (es ++ fs) s s' := by
  refine ⟨h.grows, ?_⟩
  rcases h.filed with ⟨new, hnew, hcount⟩
  refine ⟨new, hnew, fun key hparam hvariable => ?_⟩
  rw [timesVisited_append]
  exact Nat.le_add_right_of_le (hcount key hparam hvariable)

/-- Nothing is filed. -/
theorem quiet (hgrows : s.registry.Grows s'.registry) (hrecords : s'.records = s.records) :
    Advances [] s s' := ⟨hgrows, [], hrecords, fun _ _ _ => Nat.le_refl 0⟩

end Advances

namespace Entered

/-- What is examined in the first of two steps is examined. -/
theorem before (h : Entered declared e es s t s') (h' : Advances fs s' s'') :
    Entered declared e (es ++ fs) s t s'' := by
  rcases h with ⟨before, after, t', rfl, hbefore, ht, ht', hafter⟩
  refine ⟨before, after ++ fs, t', ?_, hbefore, ht, ht', hafter.trans h'⟩
  rw [List.append_assoc, List.append_assoc]

theorem after (h : Advances es s s') (h' : Entered declared e fs s' t s'') :
    Entered declared e (es ++ fs) s t s'' := by
  rcases h' with ⟨before, after, t', rfl, hbefore, ht, ht', hafter⟩
  exact ⟨es ++ before, after, t', (List.append_assoc _ _ _).symm, h.trans hbefore, ht, ht', hafter⟩

end Entered

theorem IsCalled.mono (h : IsCalled e es) (hsub : es ⊆ fs) : IsCalled e fs := by
  rcases h with ⟨span, args, hmem⟩
  exact ⟨span, args, hsub hmem⟩

namespace Moves

/-- Nothing is come across. -/
theorem quiet (h : Advances [] s s') (hready : s'.IsReady declared) : Moves declared [] [] s s' :=
  ⟨h, hready, List.forall_mem_nil _⟩

theorem trans (h : Moves declared es es' s s') (h' : Moves declared fs fs' s' s'') :
    Moves declared (es ++ fs) (es' ++ fs') s s'' := by
  refine ⟨h.toAdvances.trans h'.toAdvances, h'.ready, List.forall_mem_append.mpr ⟨?_, ?_⟩⟩
  · intro e he hkind
    exact (h.entered e he hkind).imp (fun hcalled => hcalled.mono (List.subset_append_left _ _))
      fun ⟨t, hentered⟩ => ⟨t, hentered.before h'.toAdvances⟩
  · intro e he hkind
    exact (h'.entered e he hkind).imp (fun hcalled => hcalled.mono (List.subset_append_right _ _))
      fun ⟨t, hentered⟩ => ⟨t, hentered.after h.toAdvances⟩

end Moves

namespace TypingState.IsReady

/-- Types stay registered when others are registered. -/
theorem register (hs : s.IsReady declared) {r : Registry} (hgrows : s.registry.Grows r)
    (hr : r.IsReady) : TypingState.IsReady declared { s with registry := r } where
  registry := hr
  declared := hs.declared.mono hgrows
  records x hx := hgrows.isRegistered (hs.records x hx)
  thisType t ht := hgrows.isRegistered (hs.thisType t ht)
  scopes scope hscope v hv := hgrows.isRegistered (hs.scopes scope hscope v hv)

/-- A registered type may be filed. -/
theorem file (hs : s.IsReady declared) {type : TypeId} (htype : s.registry.IsRegistered type)
    (key : NodeKey) : TypingState.IsReady declared { s with records := (key, type) :: s.records } :=
  { hs with records := List.forall_mem_cons.mpr ⟨htype, hs.records⟩ }

/-- A type in sight may change, and so may the variables. -/
theorem sight (hs : s.IsReady declared) {thisType : Option TypeId} {scopes : List Scope}
    (hthis : ∀ t, thisType = some t → s.registry.IsRegistered t)
    (hscopes : ∀ scope ∈ scopes, ∀ v ∈ scope, s.registry.IsRegistered v.2) :
    TypingState.IsReady declared { s with thisType := thisType, scopes := scopes } :=
  { hs with thisType := hthis, scopes := hscopes }

/-- The type of a value is registered. -/
theorem value? (hs : s.IsReady declared) {name : String} {t : TypeId}
    (ht : s.value? declared name = some t) : s.registry.IsRegistered t := by
  rw [TypingState.value?] at ht
  split at ht
  · next hlocal =>
      cases ht
      rcases List.exists_of_findSome?_eq_some hlocal with ⟨scope, hscope, hfound⟩
      rw [List.lookup_eq_some_iff] at hfound
      rcases hfound with ⟨front, back, rfl, _⟩
      exact hs.scopes _ hscope (_, _) (List.mem_append_right _ List.mem_cons_self)
  · rcases Option.bind_eq_some_iff.mp ht with ⟨owner, _, hmember⟩
    exact DeclaredTypes.isRegistered_member? hs.declared hmember

/-- What is filed is registered. -/
theorem typeOf? (hs : s.IsReady declared) {key : NodeKey} {t : TypeId}
    (ht : s.typeOf? key = some t) : s.registry.IsRegistered t := by
  rcases Option.map_eq_some_iff.mp ht with ⟨r, hr, rfl⟩
  exact hs.records r (List.mem_of_find?_eq_some hr)

end TypingState.IsReady

/-! ### Steps in a row -/

namespace Steps

variable {c : TypingM α} {f : α → TypingM β} {Q : α → Registry → Prop} {R : β → Registry → Prop}

theorem pure {a : α} (hs : s.IsReady declared) (ha : Q a s.registry) :
    Steps declared [] [] s (Pure.pure a) Q := ⟨.quiet (.refl s) hs, ha⟩

/-- Steps in a row are a step. -/
theorem bind_of (hc : Steps declared es es' s c Q)
    (hf : Steps declared fs fs' (c s).2 (f (c s).1) R) :
    Steps declared (es ++ fs) (es' ++ fs') s (c >>= f) R := ⟨hc.1.trans hf.1, hf.2⟩

/-- The second step may rely on what the first one answers being registered. -/
theorem bind (hc : Steps declared es es' s c Q)
    (hf : ∀ a s', s'.IsReady declared → s.registry.Grows s'.registry → Q a s'.registry →
      Steps declared fs fs' s' (f a) R) :
    Steps declared (es ++ fs) (es' ++ fs') s (c >>= f) R :=
  hc.bind_of (hf _ _ hc.1.ready hc.1.grows hc.2)

/-- A first step may come across nothing. -/
theorem first (hc : Steps declared [] [] s c Q)
    (hf : ∀ a s', s'.IsReady declared → s.registry.Grows s'.registry → Q a s'.registry →
      Steps declared fs fs' s' (f a) R) : Steps declared fs fs' s (c >>= f) R := hc.bind hf

/-- So may a last one. -/
theorem last (hc : Steps declared es es' s c Q)
    (hf : ∀ a s', s'.IsReady declared → s.registry.Grows s'.registry → Q a s'.registry →
      Steps declared [] [] s' (f a) R) : Steps declared es es' s (c >>= f) R := by
  have hboth := hc.bind hf
  rwa [List.append_nil, List.append_nil] at hboth

/-- Nothing may be examined in a last step. -/
theorem ends (hc : Steps declared es es' s c Q)
    (hf : ∀ a s', s'.IsReady declared → s.registry.Grows s'.registry → Q a s'.registry →
      Steps declared fs [] s' (f a) R) : Steps declared (es ++ fs) es' s (c >>= f) R := by
  have hboth := hc.bind hf
  rwa [List.append_nil] at hboth

/-- Looking at what is known does nothing. -/
theorem known {f : TypingState → TypingM β} (h : Steps declared es es' s (f s) R) :
    Steps declared es es' s (get >>= f) R := h

theorem imp {Q' : α → Registry → Prop} (h : Steps declared es es' s c Q)
    (hQ : ∀ a r, Q a r → Q' a r) : Steps declared es es' s c Q' := ⟨h.1, hQ _ _ h.2⟩

/-- Nothing need be filed for what is come across. -/
theorem more (h : Steps declared es es' s c Q) (fs : List Expr) :
    Steps declared (es ++ fs) es' s c Q := by
  have hnone : Moves declared fs [] (c s).2 (c s).2 :=
    ⟨(Advances.refl _).more fs, h.1.ready, List.forall_mem_nil _⟩
  have hboth := h.1.trans hnone
  rw [List.append_nil] at hboth
  exact ⟨hboth, h.2⟩

/-! ### Steps that come across nothing -/

theorem aside {g : TypingState → TypingState} (hregistry : (g s).registry = s.registry)
    (hrecords : (g s).records = s.records) (hready : (g s).IsReady declared) :
    Steps declared [] [] s (modify g) fun _ _ => True :=
  ⟨.quiet (.quiet (hregistry ▸ .refl _) hrecords) hready, trivial⟩

/-- A type is asked for. -/
theorem yields {t : TypeId} {r : Registry} {c : TypingM TypeId} (hs : s.IsReady declared)
    (hc : c s = (t, { s with registry := r })) (h : s.registry.Yields [t] r) :
    Steps declared [] [] s c fun t r => r.IsRegistered t := by
  rw [Steps, hc]
  exact ⟨.quiet (.quiet h.grows rfl) (hs.register h.grows h.ready), h.type⟩

theorem openScope (hs : s.IsReady declared) :
    Steps declared [] [] s openScope fun _ _ => True :=
  .aside rfl rfl (hs.sight hs.thisType (List.forall_mem_cons.mpr ⟨List.forall_mem_nil _, hs.scopes⟩))

theorem closeScope (hs : s.IsReady declared) :
    Steps declared [] [] s closeScope fun _ _ => True :=
  .aside rfl rfl (hs.sight hs.thisType fun scope hscope => hs.scopes scope (List.mem_of_mem_tail hscope))

theorem bindVariable (hs : s.IsReady declared) (name : Option String) {type : TypeId}
    (htype : s.registry.IsRegistered type) :
    Steps declared [] [] s (bindVariable name type) fun _ _ => True := by
  have hall := hs.scopes
  cases name with
  | none => exact .aside rfl rfl hs
  | some name =>
      cases hscopes : s.scopes with
      | nil =>
          refine .aside ?_ ?_ ?_
          all_goals simp only [hscopes]
          exact hs
      | cons scope scopes =>
          rw [hscopes, List.forall_mem_cons] at hall
          refine .aside ?_ ?_ ?_
          all_goals simp only [hscopes]
          exact hs.sight hs.thisType
            (List.forall_mem_cons.mpr ⟨List.forall_mem_cons.mpr ⟨htype, hall.1⟩, hall.2⟩)

/-- The type of a parameter or a variable is filed. -/
theorem record (hs : s.IsReady declared) {kind : Syntax.Kind}
    (hkind : kind = .lambdaParam ∨ kind = .varDeclarator) (span : Text.Span) {type : TypeId}
    (htype : s.registry.IsRegistered type) :
    Steps declared [] [] s (record kind span type) fun _ _ => True := by
  refine ⟨.quiet ⟨.refl _, [(⟨kind, span⟩, type)], rfl, fun key hparam hvariable => Nat.le_of_eq ?_⟩
    (hs.file htype _), trivial⟩
  -- Parameters and variables have kinds of their own.
  rw [timesFiled, List.countP_singleton, if_neg]
  · rfl
  · rw [beq_iff_eq]
    rintro rfl
    exact hkind.elim hparam hvariable

/-- The type of an expression is filed. -/
theorem file (hs : s.IsReady declared) {span : Text.Span} (hspan : e.span? = some span)
    {type : TypeId} (htype : s.registry.IsRegistered type) :
    Steps declared [e] [] s (Typing.record e.kind span type) fun _ _ => True := by
  rcases Files.file hspan type s with ⟨new, hnew, hcount⟩
  exact ⟨⟨⟨.refl _, new, hnew, hcount⟩, hs.file htype _, List.forall_mem_nil _⟩, trivial⟩

theorem recordValue (hs : s.IsReady declared) (e : Expr) {type : TypeId}
    (htype : s.registry.IsRegistered type) :
    Steps declared [e] [] s (recordValue e type) fun r reg => r.IsRegistered reg := by
  rw [Typing.recordValue]
  split
  · next span hspan =>
      exact (Steps.file hs hspan htype).last fun _ s' hs' hgrows _ =>
        .pure hs' (hgrows.isRegistered htype)
  · exact Steps.more (.pure hs trivial) [e]

/-- A lambda among the arguments of a query is filed without being examined. -/
theorem lambda (hs : s.IsReady declared) (span : Text.Span) (params : List LambdaParam) {body : Body} :
    Steps declared [.lambda span params body] [.lambda span params body] s
      (Typing.record .lambda span .lambda) fun _ _ => True := by
  have hlambda : s.registry.IsRegistered .lambda := hs.registry.fixed (by decide)
  have hfile := Steps.file (e := .lambda span params body) hs rfl hlambda
  exact ⟨⟨hfile.1.toAdvances, hfile.1.ready, List.forall_mem_singleton.mpr nofun⟩, trivial⟩

theorem settle (hs : s.IsReady declared) (e : Expr) {referent : Referent}
    (hreferent : referent.IsRegistered s.registry) :
    Steps declared [e] [] s (settle e referent) fun t r => r.IsRegistered t := by
  rw [Typing.settle.eq_def]
  split
  · exact Steps.more (.pure hs hreferent) [e]
  · next span _ hspan =>
      exact (Steps.file hs hspan hs.registry.unknown).last fun _ s' hs' _ _ =>
        .pure hs' hs'.registry.unknown
  · exact Steps.more (.pure hs hs.registry.unknown) [e]

/-- A shape of registered parts is registered. -/
theorem internShape (hs : s.IsReady declared) {q : Types.Request}
    (hq : q.answer s.registry = s.registry.intern q.shape)
    (hparts : ∀ part ∈ q.shape.parts, s.registry.IsRegistered part) :
    Steps declared [] [] s (internShape q.shape) fun t r => r.IsRegistered t := by
  have hanswer := Registry.yields_answer hs.registry q hparts
  rw [hq] at hanswer
  exact .yields hs rfl hanswer

theorem internArray (hs : s.IsReady declared) {element : TypeId}
    (helement : s.registry.IsRegistered element) :
    Steps declared [] [] s (Typing.internShape (.array element)) fun t r => r.IsRegistered t :=
  .internShape (q := .array element) hs rfl (List.forall_mem_singleton.mpr helement)

/-- A type that the library tells is asked for, if there is one. -/
theorem internDerived? (hs : s.IsReady declared) {derived : Option Types.Derived}
    (hlibrary : ∀ d, derived = some d → d.IsOfLibrary)
    (hparts : ∀ d, derived = some d → ∀ t ∈ d.parts, s.registry.IsRegistered t) :
    Steps declared [] [] s (internDerived? derived) fun o r => ∀ t ∈ o, r.IsRegistered t := by
  cases derived with
  | none => exact .pure hs nofun
  | some d =>
      have hintern : Steps declared [] [] s (internDerived d) fun t r => r.IsRegistered t :=
        .yields hs rfl (Types.Derived.yields_intern hs.registry (hlibrary d rfl) (hparts d rfl))
      exact hintern.last fun t s' hs' _ ht => .pure hs' fun _ hmem =>
        Option.mem_some.mp hmem ▸ ht

theorem resolveType (hs : s.IsReady declared) (type : TypeRef) :
    Steps declared [] [] s (resolveType declared type) fun t r => r.IsRegistered t :=
  .yields hs rfl (DeclaredTypes.yields_resolve hs.registry type)

theorem resolveName (hs : s.IsReady declared) (segments : List String) :
    Steps declared [] [] s (resolveName declared segments) fun t r => r.IsRegistered t :=
  .yields hs rfl (DeclaredTypes.yields_resolvePath hs.registry segments (List.forall_mem_nil _))

theorem examineInNamespace (hs : s.IsReady declared) (path : Types.Namespace) (name : String) :
    Steps declared [] [] s (examineInNamespace declared path name) fun r reg => r.IsRegistered reg := by
  rw [Typing.examineInNamespace]
  refine (Steps.resolveName hs _).first fun t s' hs' _ ht => ?_
  split
  · exact .pure hs' ht
  · split
    · exact .pure hs' trivial
    · exact .pure hs' trivial

theorem instanceMemberType (hs : s.IsReady declared) {owner : TypeId}
    (howner : s.registry.IsRegistered owner) (name : String) :
    Steps declared [] [] s (instanceMemberType declared owner name)
      fun o r => ∀ t ∈ o, r.IsRegistered t := by
  refine .known ?_
  dsimp only
  split
  · next t ht =>
      exact .pure hs fun _ hmem =>
        DeclaredTypes.isRegistered_member? hs.declared (Option.mem_some.mp hmem ▸ ht)
  · exact .internDerived? hs (fun _ => Types.Catalogue.isOfLibrary_instanceMember?)
      fun _ => Types.Catalogue.isRegistered_instanceMember? hs.registry howner

theorem staticMemberType (hs : s.IsReady declared) {owner : TypeId}
    (howner : s.registry.IsRegistered owner) (name : String) :
    Steps declared [] [] s (staticMemberType declared owner name)
      fun o r => ∀ t ∈ o, r.IsRegistered t := by
  refine .known ?_
  dsimp only
  split
  · next t ht =>
      exact .pure hs fun _ hmem =>
        DeclaredTypes.isRegistered_member? hs.declared (Option.mem_some.mp hmem ▸ ht)
  · exact .internDerived? hs (fun _ => Types.Catalogue.isOfLibrary_staticMember?)
      fun _ => Types.Catalogue.isRegistered_staticMember? hs.registry howner

/-- What is not there has the unknown type. -/
theorem getD {c : TypingM (Option TypeId)}
    (hc : Steps declared es es' s c fun o r => ∀ t ∈ o, r.IsRegistered t) :
    Steps declared es es' s (do return (← c).getD .unknown) fun t r => r.IsRegistered t := by
  refine hc.last fun o s' hs' _ ho => .pure hs' ?_
  cases o with
  | none => exact hs'.registry.unknown
  | some t => exact ho t rfl

/-- A method is looked up on a type that is registered. -/
theorem calleeType (hs : s.IsReady declared) {callee : Callee}
    (hcallee : callee.IsRegistered s.registry) :
    Steps declared [] [] s (calleeType declared callee) fun t r => r.IsRegistered t := by
  cases callee with
  | instanceMethod owner name =>
      refine .known ?_
      dsimp only
      split
      · next t ht => exact .pure hs (DeclaredTypes.isRegistered_method? hs.declared ht)
      · exact .getD (.internDerived? hs (fun _ => Types.Catalogue.isOfLibrary_instanceMethod?)
          fun _ => Types.Catalogue.isRegistered_instanceMethod? hs.registry hcallee)
  | staticMethod owner name =>
      refine .known ?_
      dsimp only
      split
      · next t ht => exact .pure hs (DeclaredTypes.isRegistered_method? hs.declared ht)
      · exact .getD (.internDerived? hs (fun _ => Types.Catalogue.isOfLibrary_staticMethod?)
          fun _ => Types.Catalogue.isRegistered_staticMethod? hs.registry hcallee)
  | own token =>
      refine .known ?_
      split
      · next l t _ =>
          refine .pure hs ?_
          cases hmethod : declared.method? s.registry t l.text with
          | none => exact hs.registry.unknown
          | some t => exact DeclaredTypes.isRegistered_method? hs.declared hmethod
      · exact .pure hs hs.registry.unknown
  | unknown => exact .pure hs hs.registry.unknown

theorem bindParams (hs : s.IsReady declared) {types : List TypeId}
    (htypes : ∀ t ∈ types, s.registry.IsRegistered t) (params : List LambdaParam) :
    Steps declared [] [] s (bindParams types params) fun _ _ => True := by
  induction params generalizing types s with
  | nil => exact .pure hs trivial
  | cons p ps ih =>
      have hhead : s.registry.IsRegistered (types.head?.getD .unknown) := by
        cases types with
        | nil => exact hs.registry.unknown
        | cons t types => exact htypes t List.mem_cons_self
      refine (Steps.record hs (.inl rfl) p.span hhead).first fun _ s' hs' hgrows _ => ?_
      refine (Steps.bindVariable hs' p.name (hgrows.isRegistered hhead)).first
        fun _ s'' hs'' hgrows' _ => ih hs'' fun t ht => ?_
      exact (hgrows.trans hgrows').isRegistered (htypes t (List.mem_of_mem_tail ht))

theorem bindMethodParams (hs : s.IsReady declared) (params : List Param) :
    Steps declared [] [] s (bindMethodParams declared params) fun _ _ => True := by
  induction params generalizing s with
  | nil => exact .pure hs trivial
  | cons p ps ih =>
      refine (Steps.resolveType hs p.type).first fun t s' hs' _ ht => ?_
      exact (Steps.bindVariable hs' p.name ht).first fun _ s'' hs'' _ _ => ih hs''

theorem returnedType (hs : s.IsReady declared) (stmts : List Stmt) :
    Steps declared [] [] s (returnedType stmts) fun t r => r.IsRegistered t := by
  refine .known ?_
  split
  · exact .pure hs hs.registry.unknown
  · next e _ =>
      cases htype : e.span?.bind fun span => s.typeOf? ⟨e.kind, span⟩ with
      | none => exact .pure hs hs.registry.unknown
      | some t =>
          rcases Option.bind_eq_some_iff.mp htype with ⟨span, _, ht⟩
          exact .pure hs (hs.typeOf? ht)

theorem arrayOfElements (hs : s.IsReady declared) {types : List TypeId}
    (htypes : ∀ t ∈ types, s.registry.IsRegistered t) :
    Steps declared [] [] s (arrayOfElements types) fun t r => r.IsRegistered t := by
  rw [Typing.arrayOfElements]
  split
  · next hfound => exact .internArray hs (htypes _ (List.mem_of_find?_eq_some hfound))
  · exact .pure hs hs.registry.unknown

theorem arrayOfType (hs : s.IsReady declared) (type : TypeRef) (isSized : Bool) :
    Steps declared [] [] s (arrayOfType declared type isSized) fun t r => r.IsRegistered t := by
  refine (Steps.resolveType hs type).first fun t s' hs' _ ht => ?_
  split
  · split
    · exact .pure hs' hs'.registry.unknown
    · exact .internArray hs' ht
  · exact .pure hs' ht

/-- A member with a registered type is added, or a mistake is reported. -/
theorem addAnonymousMember (hs : s.IsReady declared) {found : AnonymousMembers}
    (hfound : ∀ f ∈ found.fields, s.registry.IsRegistered f.type) (m : AnonMember) {type : TypeId}
    (htype : s.registry.IsRegistered type) :
    Steps declared [] [] s (addAnonymousMember found m type)
      fun found r => ∀ f ∈ found.fields, r.IsRegistered f.type := by
  have hreport : ∀ kind detail, Steps declared [] [] s (do
      reportMember kind m.span detail
      return { found with valid := false })
        fun found r => ∀ f ∈ found.fields, r.IsRegistered f.type := fun kind detail =>
    (Steps.aside rfl rfl { hs with }).first fun _ s' hs' hgrows _ =>
      .pure hs' fun f hf => hgrows.isRegistered (hfound f hf)
  rw [Typing.addAnonymousMember]
  split
  · exact hreport _ _
  · split
    · exact hreport _ _
    · exact .pure hs (List.forall_mem_append.mpr ⟨hfound, List.forall_mem_singleton.mpr htype⟩)

end Steps

/-! ### Expressions that are settled -/

/-- Whatever is done with an expression after it has been examined, the expressions inside it are
    examined or called: nothing comes across the expression again if it refers to a value. -/
def Completes (declared : DeclaredTypes) (e : Expr) : Prop :=
  ∀ {s : TypingState} {β : Type} {finish : Referent → TypingM β} {R : β → Registry → Prop},
    s.IsReady declared →
    (∀ t s', s'.IsReady declared → s'.registry.IsRegistered t →
      Steps declared [] [] s' (finish (.value t)) R) →
    (∀ r s', s'.IsReady declared → r.IsRegistered s'.registry →
      Steps declared [e] [] s' (finish r) R) →
    Steps declared e.visited e.within s (examine declared e >>= finish) R

/-- The arguments of a query are typed with all that is visited in them. -/
def QueriesArgs (declared : DeclaredTypes) (args : List Expr) : Prop :=
  ∀ {s : TypingState} {element : TypeId}, s.IsReady declared → s.registry.IsRegistered element →
    Steps declared (visitedOf args) (visitedOf args) s (typeQueryArgs declared element args)
      fun o r => ∀ t ∈ o, r.IsRegistered t

/-- So are expressions from left to right. -/
def TypesArgs (declared : DeclaredTypes) (es : List Expr) : Prop :=
  ∀ {s : TypingState}, s.IsReady declared →
    Steps declared (visitedOf es) (visitedOf es) s (typeExprs declared es)
      fun ts r => ∀ t ∈ ts, r.IsRegistered t

namespace Steps

section Settled

variable {finish : Referent → TypingM β} {f : TypeId → TypingM β} {R : β → Registry → Prop}

/-- A name is filed when it is examined or later on. -/
theorem examineName (hs : s.IsReady declared) (span : Text.Span) (token : Option Syntax.Lexeme)
    (hvalue : ∀ t s', s'.IsReady declared → s'.registry.IsRegistered t →
      Steps declared [] [] s' (finish (.value t)) R)
    (hother : ∀ r s', s'.IsReady declared → r.IsRegistered s'.registry →
      Steps declared [.name span token] [] s' (finish r) R) :
    Steps declared [.name span token] [] s (examineName declared span token >>= finish) R := by
  have hfile : ∀ t, s.registry.IsRegistered t → Steps declared [.name span token] [] s
      (Typing.record .nameRef span t >>= fun _ => finish (.value t)) R := fun t ht =>
    (Steps.file (e := .name span token) hs rfl ht).last fun _ s' hs' hgrows _ =>
      hvalue t s' hs' (hgrows.isRegistered ht)
  rw [Typing.examineName.eq_def]
  split
  · exact hother _ s hs trivial
  · split
    · split
      · exact hother _ s hs (hs.registry.primitive _)
      · exact hother _ s hs trivial
    · rw [bind_assoc]
      refine .known ?_
      split
      · next t ht => exact hfile t (hs.value? ht)
      · rw [bind_assoc]
        refine (Steps.resolveName hs _).first fun t s' hs' _ ht => ?_
        split
        · exact hother _ s' hs' ht
        · split
          · exact hother _ s' hs' trivial
          · exact hother _ s' hs' trivial

/-- So is a member, once its receiver has been examined. -/
theorem examineMember (hs : s.IsReady declared) {span : Text.Span} {e : Expr} {referent : Referent}
    (hreferent : referent.IsRegistered s.registry) (name : String)
    (hvalue : ∀ t s', s'.IsReady declared → s'.registry.IsRegistered t →
      Steps declared [] [] s' (finish (.value t)) R)
    (hother : ∀ r s', s'.IsReady declared → r.IsRegistered s'.registry →
      Steps declared [.member span e (some name)] [] s' (finish r) R) :
    Steps declared [.member span e (some name)] [] s
      (examineMember declared span referent name >>= finish) R := by
  -- What is found is filed, and nothing is filed if nothing is found.
  have hfiled : ∀ (t : TypeId) (s' : TypingState), s'.IsReady declared →
      s'.registry.IsRegistered t → Steps declared [.member span e (some name)] [] s'
        ((do
          Typing.record .memberAccess span t
          return .value t : TypingM Referent) >>= finish) R := by
    intro t s' hs' ht
    have hfile := Steps.file (e := .member span e (some name)) hs' rfl ht
    exact hfile.last fun _ s'' hs'' hgrows _ => hvalue t s'' hs'' (hgrows.isRegistered ht)
  cases referent with
  | namespacePath path =>
      exact (Steps.examineInNamespace hs path name).first fun r s' hs' _ hr => hother r s' hs' hr
  | type owner =>
      rw [Typing.examineMember, bind_assoc]
      refine (Steps.staticMemberType hs hreferent name).first fun o s' hs' _ ho => ?_
      cases o with
      | none => exact hother _ s' hs' trivial
      | some t => exact hfiled t s' hs' (ho t rfl)
  | value owner =>
      rw [Typing.examineMember, bind_assoc]
      refine (Steps.instanceMemberType hs hreferent name).first fun o s' hs' _ ho => ?_
      cases o with
      | none => exact hother _ s' hs' trivial
      | some t => exact hfiled t s' hs' (ho t rfl)
  | nothing => exact hother _ s hs trivial

/-- An expression that refers to a value is not come across again. -/
theorem valued (hkind : [Syntax.Kind.memberAccess, .nameRef, .error].contains e.kind = false)
    (h : ∀ {s : TypingState}, s.IsReady declared →
      Steps declared e.visited e.within s (Typing.examine declared e)
        fun r reg => r.IsRegistered reg) : Completes declared e := by
  intro s β finish R hs hvalue _
  have hexamined := h hs
  have hfinish : Steps declared [] [] (Typing.examine declared e s).2
      (finish (Typing.examine declared e s).1) R := by
    have hanswers : Answers (Typing.examine declared e) fun r => ∃ t, r = .value t :=
      answers_examine hkind
    rcases hanswers s with ⟨t, ht⟩
    have hanswer := hexamined.2
    rw [ht] at hanswer ⊢
    exact hvalue t _ hexamined.1.ready hanswer
  have hboth := hexamined.bind_of hfinish
  rwa [List.append_nil, List.append_nil] at hboth

/-- An expression is examined with all that is visited in it. -/
theorem examined (h : Completes declared e) (hs : s.IsReady declared) :
    Steps declared e.visited e.visited s (Typing.examine declared e)
      fun r reg => r.IsRegistered reg := by
  have hparts : Steps declared e.visited e.within s (Typing.examine declared e >>= Pure.pure)
      fun r reg => r.IsRegistered reg :=
    h hs (fun t s' hs' ht => .pure hs' ht) fun r s' hs' hr => (Steps.pure hs' hr).more [e]
  rw [bind_pure] at hparts
  refine ⟨⟨hparts.1.toAdvances, hparts.1.ready, List.forall_mem_append.mpr ⟨hparts.1.entered, ?_⟩⟩,
    hparts.2⟩
  refine List.forall_mem_singleton.mpr fun _ =>
    .inr ⟨s, [], [], _, ?_, .refl s, hs, .inl rfl, .refl _⟩
  rw [List.nil_append, List.append_nil]

/-- What is inside an expression is examined or called when the expression is settled. -/
theorem settledWithin (h : Completes declared e) (hs : s.IsReady declared) :
    Steps declared e.visited e.within s (Typing.examine declared e >>= Typing.settle e)
      fun t reg => reg.IsRegistered t :=
  h hs (fun _ _ hs' ht => .pure hs' ht) fun _ _ hs' hr => .settle hs' e hr

/-- The expression itself is examined then, too. -/
theorem settled (h : Completes declared e) (hs : s.IsReady declared) :
    Steps declared e.visited e.visited s (Typing.examine declared e >>= Typing.settle e)
      fun t reg => reg.IsRegistered t := by
  have hparts := settledWithin h hs
  refine ⟨⟨hparts.1.toAdvances, hparts.1.ready, List.forall_mem_append.mpr ⟨hparts.1.entered, ?_⟩⟩,
    hparts.2⟩
  refine List.forall_mem_singleton.mpr fun _ =>
    .inr ⟨s, [], [], _, ?_, .refl s, hs, .inr rfl, .refl _⟩
  rw [List.nil_append, List.append_nil]

/-- An expression is typed before what comes next. -/
theorem typed (h : Completes declared e) (hs : s.IsReady declared)
    (hf : ∀ t s', s'.IsReady declared → s.registry.Grows s'.registry → s'.registry.IsRegistered t →
      Steps declared fs fs' s' (f t) R) :
    Steps declared (e.visited ++ fs) (e.visited ++ fs') s
      (Typing.examine declared e >>= fun r => Typing.settle e r >>= f) R := by
  rw [← bind_assoc]
  exact (Steps.settled h hs).bind hf

/-- Nothing may be examined in what comes next. -/
theorem typedEnds (h : Completes declared e) (hs : s.IsReady declared)
    (hf : ∀ t s', s'.IsReady declared → s.registry.Grows s'.registry → s'.registry.IsRegistered t →
      Steps declared fs [] s' (f t) R) :
    Steps declared (e.visited ++ fs) e.visited s
      (Typing.examine declared e >>= fun r => Typing.settle e r >>= f) R := by
  rw [← bind_assoc]
  exact (Steps.settled h hs).ends hf

theorem typedLast (h : Completes declared e) (hs : s.IsReady declared)
    (hf : ∀ t s', s'.IsReady declared → s.registry.Grows s'.registry → s'.registry.IsRegistered t →
      Steps declared [] [] s' (f t) R) :
    Steps declared e.visited e.visited s
      (Typing.examine declared e >>= fun r => Typing.settle e r >>= f) R := by
  rw [← bind_assoc]
  exact (Steps.settled h hs).last hf

/-- The expressions inside a call are examined or called. -/
theorem ofCall {c : TypingM α} {Q : α → Registry → Prop} {span : Text.Span} {callee : Expr}
    {args : List Expr} (h : Steps declared (callee.visited ++ (visitedOf args ++
      [.call span callee args])) (callee.within ++ visitedOf args) s c Q) :
    Steps declared (Expr.call span callee args).visited (Expr.call span callee args).within s c Q := by
  have hvisited : (Expr.call span callee args).visited
      = callee.visited ++ (visitedOf args ++ [.call span callee args]) := List.append_assoc _ _ _
  rw [hvisited]
  refine ⟨⟨h.1.toAdvances, h.1.ready, ?_⟩, h.2⟩
  have hentered := List.forall_mem_append.mp h.1.entered
  refine List.forall_mem_append.mpr ⟨List.forall_mem_append.mpr ⟨hentered.1, ?_⟩, hentered.2⟩
  refine List.forall_mem_singleton.mpr fun _ => .inl ⟨span, args, ?_⟩
  exact List.mem_append_right _ (List.mem_append_right _ (List.mem_singleton_self _))

/-- A call types its arguments, whether it is a query or not. -/
theorem args {span : Text.Span} {callee : Expr} {args : List Expr}
    (hquery : QueriesArgs declared args) (hplain : TypesArgs declared args)
    (hs : s.IsReady declared) {target : Callee} (htarget : target.IsRegistered s.registry) :
    Steps declared (visitedOf args ++ [.call span callee args]) (visitedOf args) s (do
      let query := target.query? (← get).registry
      let t ←
        match query with
        | some (element, method) => do
          let projected ← typeQueryArgs declared element args
          let result := Types.Catalogue.query? method element projected
          Pure.pure ((← Typing.internDerived? result).getD .unknown)
        | none => do
          let _ ← typeExprs declared args
          Typing.calleeType declared target
      Typing.recordValue (.call span callee args) t) fun r reg => r.IsRegistered reg := by
  have hrecord : ∀ t s', s'.IsReady declared → s'.registry.IsRegistered t →
      Steps declared [.call span callee args] [] s' (Typing.recordValue (.call span callee args) t)
        fun r reg => r.IsRegistered reg :=
    fun t s' hs' ht => .recordValue hs' (.call span callee args) ht
  refine .known ?_
  dsimp only
  split
  · next element method hmethod =>
      have helement : s.registry.IsRegistered element := by
        cases target with
        | instanceMethod owner name =>
            rw [Callee.query?] at hmethod
            split at hmethod
            · cases hmethod
            · rcases Option.map_eq_some_iff.mp hmethod with ⟨found, hfound, heq⟩
              cases heq
              exact Types.Catalogue.isRegistered_elementType? hs.registry hfound
        | staticMethod | own | unknown => cases hmethod
      refine (hquery hs helement).ends fun projected s' hs' hgrows hprojected => ?_
      have hparts : ∀ d, Types.Catalogue.query? method element projected = some d →
          ∀ t ∈ d.parts, s'.registry.IsRegistered t := fun _ =>
        Types.Catalogue.isRegistered_query? hs'.registry (hgrows.isRegistered helement) hprojected
      have hresult := Steps.getD
        (.internDerived? hs' (fun _ => Types.Catalogue.isOfLibrary_query?) hparts)
      have hboth := hresult.first fun t s'' hs'' _ ht => hrecord t s'' hs'' ht
      rwa [bind_assoc] at hboth
  · refine (hplain hs).ends fun _ s' hs' hgrows _ => ?_
    have hcalled : target.IsRegistered s'.registry := by
      cases target with
      | instanceMethod | staticMethod => exact hgrows.isRegistered htarget
      | own | unknown => trivial
    exact (Steps.calleeType hs' hcalled).first fun t s'' hs'' _ ht => hrecord t s'' hs'' ht

/-- What is called is typed before the arguments, unless it is a name or a member. -/
theorem call {span : Text.Span} {callee : Expr} {args : List Expr}
    (hkind : [Syntax.Kind.memberAccess, .nameRef, .error].contains callee.kind = false)
    (hcallee : Completes declared callee) (hquery : QueriesArgs declared args)
    (hplain : TypesArgs declared args) (hs : s.IsReady declared) :
    Steps declared (callee.visited ++ (visitedOf args ++ [.call span callee args]))
      (callee.within ++ visitedOf args) s (Typing.examine declared (.call span callee args))
      fun r reg => r.IsRegistered reg := by
  rw [Typing.examine]
  · rw [← bind_assoc]
    exact (settledWithin hcallee hs).bind fun _ s' hs' _ _ =>
      Steps.first (Q := fun target r => target.IsRegistered r) (.pure hs' trivial)
        fun _ s'' hs'' _ htarget => .args hquery hplain hs'' htarget
  · rintro span receiver name rfl
    exact Bool.noConfusion hkind
  · rintro span token rfl
    exact Bool.noConfusion hkind
  · rintro rfl
    exact Bool.noConfusion hkind
  · rintro span receiver rfl
    exact Bool.noConfusion hkind

end Settled

/-! ### Expressions and statements -/

mutual

/-- All that is visited in an expression is examined or called when the expression is examined. -/
theorem completes (e : Expr) : Completes declared e := by
  cases e with
  | missing => exact fun hs _ hother => hother .nothing _ hs trivial
  | literal span token =>
      refine .valued rfl fun hs => ?_
      rw [examine]
      exact .recordValue hs _ (isRegistered_literalType hs.registry token)
  | name span token => exact fun hs hvalue hother => .examineName hs span token hvalue hother
  | member span receiver name =>
      cases name with
      | none => exact fun hs _ hother => hother .nothing _ hs trivial
      | some name =>
          intro s β finish R hs hvalue hother
          rw [examine, bind_assoc]
          exact (Steps.examined (completes receiver) hs).ends fun r s' hs' _ hr =>
            .examineMember hs' hr name hvalue hother
  | this span =>
      refine .valued rfl fun {s} hs => ?_
      rw [examine]
      refine .known (.recordValue hs _ ?_)
      cases hthis : s.thisType with
      | none => exact hs.registry.unknown
      | some t => exact hs.thisType t hthis
  | paren span inner =>
      refine .valued rfl fun hs => ?_
      rw [examine]
      exact .typedEnds (completes inner) hs fun t s' hs' _ ht => .recordValue hs' _ ht
  | call span callee args =>
      refine .valued rfl fun {s} hs => .ofCall ?_
      have hquery : QueriesArgs declared args := typeQueryArgs args
      have hplain : TypesArgs declared args := typeExprs args
      -- A name or a member that is called is not typed, only the receiver of a member is.
      cases callee with
      | missing =>
          rw [examine]
          exact Steps.bind (Q := fun target r => target.IsRegistered r)
            (.more (.pure hs trivial) [.missing])
            fun _ s' hs' _ htarget => .args hquery hplain hs' htarget
      | name span token =>
          rw [examine]
          exact Steps.bind (Q := fun target r => target.IsRegistered r)
            (.more (.pure hs trivial) [.name span token])
            fun _ s' hs' _ htarget => .args hquery hplain hs' htarget
      | member span receiver name =>
          cases name with
          | none =>
              rw [examine]
              exact Steps.bind (Q := fun target r => target.IsRegistered r)
                (.more (.pure hs trivial) [.member span receiver none])
                fun _ s' hs' _ htarget => .args hquery hplain hs' htarget
          | some name =>
              rw [examine]
              have hreceiver := Steps.examined (completes receiver) hs
              refine (hreceiver.more [.member span receiver (some name)]).bind fun r s' hs' _ hr => ?_
              refine Steps.first (Q := fun target r => target.IsRegistered r) (.pure hs' ?_)
                fun _ s'' hs'' _ htarget => .args hquery hplain hs'' htarget
              cases r with
              | value t | type t => exact hr
              | namespacePath path => trivial
              | nothing => trivial
      | _ => exact .call rfl (completes _) hquery hplain hs
  | index span receiver index =>
      refine .valued rfl fun hs => ?_
      rw [examine, Expr.visited, Expr.within, List.append_assoc]
      refine .typed (completes receiver) hs fun t s' hs' _ _ =>
        .typedEnds (completes index) hs' fun _ s₂ hs₂ _ _ => .known (.recordValue hs₂ _ ?_)
      cases helement : Types.Catalogue.indexed? s₂.registry t with
      | none => exact hs₂.registry.unknown
      | some element => exact Types.Catalogue.isRegistered_indexed? hs₂.registry helement
  | unary span op operand =>
      refine .valued rfl fun hs => ?_
      rw [examine]
      exact .typedEnds (completes operand) hs fun t s' hs' _ ht =>
        .recordValue hs' _ (isRegistered_unaryType hs'.registry op ht)
  | step span operand =>
      refine .valued rfl fun hs => ?_
      rw [examine]
      exact .typedEnds (completes operand) hs fun t s' hs' _ ht => .recordValue hs' _ ht
  | binary span op left right =>
      refine .valued rfl fun hs => ?_
      rw [examine, Expr.visited, Expr.within, List.append_assoc]
      exact .typed (completes left) hs fun a s' hs' _ ha =>
        .typedEnds (completes right) hs' fun b s₂ hs₂ hgrows hb => .known (.recordValue hs₂ _
          (isRegistered_binaryType hs₂.registry op (hgrows.isRegistered ha) hb))
  | assign span target value =>
      refine .valued rfl fun hs => ?_
      rw [examine, Expr.visited, Expr.within, List.append_assoc]
      exact .typed (completes target) hs fun _ s' hs' _ _ =>
        .typedEnds (completes value) hs' fun t s₂ hs₂ _ ht => .recordValue hs₂ _ ht
  | conditional span condition whenTrue whenFalse =>
      refine .valued rfl fun hs => ?_
      rw [examine, Expr.visited, Expr.within, List.append_assoc,
        List.append_assoc (whenTrue.within ++ [whenTrue])]
      refine .typed (completes condition) hs fun _ s' hs' _ _ =>
        .typed (completes whenTrue) hs' fun a s₂ hs₂ _ ha =>
          .typedEnds (completes whenFalse) hs₂ fun b s₃ hs₃ hgrows hb => .recordValue hs₃ _ ?_
      split
      · exact hb
      · exact hgrows.isRegistered ha
  | cast span type operand =>
      refine .valued rfl fun hs => ?_
      rw [examine]
      exact .typedEnds (completes operand) hs fun _ s' hs' _ _ =>
        (Steps.resolveType hs' type).first fun t s₂ hs₂ _ ht => .recordValue hs₂ _ ht
  | lambda span params body =>
      refine .valued rfl fun hs => ?_
      rw [examine]
      exact (typeLambda hs params body (List.forall_mem_nil _)).ends fun _ s' hs' _ _ =>
        .recordValue hs' _ (hs'.registry.fixed (by decide))
  | anonymous span keyword members =>
      refine .valued rfl fun hs => ?_
      rw [examine]
      refine Steps.ends (typeMembers hs (List.forall_mem_nil _) members)
        fun found s' hs' _ hfound => ?_
      dsimp only
      split
      · have hshape := Steps.internShape (q := .anonymous found.fields) hs' rfl
          (List.forall_mem_map.mpr hfound)
        exact hshape.first fun t s₂ hs₂ _ ht => .recordValue hs₂ _ ht
      · exact .recordValue hs' _ hs'.registry.unknown
  | object span type args init =>
      refine .valued rfl fun hs => ?_
      rw [examine, Expr.visited, Expr.within, List.append_assoc]
      exact (typeExprs args hs).bind fun _ s' hs' _ _ => (typeInitializer hs' init).ends
        fun _ s₂ hs₂ _ _ => (Steps.resolveType hs₂ type).first fun t s₃ hs₃ _ ht =>
          .recordValue hs₃ _ ht
  | array span type sizes elements =>
      refine .valued rfl fun hs => ?_
      rw [examine, Expr.visited, Expr.within, List.append_assoc]
      refine (typeExprs sizes hs).bind fun _ s' hs' _ _ => (typeElements hs' elements).ends
        fun types s₂ hs₂ _ htypes => ?_
      dsimp only
      split
      · exact (Steps.arrayOfElements hs₂ htypes).first fun t s₃ hs₃ _ ht => .recordValue hs₃ _ ht
      · exact (Steps.arrayOfType hs₂ _ _).first fun t s₃ hs₃ _ ht => .recordValue hs₃ _ ht

theorem typeQueryArgs (args : List Expr) : QueriesArgs declared args := by
  cases args with
  | nil => exact fun hs _ => .pure hs nofun
  | cons arg args =>
      intro s element hs helement
      cases arg with
      | lambda span params body =>
          rw [Typing.typeQueryArgs, visitedOf, List.append_assoc]
          have hbody := typeLambda hs params body (List.forall_mem_singleton.mpr helement)
          refine hbody.bind fun t s' hs' hgrows ht => ?_
          refine (Steps.lambda hs' span params).bind fun _ s₂ hs₂ hgrows' _ => ?_
          have hargs := typeQueryArgs args hs₂ ((hgrows.trans hgrows').isRegistered helement)
          refine hargs.last fun _ s₃ hs₃ hgrows₃ _ => .pure hs₃ fun _ hmem => ?_
          rw [← Option.mem_some.mp hmem]
          exact (hgrows'.trans hgrows₃).isRegistered ht
      | _ =>
          rw [typeQueryArgs_cons rfl]
          exact .typed (completes _) hs fun _ s' hs' hgrows _ =>
            typeQueryArgs args hs' (hgrows.isRegistered helement)

theorem typeExprs (es : List Expr) : TypesArgs declared es := by
  cases es with
  | nil => exact fun hs => .pure hs (List.forall_mem_nil _)
  | cons e es =>
      intro s hs
      rw [Typing.typeExprs]
      refine .typed (completes e) hs fun t s' hs' _ ht =>
        (typeExprs es hs').last fun ts s₂ hs₂ hgrows hts => .pure hs₂ ?_
      exact List.forall_mem_cons.mpr ⟨hgrows.isRegistered ht, hts⟩

theorem typeElements {s : TypingState} (hs : s.IsReady declared) (es : Option (List Expr)) :
    Steps declared (visitedOfElements es) (visitedOfElements es) s (typeElements declared es)
      fun ts r => ∀ t ∈ ts, r.IsRegistered t := by
  cases es with
  | none => exact .pure hs (List.forall_mem_nil _)
  | some es => exact typeExprs es hs

theorem typeLambda {s : TypingState} (hs : s.IsReady declared) (params : List LambdaParam)
    (body : Body) {types : List TypeId} (htypes : ∀ t ∈ types, s.registry.IsRegistered t) :
    Steps declared body.visited body.visited s (typeLambda declared params body types)
      fun t r => r.IsRegistered t := by
  have hbound : ∀ {β : Type} {f : Unit → TypingM β} {R : β → Registry → Prop} {es es' : List Expr},
      (∀ s' : TypingState, s'.IsReady declared → Steps declared es es' s' (f ()) R) →
      Steps declared es es' s
        (Typing.openScope >>= fun _ => Typing.bindParams types params >>= f) R :=
    fun hf => (Steps.openScope hs).first fun _ s' hs' hgrows _ =>
      (Steps.bindParams hs' (fun t ht => hgrows.isRegistered (htypes t ht)) params).first
        fun _ s₂ hs₂ _ _ => hf s₂ hs₂
  cases body with
  | missing =>
      rw [Typing.typeLambda]
      exact hbound fun s' hs' => (Steps.closeScope hs').first fun _ s₂ hs₂ _ _ =>
        .pure hs₂ hs₂.registry.unknown
  | expr value =>
      rw [Typing.typeLambda]
      exact hbound fun s' hs' => .typedLast (completes value) hs' fun t s₂ hs₂ _ ht =>
        (Steps.closeScope hs₂).first fun _ s₃ hs₃ hgrows _ => .pure hs₃ (hgrows.isRegistered ht)
  | block stmts =>
      rw [Typing.typeLambda]
      refine hbound fun s' hs' => (Steps.openScope hs').first fun _ s₂ hs₂ _ _ =>
        (typeStmts hs₂ stmts).last fun _ s₃ hs₃ _ _ => ?_
      refine (Steps.closeScope hs₃).first fun _ s₄ hs₄ _ _ =>
        (Steps.returnedType hs₄ stmts).first fun t s₅ hs₅ _ ht => ?_
      exact (Steps.closeScope hs₅).first fun _ s₆ hs₆ hgrows _ => .pure hs₆ (hgrows.isRegistered ht)

theorem typeMembers {s : TypingState} (hs : s.IsReady declared) {found : AnonymousMembers}
    (hfound : ∀ f ∈ found.fields, s.registry.IsRegistered f.type) (ms : List AnonMember) :
    Steps declared (visitedOfMembers ms) (visitedOfMembers ms) s (typeMembers declared found ms)
      fun found r => ∀ f ∈ found.fields, r.IsRegistered f.type := by
  cases ms with
  | nil => exact .pure hs hfound
  | cons m ms =>
      cases m with
      | mk span explicit value =>
          rw [Typing.typeMembers]
          exact .typed (completes value) hs fun t s' hs' hgrows ht =>
            (Steps.addAnonymousMember hs' (fun f hf => hgrows.isRegistered (hfound f hf)) _ ht).first
              fun found s₂ hs₂ _ hfound => typeMembers hs₂ hfound ms

theorem typeInitializer {s : TypingState} (hs : s.IsReady declared) (init : Option Initializer) :
    Steps declared (visitedOfInitializer init) (visitedOfInitializer init) s
      (typeInitializer declared init) fun _ _ => True := by
  cases init with
  | none => exact .pure hs trivial
  | some init =>
      cases init with
      | mk members elements =>
          rw [Typing.typeInitializer]
          exact (typeMemberInits hs members).bind fun _ s' hs' _ _ =>
            (typeExprs elements hs').last fun _ s₂ hs₂ _ _ => .pure hs₂ trivial

theorem typeMemberInits {s : TypingState} (hs : s.IsReady declared) (ms : List MemberInit) :
    Steps declared (visitedOfInits ms) (visitedOfInits ms) s (typeMemberInits declared ms)
      fun _ _ => True := by
  cases ms with
  | nil => exact .pure hs trivial
  | cons m ms =>
      cases m with
      | mk name value =>
          rw [Typing.typeMemberInits]
          exact .typed (completes value) hs fun _ s' hs' _ _ => typeMemberInits hs' ms

/-- All that is visited in a statement is examined or called when the statement is typed. -/
theorem typeStmt {s : TypingState} (hs : s.IsReady declared) (stmt : Stmt) :
    Steps declared stmt.visited stmt.visited s (typeStmt declared stmt) fun _ _ => True := by
  cases stmt with
  | missing => exact .pure hs trivial
  | block stmts =>
      rw [Typing.typeStmt]
      exact (Steps.openScope hs).first fun _ s' hs' _ _ =>
        (typeStmts hs' stmts).last fun _ s₂ hs₂ _ _ => .closeScope hs₂
  | locals isVar type declarators =>
      rw [Typing.typeStmt]
      split
      · exact Steps.first (Q := fun o r => ∀ t ∈ o, r.IsRegistered t) (.pure hs nofun)
          fun written s' hs' _ hwritten => typeLocals hs' hwritten declarators
      · refine Steps.first (Q := fun o r => ∀ t ∈ o, r.IsRegistered t) ?_
          fun written s' hs' _ hwritten => typeLocals hs' hwritten declarators
        exact (Steps.resolveType hs type).last fun t s' hs' _ ht => .pure hs' fun _ hmem =>
          Option.mem_some.mp hmem ▸ ht
  | expr value =>
      rw [Typing.typeStmt]
      exact .typedLast (completes value) hs fun _ s' hs' _ _ => .pure hs' trivial
  | result value =>
      rw [Typing.typeStmt]
      exact .typedLast (completes value) hs fun _ s' hs' _ _ => .pure hs' trivial
  | branch condition branches =>
      rw [Typing.typeStmt]
      exact .typed (completes condition) hs fun _ s' hs' _ _ => typeBranches hs' branches
  | foreach isVar type name iterable body =>
      rw [Typing.typeStmt]
      refine .typed (completes iterable) hs fun t s' hs' _ _ => ?_
      have hbody : ∀ element s', s'.IsReady declared → s'.registry.IsRegistered element →
          Steps declared body.visited body.visited s' (do
            Typing.openScope
            Typing.bindVariable name element
            Typing.typeStmt declared body
            Typing.closeScope) fun _ _ => True := fun element s' hs' helement =>
        (Steps.openScope hs').first fun _ s₂ hs₂ hgrows _ =>
          (Steps.bindVariable hs₂ name (hgrows.isRegistered helement)).first fun _ s₃ hs₃ _ _ =>
            (typeStmt hs₃ body).last fun _ s₄ hs₄ _ _ => .closeScope hs₄
      dsimp only
      split
      · refine .known (Steps.first (Q := fun t r => r.IsRegistered t) (.pure hs' ?_)
          fun element s₂ hs₂ _ helement => hbody element s₂ hs₂ helement)
        cases helement : Types.Catalogue.elementType? s'.registry t with
        | none => exact hs'.registry.unknown
        | some element => exact Types.Catalogue.isRegistered_elementType? hs'.registry helement
      · exact (Steps.resolveType hs' type).first fun element s₂ hs₂ _ helement =>
          hbody element s₂ hs₂ helement

theorem typeStmts {s : TypingState} (hs : s.IsReady declared) (stmts : List Stmt) :
    Steps declared (visitedOfStmts stmts) (visitedOfStmts stmts) s (typeStmts declared stmts)
      fun _ _ => True := by
  cases stmts with
  | nil => exact .pure hs trivial
  | cons stmt stmts =>
      rw [Typing.typeStmts]
      exact (typeStmt hs stmt).bind fun _ s' hs' _ _ => typeStmts hs' stmts

theorem typeBranches {s : TypingState} (hs : s.IsReady declared) (stmts : List Stmt) :
    Steps declared (visitedOfStmts stmts) (visitedOfStmts stmts) s (typeBranches declared stmts)
      fun _ _ => True := by
  cases stmts with
  | nil => exact .pure hs trivial
  | cons stmt stmts =>
      rw [Typing.typeBranches]
      exact (Steps.openScope hs).first fun _ s' hs' _ _ => (typeStmt hs' stmt).bind
        fun _ s₂ hs₂ _ _ => (Steps.closeScope hs₂).first fun _ s₃ hs₃ _ _ => typeBranches hs₃ stmts

theorem typeLocals {s : TypingState} (hs : s.IsReady declared) {written : Option TypeId}
    (hwritten : ∀ t ∈ written, s.registry.IsRegistered t) (ds : List Declarator) :
    Steps declared (visitedOfDeclarators ds) (visitedOfDeclarators ds) s
      (typeLocals declared written ds) fun _ _ => True := by
  cases ds with
  | nil => exact .pure hs trivial
  | cons d ds =>
      cases d with
      | mk span name init =>
          rw [Typing.typeLocals]
          refine .typed (completes init) hs fun found s' hs' hgrows hfound => ?_
          have htype : s'.registry.IsRegistered (written.getD found) := by
            cases written with
            | none => exact hfound
            | some t => exact hgrows.isRegistered (hwritten t rfl)
          exact (Steps.record hs' (.inr rfl) span htype).first fun _ s₂ hs₂ hgrows₂ _ =>
            (Steps.bindVariable hs₂ name (hgrows₂.isRegistered htype)).first
              fun _ s₃ hs₃ hgrows₃ _ => typeLocals hs₃ (fun t ht =>
                (hgrows.trans (hgrows₂.trans hgrows₃)).isRegistered (hwritten t ht)) ds

end

/-! ### Members and items -/

theorem typeExpr (hs : s.IsReady declared) (e : Expr) :
    Steps declared e.visited e.visited s (typeExpr declared e) fun t r => r.IsRegistered t :=
  settled (completes e) hs

theorem typeFields (hs : s.IsReady declared) {type : TypeId} (htype : s.registry.IsRegistered type)
    (ds : List Declarator) : Steps declared (visitedOfDeclarators ds) (visitedOfDeclarators ds) s
      (typeFields declared type ds) fun _ _ => True := by
  induction ds generalizing s with
  | nil => exact .pure hs trivial
  | cons d ds ih =>
      cases d with
      | mk span name init =>
          exact (typeExpr hs init).bind fun _ s' hs' hgrows _ =>
            (Steps.record hs' (.inr rfl) span (hgrows.isRegistered htype)).first
              fun _ s₂ hs₂ hgrows₂ _ => ih hs₂ ((hgrows.trans hgrows₂).isRegistered htype)

theorem typeBlockOf (hs : s.IsReady declared) (body : Body) :
    Steps declared body.blockVisited body.blockVisited s (typeBlockOf declared body)
      fun _ _ => True := by
  cases body with
  | missing => exact .pure hs trivial
  | expr value => exact .pure hs trivial
  | block stmts => exact typeStmt hs (.block stmts)

theorem typeBody (hs : s.IsReady declared) (body : Body) :
    Steps declared body.visited body.visited s (typeBody declared body) fun _ _ => True := by
  cases body with
  | missing => exact .pure hs trivial
  | expr value => exact (typeExpr hs value).last fun _ s' hs' _ _ => .pure hs' trivial
  | block stmts => exact typeBlockOf hs (.block stmts)

theorem accessors (hs : s.IsReady declared) (as : List Accessor) :
    Steps declared (visitedOfAccessors as) (visitedOfAccessors as) s
      (as.forM fun a => Typing.typeBlockOf declared a.body) fun _ _ => True := by
  induction as generalizing s with
  | nil => exact .pure hs trivial
  | cons a as ih => exact (typeBlockOf hs a.body).bind fun _ s' hs' _ _ => ih hs'

/-- The members of a type are typed while some type is in sight, and then what was in sight is in
    sight again. -/
theorem inSight (hs : s.IsReady declared) {ms : List Member} {thisType : TypingM (Option TypeId)}
    (hthis : Steps declared [] [] s thisType fun o r => ∀ t ∈ o, r.IsRegistered t)
    (hmembers : ∀ {s : TypingState}, s.IsReady declared → Steps declared (visitedOfTypeMembers ms)
      (visitedOfTypeMembers ms) s (typeTypeMembers declared ms) fun _ _ => True) :
    Steps declared (visitedOfTypeMembers ms) (visitedOfTypeMembers ms) s (do
      let thisType ← thisType
      modify fun s : TypingState => { s with thisType := thisType, scopes := [] }
      typeTypeMembers declared ms
      modify fun s' => { s' with thisType := s.thisType, scopes := s.scopes }) fun _ _ => True := by
  refine hthis.first fun o s₁ hs₁ hgrows₁ ho => ?_
  have hinside := hs₁.sight ho (List.forall_mem_nil _)
  refine (Steps.aside rfl rfl hinside).first fun _ s₂ hs₂ hgrows₂ _ => ?_
  refine (hmembers hs₂).last fun _ s₃ hs₃ hgrows₃ _ => .aside rfl rfl ?_
  have hgrows := hgrows₁.trans (hgrows₂.trans hgrows₃)
  exact hs₃.sight (fun t ht => hgrows.isRegistered (hs.thisType t ht))
    fun scope hscope v hv => hgrows.isRegistered (hs.scopes scope hscope v hv)

mutual

theorem typeDecl {s : TypingState} (hs : s.IsReady declared) (isNested : Bool) (decl : TypeDecl) :
    Steps declared decl.visited decl.visited s (typeDecl declared isNested decl)
      fun _ _ => True := by
  cases decl with
  | mk span keyword name modifiers bases members isClosed =>
      have hmembers : ∀ {s : TypingState}, s.IsReady declared → Steps declared
          (visitedOfTypeMembers members) (visitedOfTypeMembers members) s
          (Typing.typeTypeMembers declared members) fun _ _ => True :=
        fun hs => typeTypeMembers hs members
      rw [Typing.typeDecl]
      refine .known ?_
      dsimp only
      split
      · next name =>
          split
          · exact .inSight hs (.pure hs nofun) hmembers
          · have hnamed := Steps.internShape (q := .named s.context.home name []) hs rfl
              (List.forall_mem_nil _)
            refine .inSight hs (hnamed.last fun t s' hs' _ ht => .pure hs' fun _ hmem => ?_) hmembers
            exact Option.mem_some.mp hmem ▸ ht
      · exact .inSight hs (.pure hs nofun) hmembers

theorem typeTypeMembers {s : TypingState} (hs : s.IsReady declared) (ms : List Member) :
    Steps declared (visitedOfTypeMembers ms) (visitedOfTypeMembers ms) s
      (typeTypeMembers declared ms) fun _ _ => True := by
  cases ms with
  | nil => exact .pure hs trivial
  | cons m ms =>
      rw [Typing.typeTypeMembers]
      exact (typeMember hs m).bind fun _ s' hs' _ _ => typeTypeMembers hs' ms

theorem typeMember {s : TypingState} (hs : s.IsReady declared) (m : Member) :
    Steps declared m.visited m.visited s (typeMember declared m) fun _ _ => True := by
  cases m with
  | field isStatic type declarators =>
      rw [Typing.typeMember]
      exact (Steps.resolveType hs type).first fun t s' hs' _ ht => typeFields hs' ht declarators
  | property isStatic type name accessors value =>
      rw [Typing.typeMember]
      exact (typeExpr hs value).bind fun _ s' hs' _ _ => Steps.accessors hs' _
  | method isStatic type name params body =>
      rw [Typing.typeMember]
      exact (Steps.openScope hs).first fun _ s₁ hs₁ _ _ =>
        (Steps.bindMethodParams hs₁ params).first fun _ s₂ hs₂ _ _ =>
          (typeBody hs₂ body).last fun _ s₃ hs₃ _ _ => .closeScope hs₃
  | constructor name params body =>
      rw [Typing.typeMember]
      exact (Steps.openScope hs).first fun _ s₁ hs₁ _ _ =>
        (Steps.bindMethodParams hs₁ params).first fun _ s₂ hs₂ _ _ =>
          (typeBlockOf hs₂ body).last fun _ s₃ hs₃ _ _ => .closeScope hs₃
  | type decl =>
      rw [Typing.typeMember]
      exact typeDecl hs true decl

end

mutual

theorem typeItem {s : TypingState} (hs : s.IsReady declared) (item : Item) :
    Steps declared item.visited item.visited s (typeItem declared item) fun _ _ => True := by
  cases item with
  | usingDirective path => exact .pure hs trivial
  | namespaceDecl path isFileScoped items =>
      rw [Typing.typeItem]
      refine .known ((Steps.aside rfl rfl { hs with }).first fun _ s₁ hs₁ _ _ =>
        (typeItems hs₁ items).last fun _ s₂ hs₂ _ _ => .aside rfl rfl { hs₂ with })
  | type decl =>
      rw [Typing.typeItem]
      exact typeDecl hs false decl
  | stmt stmt =>
      rw [Typing.typeItem]
      exact typeStmt hs stmt

/-- All that is visited in items is examined or called when the items are typed. -/
theorem typeItems {s : TypingState} (hs : s.IsReady declared) (items : List Item) :
    Steps declared (visitedOfItems items) (visitedOfItems items) s (typeItems declared items)
      fun _ _ => True := by
  cases items with
  | nil => exact .pure hs trivial
  | cons item items =>
      rw [Typing.typeItems]
      exact (typeItem hs item).bind fun _ s' hs' _ _ => typeItems hs' items

end

end Steps

/-- What a file consists of is examined or called while the file is typed, if the types of its
    declared members are registered before. -/
theorem moves_typeFile (file : SourceFile) {r : Registry} (hr : r.IsReady)
    (hdeclared : declared.IsRegistered r) : Moves declared (visitedOfItems file.items)
      (visitedOfItems file.items) (TypingState.initial file r) (typeFile declared file r) := by
  have hinitial : (TypingState.initial file r).IsReady declared :=
    ⟨hr, hdeclared, List.forall_mem_nil _, nofun,
      List.forall_mem_singleton.mpr (List.forall_mem_nil _)⟩
  exact (Steps.typeItems hinitial file.items).1

end Typing

end Nominal
