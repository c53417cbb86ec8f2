import Nominal.Proofs.Layout.Moved
import Nominal.Proofs.Shape
import Nominal.Proofs.Typed

/-!
# Typing Programs Whose Nodes Have Moved

Typing a program and typing it with all spans moved finds the same. Whatever typing knows it
has from the names and tokens of the program, and the types are filed under keys that have
moved like everything else.

There is one place where typing looks something up that it has filed: what a lambda with
statements gives is the type of the value that it returns. What is found there could be
another type after the move, if the move has brought two expressions of one kind to the same
place. So this is excluded.

## Main definitions

* `TypingState.Moved`: What is known of a program, and what is known of the moved one.
* `Tracks`: A computation does for the moved program what another does for the program.
* `Move.IsFaithful`: No two expressions of a kind are moved to the same place.

## Theorems

* `typeOf?_moved`: A key is looked up where it has been moved to.
* `tracks_examine`: An expression refers to the same.
* `tracks_typeStmt`, `tracks_typeMember`, `tracks_typeItem`: So it is with all that is typed.
* `moved_typeFile`: The types of the moved program are filed under the moved keys.
-/

namespace Nominal

open Syntax (Kind Lexeme)
open Text (Span)
open Nominal.Types (TypeId Registry Shape DeclaredTypes Derived)

/-- No two expressions of a kind are moved to the same place. -/
def Move.IsFaithful (m : Move) : Prop :=
  ∀ kind ∈ Kind.expressions, ∀ span span' : Span, m kind span = m kind span' → span = span'

namespace Typing

open Program

variable {m : Move}

/-- Where a key has been moved to. -/
def NodeKey.move (m : Move) (key : NodeKey) : NodeKey := ⟨key.kind, m key.kind key.span⟩

/-- What is known of a program, and what is known of the program with its spans moved. -/
structure TypingState.Moved (m : Move) (s s' : TypingState) : Prop where
  registry : s'.registry = s.registry
  records : s'.records = s.records.map fun r => (r.1.move m, r.2)
  diagnostics : s'.diagnostics.length = s.diagnostics.length
  context : s'.context = s.context
  thisType : s'.thisType = s.thisType
  scopes : s'.scopes = s.scopes

/-- A computation does for the moved program what another one does for the program. -/
def Tracks (m : Move) {α : Type} (c c' : TypingM α) : Prop :=
  ∀ s s' : TypingState, s.Moved m s' → (c' s').1 = (c s).1 ∧ (c s).2.Moved m (c' s').2

/-! ### Looking up -/

/-- The first record under a key stays the first one under the moved key, if the move brings
    no other key of that kind there. -/
theorem find?_moved {key : NodeKey}
    (hkey : ∀ span, m key.kind span = m key.kind key.span → span = key.span)
    (records : List (NodeKey × TypeId)) :
    ((records.map fun r => (r.1.move m, r.2)).find? fun r => r.1 == key.move m)
      = (records.find? fun r => r.1 == key).map fun r => (r.1.move m, r.2) := by
  rw [List.find?_map]
  congr 2
  funext r
  rcases r with ⟨⟨kind, span⟩, type⟩
  rcases key with ⟨kind', span'⟩
  rw [Function.comp_apply, NodeKey.move, NodeKey.move, Bool.eq_iff_iff, beq_iff_eq, beq_iff_eq,
    NodeKey.mk.injEq, NodeKey.mk.injEq]
  constructor
  · rintro ⟨rfl, hspan⟩
    exact ⟨rfl, hkey span hspan⟩
  · rintro ⟨rfl, rfl⟩
    exact ⟨rfl, rfl⟩

theorem typeOf?_moved {s s' : TypingState} (h : s.Moved m s') {key : NodeKey}
    (hkey : ∀ span, m key.kind span = m key.kind key.span → span = key.span) :
    s'.typeOf? (key.move m) = s.typeOf? key := by
  rw [TypingState.typeOf?, TypingState.typeOf?, h.records, find?_moved hkey, Option.map_map]
  rfl

/-! ### Ways to track -/

namespace Tracks

variable {α β : Type} {c c' : TypingM α} {f f' : α → TypingM β}

theorem pure (a : α) : Tracks m (Pure.pure a : TypingM α) (Pure.pure a) :=
  fun _ _ h => ⟨rfl, h⟩

theorem bind (hc : Tracks m c c') (hf : ∀ a, Tracks m (f a) (f' a)) :
    Tracks m (c >>= f) (c' >>= f') := by
  intro s s' h
  rcases hc s s' h with ⟨hanswer, hstate⟩
  have hnext := hf (c s).1 (c s).2 (c' s').2 hstate
  rw [← hanswer] at hnext
  rw [show (c >>= f) s = f (c s).1 (c s).2 from rfl, ← hanswer]
  exact hnext

theorem map (g : α → β) (hc : Tracks m c c') : Tracks m (g <$> c) (g <$> c') :=
  hc.bind fun a => pure (g a)

/-- What is known may be asked for, if what is done with it is the same. -/
theorem get {f f' : TypingState → TypingM β}
    (hf : ∀ s s' : TypingState, s.Moved m s' → Tracks m (f s) (f' s')) :
    Tracks m (MonadState.get >>= f) (MonadState.get >>= f') :=
  fun s s' h => hf s s' h s s' h

theorem modify {f f' : TypingState → TypingState}
    (hf : ∀ s s' : TypingState, s.Moved m s' → (f s).Moved m (f' s')) :
    Tracks m (modify f : TypingM Unit) (modify f') :=
  fun s s' h => ⟨rfl, hf s s' h⟩

theorem ite {p : Prop} [Decidable p] {d d' : TypingM α} (hc : Tracks m c c')
    (hd : Tracks m d d') : Tracks m (if p then c else d) (if p then c' else d') := by
  split
  · exact hc
  · exact hd

end Tracks

/-! ### Single steps -/

section Steps

variable {declared : DeclaredTypes}

theorem tracks_internShape (shape : Shape) :
    Tracks m (internShape shape) (internShape shape) := by
  intro s s' h
  simp only [internShape, modifyGet, MonadStateOf.modifyGet, StateT.modifyGet, h.registry]
  exact ⟨rfl, { h with registry := rfl }⟩

theorem tracks_internDerived? (derived : Option Derived) :
    Tracks m (internDerived? derived) (internDerived? derived) := by
  cases derived with
  | none => exact .pure none
  | some d =>
      refine .map some fun s s' h => ?_
      simp only [internDerived, modifyGet, MonadStateOf.modifyGet, StateT.modifyGet, h.registry]
      exact ⟨rfl, { h with registry := rfl }⟩

theorem tracks_resolveType (type : TypeRef) :
    Tracks m (resolveType declared type) (resolveType (declared.move m) type) := by
  intro s s' h
  simp only [resolveType, modifyGet, MonadStateOf.modifyGet, StateT.modifyGet, h.registry,
    h.context, DeclaredTypes.resolve_move]
  exact ⟨rfl, { h with registry := rfl, context := rfl }⟩

theorem tracks_resolveName (segments : List String) :
    Tracks m (resolveName declared segments) (resolveName (declared.move m) segments) := by
  intro s s' h
  simp only [resolveName, modifyGet, MonadStateOf.modifyGet, StateT.modifyGet, h.registry,
    h.context, DeclaredTypes.resolvePath_move]
  exact ⟨rfl, { h with registry := rfl, context := rfl }⟩

theorem tracks_openScope : Tracks m openScope openScope :=
  .modify fun s s' h => { h with scopes := by simp only [h.scopes] }

theorem tracks_closeScope : Tracks m closeScope closeScope :=
  .modify fun s s' h => { h with scopes := by simp only [h.scopes] }

theorem tracks_bindVariable (name : Option String) (type : TypeId) :
    Tracks m (bindVariable name type) (bindVariable name type) := by
  refine .modify fun s s' h => ?_
  cases name with
  | none => exact h
  | some name =>
      rw [h.scopes]
      cases s.scopes with
      | nil => exact h
      | cons scope scopes => exact { h with scopes := rfl }

theorem tracks_record (kind : Kind) (span : Span) (type : TypeId) :
    Tracks m (record kind span type) (record kind (m kind span) type) :=
  .modify fun s s' h => { h with records := by simp only [h.records, List.map_cons, NodeKey.move] }

theorem tracks_recordValue (e : Expr) (type : TypeId) :
    Tracks m (recordValue e type) (recordValue (e.move m) type) := by
  rw [recordValue, recordValue, Expr.span?_move, Expr.kind_move]
  cases e.span? with
  | none => exact .pure _
  | some span => exact (tracks_record _ _ _).bind fun _ => .pure _

theorem tracks_settle (e : Expr) (referent : Referent) :
    Tracks m (settle e referent) (settle (e.move m) referent) := by
  rw [settle.eq_def, settle.eq_def, Expr.span?_move, Expr.kind_move]
  cases referent with
  | value t => exact .pure t
  | _ =>
      cases e.span? with
      | none => exact .pure _
      | some span => exact (tracks_record _ _ _).bind fun _ => .pure _

theorem tracks_reportMember (kind : Diagnostic.Kind) (span : Span) (detail : Option String) :
    Tracks m (reportMember kind span detail) (reportMember kind (m .anonMember span) detail) :=
  .modify fun s s' h =>
    { h with diagnostics := by simp only [List.length_append, h.diagnostics, List.length_singleton] }

theorem value?_moved {s s' : TypingState} (h : s.Moved m s') (name : String) :
    s'.value? (declared.move m) name = s.value? declared name := by
  simp only [TypingState.value?, TypingState.localType?, h.scopes, h.thisType, h.registry,
    DeclaredTypes.member?_move]

theorem tracks_examineName (span : Span) (token : Option Lexeme) :
    Tracks m (examineName declared span token)
      (examineName (declared.move m) (m .nameRef span) token) := by
  rw [examineName.eq_def, examineName.eq_def]
  cases token with
  | none => exact .pure _
  | some l =>
      refine .ite ?_ (.get fun s s' h => ?_)
      · cases Types.Primitive.ofKeyword? l.text <;> exact .pure _
      · rw [value?_moved h]
        cases s.value? declared l.text with
        | some t => exact (tracks_record _ _ _).bind fun _ => .pure _
        | none =>
            refine (tracks_resolveName _).bind fun t => .ite (.pure _) ?_
            rw [DeclaredTypes.isNamespace_move]
            exact .ite (.pure _) (.pure _)

theorem tracks_examineInNamespace (path : Types.Namespace) (name : String) :
    Tracks m (examineInNamespace declared path name)
      (examineInNamespace (declared.move m) path name) := by
  rw [examineInNamespace, examineInNamespace, DeclaredTypes.isNamespace_move]
  exact (tracks_resolveName _).bind fun t => .ite (.pure _) (.ite (.pure _) (.pure _))

theorem tracks_instanceMemberType (owner : TypeId) (name : String) :
    Tracks m (instanceMemberType declared owner name)
      (instanceMemberType (declared.move m) owner name) := by
  refine .get fun s s' h => ?_
  simp only [h.registry, DeclaredTypes.member?_move]
  cases declared.member? s.registry owner name with
  | some t => exact .pure _
  | none => exact tracks_internDerived? _

theorem tracks_staticMemberType (owner : TypeId) (name : String) :
    Tracks m (staticMemberType declared owner name)
      (staticMemberType (declared.move m) owner name) := by
  refine .get fun s s' h => ?_
  simp only [h.registry, DeclaredTypes.member?_move]
  cases declared.member? s.registry owner name with
  | some t => exact .pure _
  | none => exact tracks_internDerived? _

theorem tracks_examineMember (span : Span) (receiver : Referent) (name : String) :
    Tracks m (examineMember declared span receiver name)
      (examineMember (declared.move m) (m .memberAccess span) receiver name) := by
  have hvalue : ∀ t, Tracks m (record .memberAccess span t >>= fun _ => Pure.pure (Referent.value t))
      (record .memberAccess (m .memberAccess span) t >>= fun _ => Pure.pure (Referent.value t)) :=
    fun t => (tracks_record _ _ _).bind fun _ => .pure _
  cases receiver with
  | namespacePath path => exact tracks_examineInNamespace path name
  | type owner =>
      refine (tracks_staticMemberType owner name).bind fun t => ?_
      cases t with
      | none => exact .pure _
      | some t => exact hvalue t
  | value owner =>
      refine (tracks_instanceMemberType owner name).bind fun t => ?_
      cases t with
      | none => exact .pure _
      | some t => exact hvalue t
  | nothing => exact .pure _

theorem tracks_calleeType (callee : Callee) :
    Tracks m (calleeType declared callee) (calleeType (declared.move m) callee) := by
  cases callee with
  | instanceMethod owner name =>
      refine .get fun s s' h => ?_
      simp only [h.registry, DeclaredTypes.method?_move]
      cases declared.method? s.registry owner name with
      | some t => exact .pure _
      | none => exact (tracks_internDerived? _).bind fun _ => .pure _
  | staticMethod owner name =>
      refine .get fun s s' h => ?_
      simp only [h.registry, DeclaredTypes.method?_move]
      cases declared.method? s.registry owner name with
      | some t => exact .pure _
      | none => exact (tracks_internDerived? _).bind fun _ => .pure _
  | own token =>
      refine .get fun s s' h => ?_
      simp only [h.registry, h.thisType, DeclaredTypes.method?_move]
      cases token with
      | none => exact .pure _
      | some l => cases s.thisType <;> exact .pure _
  | unknown => exact .pure _

theorem tracks_bindParams (types : List TypeId) (params : List LambdaParam) :
    Tracks m (bindParams types params) (bindParams types (params.map (LambdaParam.move m))) := by
  induction params generalizing types with
  | nil => exact .pure _
  | cons p ps ih =>
      exact (tracks_record _ _ _).bind fun _ =>
        (tracks_bindVariable _ _).bind fun _ => ih types.tail

theorem tracks_bindMethodParams (params : List Param) :
    Tracks m (bindMethodParams declared params) (bindMethodParams (declared.move m) params) := by
  induction params with
  | nil => exact .pure _
  | cons p ps ih =>
      exact (tracks_resolveType _).bind fun _ => (tracks_bindVariable _ _).bind fun _ => ih

mutual

theorem returned?_move (s : Stmt) : returned? (s.move m) = (returned? s).map (Expr.move m) := by
  cases s with
  | missing => rfl
  | block stmts => simp only [Stmt.move, moveStmts_eq, returned?, returnedBy?_move stmts]
  | locals isVar type declarators => rfl
  | expr value => rfl
  | result value =>
      simp only [Stmt.move, returned?, Expr.isMissing_move]
      split <;> rfl
  | branch condition branches =>
      simp only [Stmt.move, moveStmts_eq, returned?, returnedBy?_move branches]
  | foreach isVar type name iterable body => simp only [Stmt.move, returned?, returned?_move body]

theorem returnedBy?_move (ss : List Stmt) :
    returnedBy? (ss.map (Stmt.move m)) = (returnedBy? ss).map (Expr.move m) := by
  cases ss with
  | nil => rfl
  | cons s ss =>
      simp only [List.map_cons, returnedBy?, returned?_move s, returnedBy?_move ss]
      cases returned? s <;> rfl

end

theorem kind_of_span? {e : Expr} {span : Span} (h : e.span? = some span) :
    e.kind ∈ Kind.expressions := by
  cases e with
  | missing => cases h
  | _ => simp only [Expr.kind, Kind.expressions, List.mem_cons, reduceCtorEq, true_or, or_true]

/-- The type of a value that is returned is found again. -/
theorem tracks_returnedType (hm : m.IsFaithful) (stmts : List Stmt) :
    Tracks m (returnedType stmts) (returnedType (moveStmts m stmts)) := by
  refine .get fun s s' h => ?_
  rw [moveStmts_eq, returnedBy?_move]
  cases returnedBy? stmts with
  | none => exact .pure _
  | some e =>
      simp only [Option.map_some, Expr.span?_move, Expr.kind_move]
      cases hspan : e.span? with
      | none => exact .pure _
      | some span =>
          have hfound : s'.typeOf? (NodeKey.move m ⟨e.kind, span⟩) = s.typeOf? ⟨e.kind, span⟩ :=
            typeOf?_moved h fun span' hsame => hm e.kind (kind_of_span? hspan) span' span hsame
          rw [NodeKey.move] at hfound
          simp only [Option.map_some, Option.bind_some, hfound]
          exact .pure _

theorem tracks_arrayOfElements (types : List TypeId) :
    Tracks m (arrayOfElements types) (arrayOfElements types) := by
  rw [arrayOfElements]
  split
  · exact tracks_internShape _
  · exact .pure _

theorem tracks_arrayOfType (type : TypeRef) (isSized : Bool) :
    Tracks m (arrayOfType declared type isSized) (arrayOfType (declared.move m) type isSized) :=
  (tracks_resolveType type).bind fun _ =>
    .ite (.ite (.pure _) (tracks_internShape _)) (.pure _)

theorem tracks_addAnonymousMember (found : AnonymousMembers) (a : AnonMember) (type : TypeId) :
    Tracks m (addAnonymousMember found a type) (addAnonymousMember found (a.move m) type) := by
  rw [addAnonymousMember, addAnonymousMember, AnonMember.name?_move]
  have hspan : (a.move m).span = m .anonMember a.span := by
    cases a
    rfl
  rw [hspan]
  cases a.name? with
  | none => exact (tracks_reportMember _ _ _).bind fun _ => .pure _
  | some name =>
      exact .ite ((tracks_reportMember _ _ _).bind fun _ => .pure _) (.pure _)

end Steps

/-! ### Expressions and statements -/

section Visits

variable {declared : DeclaredTypes}

/-- An expression is typed before what comes next. -/
theorem Tracks.typed {β : Type} {e : Expr} {f f' : TypeId → TypingM β}
    (h : Tracks m (examine declared e) (examine (declared.move m) (e.move m)))
    (hf : ∀ t, Tracks m (f t) (f' t)) :
    Tracks m (examine declared e >>= fun r => settle e r >>= f)
      (examine (declared.move m) (e.move m) >>= fun r => settle (e.move m) r >>= f') :=
  h.bind fun r => (tracks_settle e r).bind hf

/-- A call types its arguments, whether it is a query or not. -/
theorem tracks_args {span : Span} {callee : Expr} {args : List Expr} {target : Callee}
    (hquery : ∀ element, Tracks m (typeQueryArgs declared element args)
      (typeQueryArgs (declared.move m) element (moveExprs m args)))
    (hplain : Tracks m (typeExprs declared args)
      (typeExprs (declared.move m) (moveExprs m args))) :
    Tracks m
      (do
        let query := target.query? (← get).registry
        let t ←
          match query with
          | some (element, method) => do
            let projected ← typeQueryArgs declared element args
            let result := Types.Catalogue.query? method element projected
            pure ((← internDerived? result).getD .unknown)
          | none => do
            let _ ← typeExprs declared args
            calleeType declared target
        recordValue (.call span callee args) t)
      (do
        let query := target.query? (← get).registry
        let t ←
          match query with
          | some (element, method) => do
            let projected ← typeQueryArgs (declared.move m) element (moveExprs m args)
            let result := Types.Catalogue.query? method element projected
            pure ((← internDerived? result).getD .unknown)
          | none => do
            let _ ← typeExprs (declared.move m) (moveExprs m args)
            calleeType (declared.move m) target
        recordValue (.call (m .call span) (callee.move m) (moveExprs m args)) t) := by
  have hcall : ∀ t, Tracks m (recordValue (.call span callee args) t)
      (recordValue (.call (m .call span) (callee.move m) (moveExprs m args)) t) :=
    tracks_recordValue (.call span callee args)
  refine .get fun s s' h => ?_
  simp only [h.registry]
  cases target.query? s.registry with
  | some found =>
      exact (hquery _).bind fun _ => (tracks_internDerived? _).bind fun _ =>
        (Tracks.pure _).bind hcall
  | none => exact hplain.bind fun _ => (tracks_calleeType target).bind hcall

/-- What is called is typed before the arguments, unless it is a name or a member. -/
theorem tracks_call {span : Span} {callee : Expr} {args : List Expr}
    (hmember : callee.kind ≠ .memberAccess) (hname : callee.kind ≠ .nameRef)
    (hmissing : callee.kind ≠ .error)
    (hcallee : Tracks m (examine declared callee) (examine (declared.move m) (callee.move m)))
    (hquery : ∀ element, Tracks m (typeQueryArgs declared element args)
      (typeQueryArgs (declared.move m) element (moveExprs m args)))
    (hplain : Tracks m (typeExprs declared args)
      (typeExprs (declared.move m) (moveExprs m args))) :
    Tracks m (examine declared (.call span callee args))
      (examine (declared.move m) ((Expr.call span callee args).move m)) := by
  have hother : ∀ {kind : Kind}, callee.kind ≠ kind → ∀ {e : Expr}, e.kind = kind →
      callee ≠ e ∧ callee.move m ≠ e := by
    rintro kind hkind e rfl
    refine ⟨fun h => hkind (congrArg Expr.kind h), fun h => hkind ?_⟩
    rw [← h, Expr.kind_move]
  rw [Expr.move, examine, examine]
  · exact hcallee.typed fun _ => (Tracks.pure _).bind fun _ => tracks_args hquery hplain
  · exact fun _ _ _ => (hother hmember rfl).2
  · exact fun _ _ => (hother hname rfl).2
  · exact (hother hmissing rfl).2
  · exact fun _ _ => (hother hmember rfl).2
  · exact fun _ _ _ => (hother hmember rfl).1
  · exact fun _ _ => (hother hname rfl).1
  · exact (hother hmissing rfl).1
  · exact fun _ _ => (hother hmember rfl).1

/-- An argument of a query that is no lambda is typed like any other expression. -/
theorem tracks_queryArg {element : TypeId} {arg : Expr} {args : List Expr}
    (hlambda : (arg.kind == .lambda) = false)
    (harg : Tracks m (examine declared arg) (examine (declared.move m) (arg.move m)))
    (hargs : Tracks m (typeQueryArgs declared element args)
      (typeQueryArgs (declared.move m) element (moveExprs m args))) :
    Tracks m (typeQueryArgs declared element (arg :: args))
      (typeQueryArgs (declared.move m) element (moveExprs m (arg :: args))) := by
  rw [moveExprs, typeQueryArgs_cons hlambda, typeQueryArgs_cons (by rwa [Expr.kind_move])]
  exact harg.typed fun _ => hargs

mutual

/-- An expression refers to the same when it has moved. -/
theorem tracks_examine (hm : m.IsFaithful) (e : Expr) :
    Tracks m (examine declared e) (examine (declared.move m) (e.move m)) := by
  cases e with
  | missing => exact .pure _
  | literal span token => exact tracks_recordValue (.literal span token) _
  | name span token => exact tracks_examineName span token
  | this span =>
      refine .get fun s s' h => ?_
      rw [h.thisType]
      exact tracks_recordValue (.this span) _
  | paren span inner =>
      rw [Expr.move, examine, examine]
      exact (tracks_examine hm inner).typed (tracks_recordValue (.paren span inner))
  | member span receiver name =>
      cases name with
      | none => exact .pure _
      | some name =>
          rw [Expr.move, examine, examine]
          exact (tracks_examine hm receiver).bind fun r => tracks_examineMember span r name
  | call span callee args =>
      have hquery := fun element => tracks_typeQueryArgs hm element args
      have hplain := tracks_typeExprs hm args
      cases callee with
      | missing =>
          rw [Expr.move, Expr.move, examine, examine]
          exact (Tracks.pure _).bind fun _ => tracks_args hquery hplain
      | name span token =>
          rw [Expr.move, Expr.move, examine, examine]
          exact (Tracks.pure _).bind fun _ => tracks_args hquery hplain
      | member span receiver name =>
          cases name with
          | none =>
              rw [Expr.move, Expr.move, examine, examine]
              exact (Tracks.pure _).bind fun _ => tracks_args hquery hplain
          | some name =>
              rw [Expr.move, Expr.move, examine, examine]
              exact (tracks_examine hm receiver).bind fun r => (Tracks.pure _).bind fun _ =>
                tracks_args hquery hplain
      | _ =>
          exact tracks_call (by simp [Expr.kind]) (by simp [Expr.kind]) (by simp [Expr.kind])
            (tracks_examine hm _) hquery hplain
  | index span receiver index =>
      rw [Expr.move, examine, examine]
      refine (tracks_examine hm receiver).typed fun t => (tracks_examine hm index).typed fun _ =>
        .get fun s s' h => ?_
      rw [h.registry]
      exact tracks_recordValue (.index span receiver index) _
  | unary span op operand =>
      rw [Expr.move, examine, examine]
      exact (tracks_examine hm operand).typed fun _ => tracks_recordValue (.unary span op operand) _
  | step span operand =>
      rw [Expr.move, examine, examine]
      exact (tracks_examine hm operand).typed (tracks_recordValue (.step span operand))
  | binary span op left right =>
      rw [Expr.move, examine, examine]
      refine (tracks_examine hm left).typed fun a => (tracks_examine hm right).typed fun b =>
        .get fun s s' h => ?_
      rw [h.registry]
      exact tracks_recordValue (.binary span op left right) _
  | assign span target value =>
      rw [Expr.move, examine, examine]
      exact (tracks_examine hm target).typed fun _ =>
        (tracks_examine hm value).typed (tracks_recordValue (.assign span target value))
  | conditional span condition whenTrue whenFalse =>
      rw [Expr.move, examine, examine]
      exact (tracks_examine hm condition).typed fun _ => (tracks_examine hm whenTrue).typed fun a =>
        (tracks_examine hm whenFalse).typed fun b =>
          tracks_recordValue (.conditional span condition whenTrue whenFalse) _
  | cast span type operand =>
      rw [Expr.move, examine, examine]
      exact (tracks_examine hm operand).typed fun _ =>
        (tracks_resolveType type).bind (tracks_recordValue (.cast span type operand))
  | lambda span params body =>
      rw [Expr.move, examine, examine]
      exact (tracks_typeLambda hm params body []).bind fun _ =>
        tracks_recordValue (.lambda span params body) _
  | anonymous span keyword members =>
      rw [Expr.move, examine, examine]
      refine (tracks_typeMembers hm ⟨[], true⟩ members).bind fun found => ?_
      have hrecord := tracks_recordValue (m := m) (.anonymous span keyword members)
      dsimp only
      split
      · exact (tracks_internShape _).bind hrecord
      · exact (Tracks.pure _).bind hrecord
  | object span type args init =>
      rw [Expr.move, examine, examine]
      exact (tracks_typeExprs hm args).bind fun _ => (tracks_typeInitializer hm init).bind fun _ =>
        (tracks_resolveType type).bind (tracks_recordValue (.object span type args init))
  | array span type sizes elements =>
      rw [Expr.move, examine, examine]
      refine (tracks_typeExprs hm sizes).bind fun _ =>
        (tracks_typeElements hm elements).bind fun types => ?_
      have hrecord := tracks_recordValue (m := m) (.array span type sizes elements)
      have hempty : (moveExprs m sizes).isEmpty = sizes.isEmpty := by
        rw [moveExprs_eq, List.isEmpty_map]
      rw [hempty]
      dsimp only
      split
      · exact (tracks_arrayOfElements types).bind hrecord
      · exact (tracks_arrayOfType _ _).bind hrecord

theorem tracks_typeQueryArgs (hm : m.IsFaithful) (element : TypeId) (args : List Expr) :
    Tracks m (typeQueryArgs declared element args)
      (typeQueryArgs (declared.move m) element (moveExprs m args)) := by
  cases args with
  | nil => exact .pure _
  | cons arg args =>
      have hargs := tracks_typeQueryArgs hm element args
      cases arg with
      | lambda span params body =>
          rw [moveExprs, Expr.move, typeQueryArgs, typeQueryArgs]
          exact (tracks_typeLambda hm params body [element]).bind fun t =>
            (tracks_record _ _ _).bind fun _ => hargs.bind fun _ => .pure _
      | _ => exact tracks_queryArg rfl (tracks_examine hm _) hargs

theorem tracks_typeExprs (hm : m.IsFaithful) (es : List Expr) :
    Tracks m (typeExprs declared es) (typeExprs (declared.move m) (moveExprs m es)) := by
  cases es with
  | nil => exact .pure _
  | cons e es =>
      rw [moveExprs, typeExprs, typeExprs]
      exact (tracks_examine hm e).typed fun t => (tracks_typeExprs hm es).bind fun ts => .pure _

theorem tracks_typeElements (hm : m.IsFaithful) (es : Option (List Expr)) :
    Tracks m (typeElements declared es) (typeElements (declared.move m) (moveElements m es)) := by
  cases es with
  | none => exact .pure _
  | some es => exact tracks_typeExprs hm es

theorem tracks_typeLambda (hm : m.IsFaithful) (params : List LambdaParam) (body : Body)
    (types : List TypeId) :
    Tracks m (typeLambda declared params body types)
      (typeLambda (declared.move m) (params.map (LambdaParam.move m)) (body.move m) types) := by
  cases body with
  | missing =>
      rw [Body.move, typeLambda, typeLambda]
      exact tracks_openScope.bind fun _ => (tracks_bindParams types params).bind fun _ =>
        tracks_closeScope.bind fun _ => .pure _
  | expr value =>
      rw [Body.move, typeLambda, typeLambda]
      exact tracks_openScope.bind fun _ => (tracks_bindParams types params).bind fun _ =>
        (tracks_examine hm value).typed fun t => tracks_closeScope.bind fun _ => .pure t
  | block stmts =>
      rw [Body.move, typeLambda, typeLambda]
      exact tracks_openScope.bind fun _ => (tracks_bindParams types params).bind fun _ =>
        tracks_openScope.bind fun _ => (tracks_typeStmts hm stmts).bind fun _ =>
          tracks_closeScope.bind fun _ => (tracks_returnedType hm stmts).bind fun t =>
            tracks_closeScope.bind fun _ => .pure t

/-- The members of an anonymous object are the same. -/
theorem tracks_typeMembers (hm : m.IsFaithful) (found : AnonymousMembers) (as : List AnonMember) :
    Tracks m (typeMembers declared found as)
      (typeMembers (declared.move m) found (moveAnonMembers m as)) := by
  cases as with
  | nil => exact .pure _
  | cons a as =>
      cases a with
      | mk span explicit value =>
          rw [moveAnonMembers, AnonMember.move, typeMembers, typeMembers]
          exact (tracks_examine hm value).typed fun t =>
            (tracks_addAnonymousMember found (.mk span explicit value) t).bind fun r =>
              tracks_typeMembers hm r as

theorem tracks_typeInitializer (hm : m.IsFaithful) (init : Option Initializer) :
    Tracks m (typeInitializer declared init)
      (typeInitializer (declared.move m) (moveInitializer m init)) := by
  cases init with
  | none => exact .pure _
  | some init =>
      cases init with
      | mk members elements =>
          rw [moveInitializer, Initializer.move, typeInitializer, typeInitializer]
          exact (tracks_typeMemberInits hm members).bind fun _ =>
            (tracks_typeExprs hm elements).bind fun _ => .pure _

theorem tracks_typeMemberInits (hm : m.IsFaithful) (is : List MemberInit) :
    Tracks m (typeMemberInits declared is)
      (typeMemberInits (declared.move m) (moveMemberInits m is)) := by
  cases is with
  | nil => exact .pure _
  | cons i is =>
      cases i with
      | mk name value =>
          rw [moveMemberInits, MemberInit.move, typeMemberInits, typeMemberInits]
          exact (tracks_examine hm value).typed fun _ => tracks_typeMemberInits hm is

/-- A statement is typed as before when it has moved. -/
theorem tracks_typeStmt (hm : m.IsFaithful) (s : Stmt) :
    Tracks m (typeStmt declared s) (typeStmt (declared.move m) (s.move m)) := by
  cases s with
  | missing => exact .pure _
  | block stmts =>
      rw [Stmt.move, typeStmt, typeStmt]
      exact tracks_openScope.bind fun _ => (tracks_typeStmts hm stmts).bind fun _ =>
        tracks_closeScope
  | locals isVar type declarators =>
      rw [Stmt.move, typeStmt, typeStmt]
      split
      · exact (Tracks.pure _).bind fun _ => tracks_typeLocals hm _ declarators
      · exact ((tracks_resolveType type).map some).bind fun _ => tracks_typeLocals hm _ declarators
  | expr value =>
      rw [Stmt.move, typeStmt, typeStmt]
      exact (tracks_examine hm value).typed fun _ => .pure _
  | result value =>
      rw [Stmt.move, typeStmt, typeStmt]
      exact (tracks_examine hm value).typed fun _ => .pure _
  | branch condition branches =>
      rw [Stmt.move, typeStmt, typeStmt]
      exact (tracks_examine hm condition).typed fun _ => tracks_typeBranches hm branches
  | foreach isVar type name iterable body =>
      rw [Stmt.move, typeStmt, typeStmt]
      refine (tracks_examine hm iterable).typed fun t => ?_
      have hbody : ∀ element, Tracks m
          (do
            openScope
            bindVariable name element
            typeStmt declared body
            closeScope)
          (do
            openScope
            bindVariable name element
            typeStmt (declared.move m) (body.move m)
            closeScope) := fun element =>
        tracks_openScope.bind fun _ => (tracks_bindVariable name element).bind fun _ =>
          (tracks_typeStmt hm body).bind fun _ => tracks_closeScope
      dsimp only
      split
      · refine .get fun s s' h => ?_
        rw [h.registry]
        exact (Tracks.pure _).bind hbody
      · exact (tracks_resolveType type).bind hbody

theorem tracks_typeStmts (hm : m.IsFaithful) (ss : List Stmt) :
    Tracks m (typeStmts declared ss) (typeStmts (declared.move m) (moveStmts m ss)) := by
  cases ss with
  | nil => exact .pure _
  | cons s ss =>
      rw [moveStmts, typeStmts, typeStmts]
      exact (tracks_typeStmt hm s).bind fun _ => tracks_typeStmts hm ss

theorem tracks_typeBranches (hm : m.IsFaithful) (ss : List Stmt) :
    Tracks m (typeBranches declared ss) (typeBranches (declared.move m) (moveStmts m ss)) := by
  cases ss with
  | nil => exact .pure _
  | cons s ss =>
      rw [moveStmts, typeBranches, typeBranches]
      exact tracks_openScope.bind fun _ => (tracks_typeStmt hm s).bind fun _ =>
        tracks_closeScope.bind fun _ => tracks_typeBranches hm ss

theorem tracks_typeLocals (hm : m.IsFaithful) (written : Option TypeId) (ds : List Declarator) :
    Tracks m (typeLocals declared written ds)
      (typeLocals (declared.move m) written (moveDeclarators m ds)) := by
  cases ds with
  | nil => exact .pure _
  | cons d ds =>
      cases d with
      | mk span name init =>
          rw [moveDeclarators, Declarator.move, typeLocals, typeLocals]
          exact (tracks_examine hm init).typed fun _ => (tracks_record _ _ _).bind fun _ =>
            (tracks_bindVariable _ _).bind fun _ => tracks_typeLocals hm written ds

end

/-! ### Members and items -/

theorem tracks_typeFields (hm : m.IsFaithful) (type : TypeId) (ds : List Declarator) :
    Tracks m (typeFields declared type ds)
      (typeFields (declared.move m) type (moveDeclarators m ds)) := by
  induction ds with
  | nil => exact .pure _
  | cons d ds ih =>
      cases d with
      | mk span name init =>
          rw [moveDeclarators, Declarator.move, typeFields, typeFields]
          exact ((tracks_examine hm init).bind (tracks_settle init)).bind fun _ =>
            (tracks_record _ _ _).bind fun _ => ih

theorem tracks_typeBlockOf (hm : m.IsFaithful) (body : Body) :
    Tracks m (typeBlockOf declared body) (typeBlockOf (declared.move m) (body.move m)) := by
  cases body with
  | missing => exact .pure _
  | expr value => exact .pure _
  | block stmts => exact tracks_typeStmt hm (.block stmts)

theorem tracks_typeBody (hm : m.IsFaithful) (body : Body) :
    Tracks m (typeBody declared body) (typeBody (declared.move m) (body.move m)) := by
  cases body with
  | missing => exact .pure _
  | expr value =>
      exact ((tracks_examine hm value).bind (tracks_settle value)).bind fun _ => .pure _
  | block stmts => exact tracks_typeBlockOf hm (.block stmts)

theorem tracks_accessors (hm : m.IsFaithful) (as : List Accessor) :
    Tracks m (as.forM fun a => typeBlockOf declared a.body)
      ((as.map (Accessor.move m)).forM fun a => typeBlockOf (declared.move m) a.body) := by
  induction as with
  | nil => exact .pure _
  | cons a as ih => exact (tracks_typeBlockOf hm a.body).bind fun _ => ih

/-- What is in sight may be set, if it is set to the same. -/
theorem tracks_sight (thisType : Option TypeId) (scopes : List Scope) :
    Tracks m (modify fun s => { s with thisType := thisType, scopes := scopes })
      (modify fun s => { s with thisType := thisType, scopes := scopes }) :=
  .modify fun _ _ h => { h with thisType := rfl, scopes := rfl }

theorem tracks_context (context : Types.NameContext) :
    Tracks m (modify fun s => { s with context := context })
      (modify fun s => { s with context := context }) :=
  .modify fun _ _ h => { h with context := rfl }

mutual

theorem tracks_typeDecl (hm : m.IsFaithful) (isNested : Bool) (decl : TypeDecl) :
    Tracks m (typeDecl declared isNested decl)
      (typeDecl (declared.move m) isNested (decl.move m)) := by
  cases decl with
  | mk span keyword name modifiers bases members isClosed =>
      rw [TypeDecl.move, typeDecl, typeDecl]
      refine .get fun s s' h => ?_
      rw [h.context, h.thisType, h.scopes]
      have hmembers : ∀ thisType : Option TypeId, Tracks m
          (do
            modify fun s : TypingState => { s with thisType := thisType, scopes := [] }
            typeTypeMembers declared members
            modify fun r => { r with thisType := s.thisType, scopes := s.scopes })
          (do
            modify fun s : TypingState => { s with thisType := thisType, scopes := [] }
            typeTypeMembers (declared.move m) (moveMembers m members)
            modify fun r => { r with thisType := s.thisType, scopes := s.scopes }) :=
        fun thisType => (tracks_sight thisType []).bind fun _ =>
          (tracks_typeTypeMembers hm members).bind fun _ => tracks_sight _ _
      dsimp only
      split
      · split
        · exact (Tracks.pure _).bind hmembers
        · exact ((tracks_internShape _).map some).bind hmembers
      · exact (Tracks.pure _).bind hmembers

theorem tracks_typeTypeMembers (hm : m.IsFaithful) (ms : List Member) :
    Tracks m (typeTypeMembers declared ms)
      (typeTypeMembers (declared.move m) (moveMembers m ms)) := by
  cases ms with
  | nil => exact .pure _
  | cons d ms =>
      rw [moveMembers, typeTypeMembers, typeTypeMembers]
      exact (tracks_typeMember hm d).bind fun _ => tracks_typeTypeMembers hm ms

/-- A member of a type is typed as before when it has moved. -/
theorem tracks_typeMember (hm : m.IsFaithful) (d : Member) :
    Tracks m (typeMember declared d) (typeMember (declared.move m) (d.move m)) := by
  cases d with
  | field isStatic type declarators =>
      rw [Member.move, typeMember, typeMember]
      exact (tracks_resolveType type).bind fun t => tracks_typeFields hm t declarators
  | property isStatic type name accessors value =>
      have haccessors : (accessors.map (List.map (Accessor.move m))).getD []
          = (accessors.getD []).map (Accessor.move m) := by
        cases accessors <;> rfl
      rw [Member.move, typeMember, typeMember, haccessors]
      exact ((tracks_examine hm value).bind (tracks_settle value)).bind fun _ =>
        tracks_accessors hm _
  | method isStatic type name params body =>
      rw [Member.move, typeMember, typeMember]
      exact tracks_openScope.bind fun _ => (tracks_bindMethodParams params).bind fun _ =>
        (tracks_typeBody hm body).bind fun _ => tracks_closeScope
  | constructor name params body =>
      rw [Member.move, typeMember, typeMember]
      exact tracks_openScope.bind fun _ => (tracks_bindMethodParams params).bind fun _ =>
        (tracks_typeBlockOf hm body).bind fun _ => tracks_closeScope
  | type decl =>
      rw [Member.move, typeMember, typeMember]
      exact tracks_typeDecl hm true decl

end

mutual

/-- An item is typed as before when it has moved. -/
theorem tracks_typeItem (hm : m.IsFaithful) (item : Item) :
    Tracks m (typeItem declared item) (typeItem (declared.move m) (item.move m)) := by
  cases item with
  | usingDirective path => exact .pure _
  | namespaceDecl path isFileScoped items =>
      rw [Item.move, typeItem, typeItem]
      refine .get fun s s' h => ?_
      dsimp only
      rw [h.context, moveItems_eq, Types.NameContext.enter_move, ← moveItems_eq]
      exact (tracks_context _).bind fun _ => (tracks_typeItems hm items).bind fun _ =>
        tracks_context _
  | type decl =>
      rw [Item.move, typeItem, typeItem]
      exact tracks_typeDecl hm false decl
  | stmt stmt =>
      rw [Item.move, typeItem, typeItem]
      exact tracks_typeStmt hm stmt

theorem tracks_typeItems (hm : m.IsFaithful) (items : List Item) :
    Tracks m (typeItems declared items) (typeItems (declared.move m) (moveItems m items)) := by
  cases items with
  | nil => exact .pure _
  | cons item items =>
      rw [moveItems, typeItems, typeItems]
      exact (tracks_typeItem hm item).bind fun _ => tracks_typeItems hm items

end

theorem moved_initial (file : SourceFile) (r : Registry) :
    (TypingState.initial file r).Moved m (.initial (file.move m) r) where
  registry := rfl
  records := rfl
  diagnostics := rfl
  context := by
    rw [SourceFile.move, TypingState.initial, TypingState.initial, moveItems_eq,
      Types.NameContext.ofFile_move]
  thisType := rfl
  scopes := rfl

/-- The types in a file whose nodes have moved are filed under the moved keys. -/
theorem moved_typeFile (hm : m.IsFaithful) (file : SourceFile) (r : Registry) :
    (typeFile declared file r).Moved m (typeFile (declared.move m) (file.move m) r) :=
  (tracks_typeItems hm file.items _ _ (moved_initial file r)).2

end Visits

end Typing

end Nominal
