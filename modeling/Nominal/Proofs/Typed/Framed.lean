import Nominal.Proofs.Typed

/-!
# Scopes Are Balanced

While a part of a program is typed, scopes are opened and closed, another type comes into sight,
and names are looked up in other namespaces. All of this is undone in the end. The only trace that
the part leaves among the variables are those that it declares itself in the innermost scope
around, and only statements that declare variables do that. So a name has the same value behind a
block, a branch, a loop, a lambda, a method or a type as it has in front of it.

Steps are compared by the number of scopes that they close without having opened them. A step that
closes none leaves the scopes as they are. In front of a step that closes some, a scope may be
opened, which makes them one less, and variables may be bound, which go away with the innermost
scope. This is what the parts of a program are gone through with.

That a member of the type in sight stays the same takes one thing more: the type has to be
registered. It is, whenever a type comes into sight.

## Main definitions

* `TypingState.Stays`: What a step leaves as it is, apart from scopes.
* `Closes`: A step that closes a number of scopes and leaves those behind them as they are.
* `Binds`: A step that may add variables to the innermost scope.
* `Call`: A part of a program, and how it is typed.
* `TypingState.SeesRegistered`: The type in sight is registered.

## Theorems

* `closes_examine`, `closes_typeMember`, `closes_typeDecl`: Expressions, members and types leave all
  scopes as they are.
* `binds_typeStmt`, `binds_typeItems`: Statements and items may bind variables.
* `scopes_balanced`: What typing a part of a program leaves as it is.
-/

namespace Nominal

/-- Whether a statement declares variables that stay behind it. -/
def Program.Stmt.declaresVariables : Program.Stmt → Bool
  | .locals .. => true
  | _ => false

namespace Typing

open Program
open Nominal.Types (TypeId Registry DeclaredTypes Derived Shape)

/-- Names are looked up where they were, the same type is in sight, and what is known of types is
    still known. -/
structure TypingState.Stays (s s' : TypingState) : Prop where
  context : s'.context = s.context
  thisType : s'.thisType = s.thisType
  registry : s.registry.Grows s'.registry

theorem TypingState.Stays.refl (s : TypingState) : s.Stays s := ⟨rfl, rfl, .refl _⟩

theorem TypingState.Stays.trans {s s' s'' : TypingState} (h : s.Stays s') (h' : s'.Stays s'') :
    s.Stays s'' :=
  ⟨h'.context.trans h.context, h'.thisType.trans h.thisType, h.registry.trans h'.registry⟩

/-- A step closes a number of scopes that were open before it, and leaves those behind them as they
    are. -/
def Closes {α : Type} (n : Nat) (c : TypingM α) : Prop :=
  ∀ s : TypingState, s.Stays (c s).2 ∧ (c s).2.scopes = s.scopes.drop n

/-- A step leaves all scopes as they are, but it may add variables to the innermost one. -/
def Binds {α : Type} (c : TypingM α) : Prop :=
  ∀ s : TypingState, s.Stays (c s).2 ∧ ∃ added, (c s).2.scopes = s.scopes.modifyHead (added ++ ·)

namespace Binds

variable {α β : Type} {c : TypingM α} {f : α → TypingM β}

/-- What leaves all scopes as they are adds no variables. -/
theorem of_closes (h : Closes 0 c) : Binds c := by
  intro s
  refine ⟨(h s).1, [], ?_⟩
  rw [(h s).2, List.drop_zero]
  exact (congrFun List.modifyHead_id s.scopes).symm

theorem bind (hc : Binds c) (hf : ∀ a, Binds (f a)) : Binds (c >>= f) := by
  intro s
  rcases hc s with ⟨hstays, added, hadded⟩
  rcases hf (c s).1 (c s).2 with ⟨hstays', added', hadded'⟩
  refine ⟨hstays.trans hstays', added' ++ added, hadded'.trans ?_⟩
  rw [hadded, List.modifyHead_modifyHead]
  congr 1
  funext scope
  exact (List.append_assoc added' added scope).symm

end Binds

namespace Closes

variable {α β : Type} {n : Nat} {c : TypingM α} {f : α → TypingM β}

/-- A step that changes nothing around it. -/
theorem still (hstays : ∀ s : TypingState, s.Stays (c s).2)
    (hscopes : ∀ s : TypingState, (c s).2.scopes = s.scopes) : Closes 0 c :=
  fun s => ⟨hstays s, hscopes s⟩

theorem pure (a : α) : Closes 0 (Pure.pure a) := .still .refl fun _ => rfl

theorem known : Closes 0 (MonadState.get : TypingM TypingState) := .still .refl fun _ => rfl

theorem bind (hc : Closes 0 c) (hf : ∀ a, Closes n (f a)) : Closes n (c >>= f) := by
  intro s
  have hfirst := hc s
  have hsecond := hf (c s).1 (c s).2
  refine ⟨hfirst.1.trans hsecond.1, hsecond.2.trans ?_⟩
  rw [hfirst.2, List.drop_zero]

theorem map (g : α → β) (hc : Closes 0 c) : Closes 0 (g <$> c) := hc.bind fun a => .pure (g a)

/-- Variables that are bound go away with the innermost scope. -/
theorem bound (hc : Binds c) (hf : ∀ a, Closes (n + 1) (f a)) : Closes (n + 1) (c >>= f) := by
  intro s
  rcases hc s with ⟨hstays, added, hadded⟩
  have hsecond := hf (c s).1 (c s).2
  refine ⟨hstays.trans hsecond.1, hsecond.2.trans ?_⟩
  rw [hadded, List.drop_modifyHead_of_pos n.succ_pos]

/-- A scope that is opened first is one of those that are closed. -/
theorem opened {f : Unit → TypingM β} (hf : Closes (n + 1) (f ())) :
    Closes n (openScope >>= f) := by
  intro s
  have hinner := hf { s with scopes := [] :: s.scopes }
  exact ⟨⟨hinner.1.context, hinner.1.thisType, hinner.1.registry⟩, hinner.2⟩

theorem closed : Closes 1 closeScope :=
  fun _ => ⟨⟨rfl, rfl, .refl _⟩, List.drop_one.symm⟩

/-- Once the innermost scope is closed there is one less to close. -/
theorem closing {f : Unit → TypingM β} (hf : Closes n (f ())) :
    Closes (n + 1) (closeScope >>= f) := by
  intro s
  have hinner := hf { s with scopes := s.scopes.tail }
  refine ⟨⟨hinner.1.context, hinner.1.thisType, hinner.1.registry⟩, hinner.2.trans ?_⟩
  exact List.drop_tail

end Closes

/-! ### Small steps -/

section Small

variable {declared : DeclaredTypes}

theorem closes_record (kind : Syntax.Kind) (span : Text.Span) (type : TypeId) :
    Closes 0 (record kind span type) := .still (fun _ => ⟨rfl, rfl, .refl _⟩) fun _ => rfl

theorem closes_internShape (shape : Shape) : Closes 0 (internShape shape) :=
  .still (fun s => ⟨rfl, rfl, s.registry.grows_intern shape⟩) fun _ => rfl

theorem closes_internDerived? (derived : Option Derived) : Closes 0 (internDerived? derived) := by
  cases derived with
  | none => exact .pure none
  | some d => exact .still (fun s => ⟨rfl, rfl, d.grows_intern s.registry⟩) fun _ => rfl

theorem closes_resolveType (type : TypeRef) : Closes 0 (resolveType declared type) :=
  .still (fun s => ⟨rfl, rfl, declared.grows_resolve _ s.registry type⟩) fun _ => rfl

theorem closes_resolveName (segments : List String) : Closes 0 (resolveName declared segments) :=
  .still (fun s => ⟨rfl, rfl, declared.grows_resolvePath _ s.registry segments []⟩) fun _ => rfl

theorem closes_reportMember (kind : Diagnostic.Kind) (span : Text.Span) (detail : Option String) :
    Closes 0 (reportMember kind span detail) :=
  .still (fun _ => ⟨rfl, rfl, .refl _⟩) fun _ => rfl

/-- A variable is bound in the innermost scope, if there is one. -/
theorem binds_bindVariable (name : Option String) (type : TypeId) :
    Binds (bindVariable name type) := by
  cases name with
  | none => exact .of_closes (.still (fun _ => .refl _) fun _ => rfl)
  | some name =>
      rintro ⟨registry, records, diagnostics, context, thisType, scopes⟩
      cases scopes with
      | nil => exact ⟨.refl _, [], rfl⟩
      | cons scope scopes => exact ⟨⟨rfl, rfl, .refl _⟩, [(name, type)], rfl⟩

theorem closes_examineName (span : Text.Span) (token : Option Syntax.Lexeme) :
    Closes 0 (examineName declared span token) := by
  rw [examineName.eq_def]
  split
  · exact .pure _
  · split
    · split
      · exact .pure _
      · exact .pure _
    · refine .bind .known fun s => ?_
      split
      · exact (closes_record _ _ _).bind fun _ => .pure _
      · refine (closes_resolveName _).bind fun t => ?_
        split
        · exact .pure _
        · split
          · exact .pure _
          · exact .pure _

theorem closes_examineInNamespace (path : Types.Namespace) (name : String) :
    Closes 0 (examineInNamespace declared path name) := by
  refine (closes_resolveName _).bind fun t => ?_
  split
  · exact .pure _
  · split
    · exact .pure _
    · exact .pure _

/-- What is declared is looked for first, and the library registers what it tells. -/
theorem closes_declaredOr (find : Registry → Option TypeId)
    (derive : Registry → Option Derived) : Closes 0 (do
      let r := (← get).registry
      match find r with
      | some t => return some t
      | none => internDerived? (derive r)) := by
  refine .bind .known fun s => ?_
  dsimp only
  split
  · exact .pure _
  · exact closes_internDerived? _

theorem closes_examineMember (span : Text.Span) (receiver : Referent) (name : String) :
    Closes 0 (examineMember declared span receiver name) := by
  have hvalue : ∀ t : Option TypeId, Closes 0 (match t with
      | some t => do
        record .memberAccess span t
        return .value t
      | none => return .nothing : TypingM Referent) := by
    intro t
    cases t with
    | none => exact .pure _
    | some t => exact (closes_record _ _ _).bind fun _ => .pure _
  cases receiver with
  | namespacePath path => exact closes_examineInNamespace path name
  | type owner =>
      exact Closes.bind (closes_declaredOr (fun r => declared.member? r owner name)
        fun r => Types.Catalogue.staticMember? r owner name) hvalue
  | value owner =>
      exact Closes.bind (closes_declaredOr (fun r => declared.member? r owner name)
        fun r => Types.Catalogue.instanceMember? r owner name) hvalue
  | nothing => exact .pure _

theorem closes_recordValue (e : Expr) (type : TypeId) : Closes 0 (recordValue e type) := by
  rw [recordValue]
  split
  · exact (closes_record _ _ _).bind fun _ => .pure _
  · exact .pure _

theorem closes_settle (e : Expr) (referent : Referent) : Closes 0 (settle e referent) := by
  rw [settle.eq_def]
  split
  · exact .pure _
  · exact (closes_record _ _ _).bind fun _ => .pure _
  · exact .pure _

theorem closes_calleeType (callee : Callee) : Closes 0 (calleeType declared callee) := by
  have hmethod : ∀ (find : Registry → Option TypeId) (derive : Registry → Option Derived),
      Closes 0 (do
        let r := (← get).registry
        match find r with
        | some t => return t
        | none => return (← internDerived? (derive r)).getD .unknown : TypingM TypeId) := by
    intro find derive
    refine .bind .known fun s => ?_
    dsimp only
    split
    · exact .pure _
    · exact (closes_internDerived? _).bind fun _ => .pure _
  cases callee with
  | instanceMethod owner name =>
      exact hmethod (fun r => declared.method? r owner name)
        fun r => Types.Catalogue.instanceMethod? r owner name
  | staticMethod owner name =>
      exact hmethod (fun r => declared.method? r owner name)
        fun r => Types.Catalogue.staticMethod? r owner name
  | own token =>
      refine .bind .known fun s => ?_
      split
      · exact .pure _
      · exact .pure _
  | unknown => exact .pure _

theorem closes_returnedType (stmts : List Stmt) : Closes 0 (returnedType stmts) := by
  refine .bind .known fun s => ?_
  split
  · exact .pure _
  · exact .pure _

theorem closes_arrayOfElements (types : List TypeId) : Closes 0 (arrayOfElements types) := by
  rw [arrayOfElements]
  split
  · exact closes_internShape _
  · exact .pure _

theorem closes_arrayOfType (type : TypeRef) (isSized : Bool) :
    Closes 0 (arrayOfType declared type isSized) := by
  refine (closes_resolveType type).bind fun t => ?_
  split
  · split
    · exact .pure _
    · exact closes_internShape _
  · exact .pure _

theorem closes_addAnonymousMember (found : AnonymousMembers) (m : AnonMember) (type : TypeId) :
    Closes 0 (addAnonymousMember found m type) := by
  rw [addAnonymousMember]
  split
  · exact (closes_reportMember _ _ _).bind fun _ => .pure _
  · split
    · exact (closes_reportMember _ _ _).bind fun _ => .pure _
    · exact .pure _

theorem binds_bindParams (types : List TypeId) (params : List LambdaParam) :
    Binds (bindParams types params) := by
  induction params generalizing types with
  | nil => exact .of_closes (.pure ())
  | cons p ps ih =>
      exact .bind (.of_closes (closes_record _ _ _)) fun _ =>
        (binds_bindVariable _ _).bind fun _ => ih types.tail

theorem binds_bindMethodParams (params : List Param) :
    Binds (bindMethodParams declared params) := by
  induction params with
  | nil => exact .of_closes (.pure ())
  | cons p ps ih =>
      exact .bind (.of_closes (closes_resolveType _)) fun _ =>
        (binds_bindVariable _ _).bind fun _ => ih

/-- An expression is typed before what comes next. -/
theorem Closes.typed {β : Type} {n : Nat} {e : Expr} {f : TypeId → TypingM β}
    (h : Closes 0 (examine declared e)) (hf : ∀ t, Closes n (f t)) :
    Closes n (examine declared e >>= fun r => settle e r >>= f) :=
  h.bind fun r => (closes_settle e r).bind hf

/-- What leaves all scopes as they are does so whether it may bind variables or not. -/
theorem Closes.balanced {c : TypingM Unit} {declares : Bool} (h : Closes 0 c) :
    Binds c ∧ (declares = false → Closes 0 c) :=
  ⟨.of_closes h, fun _ => h⟩

/-- A call types its arguments, whether it is a query or not. -/
theorem closes_args {span : Text.Span} {callee : Expr} {args : List Expr} {target : Callee}
    (hquery : ∀ element, Closes 0 (typeQueryArgs declared element args))
    (hplain : Closes 0 (typeExprs declared args)) :
    Closes 0 (do
      let query := target.query? (← get).registry
      let t ←
        match query with
        | some (element, method) => do
          let projected ← typeQueryArgs declared element args
          let result := Types.Catalogue.query? method element projected
          pure ((← internDerived? result).getD .unknown)
        | none => do
          let _ ← typeExprs declared args
          calleeType declared target
      recordValue (.call span callee args) t) := by
  refine .bind .known fun s => ?_
  dsimp only
  split
  · exact (hquery _).bind fun projected => (closes_internDerived? _).bind fun t =>
      Closes.bind (.pure _) fun t => closes_recordValue _ t
  · exact hplain.bind fun _ => (closes_calleeType target).bind fun t => closes_recordValue _ t

end Small

/-! ### Expressions and statements -/

section Parts

variable (declared : DeclaredTypes)

mutual

/-- Whatever an expression consists of, all scopes are as they were when it has been examined. -/
theorem closes_examine (e : Expr) : Closes 0 (examine declared e) := by
  cases e with
  | missing => exact .pure _
  | literal span token => exact closes_recordValue _ _
  | name span token => exact closes_examineName span token
  | member span receiver name =>
      cases name with
      | none => exact .pure _
      | some name =>
          rw [examine]
          exact (closes_examine receiver).bind fun r => closes_examineMember span r name
  | this span => exact Closes.known.bind fun _ => closes_recordValue _ _
  | paren span inner =>
      rw [examine]
      exact (closes_examine inner).typed fun _ => closes_recordValue _ _
  | call span callee args =>
      have hquery : ∀ element, Closes 0 (typeQueryArgs declared element args) :=
        fun element => closes_typeQueryArgs element args
      have hplain := closes_typeExprs args
      -- A name or a member that is called is not typed, only the receiver of a member is.
      cases callee with
      | missing =>
          rw [examine]
          exact Closes.bind (.pure _) fun _ => closes_args hquery hplain
      | name _ token =>
          rw [examine]
          exact Closes.bind (.pure _) fun _ => closes_args hquery hplain
      | member _ receiver name =>
          cases name with
          | none =>
              rw [examine]
              exact Closes.bind (.pure _) fun _ => closes_args hquery hplain
          | some name =>
              rw [examine]
              exact (closes_examine receiver).bind fun r => Closes.bind (.pure _) fun _ =>
                closes_args hquery hplain
      | _ =>
          rw [examine.eq_def]
          exact (closes_examine _).typed fun _ => Closes.bind (.pure _) fun _ =>
            closes_args hquery hplain
  | index span receiver index =>
      rw [examine]
      exact (closes_examine receiver).typed fun _ => (closes_examine index).typed fun _ =>
        Closes.known.bind fun _ => closes_recordValue _ _
  | unary span op operand =>
      rw [examine]
      exact (closes_examine operand).typed fun _ => closes_recordValue _ _
  | step span operand =>
      rw [examine]
      exact (closes_examine operand).typed fun _ => closes_recordValue _ _
  | binary span op left right =>
      rw [examine]
      exact (closes_examine left).typed fun _ => (closes_examine right).typed fun _ =>
        Closes.known.bind fun _ => closes_recordValue _ _
  | assign span target value =>
      rw [examine]
      exact (closes_examine target).typed fun _ => (closes_examine value).typed fun _ =>
        closes_recordValue _ _
  | conditional span condition whenTrue whenFalse =>
      rw [examine]
      exact (closes_examine condition).typed fun _ => (closes_examine whenTrue).typed fun _ =>
        (closes_examine whenFalse).typed fun _ => closes_recordValue _ _
  | cast span type operand =>
      rw [examine]
      exact (closes_examine operand).typed fun _ => (closes_resolveType type).bind fun _ =>
        closes_recordValue _ _
  | lambda span params body =>
      rw [examine]
      exact (closes_typeLambda params body []).bind fun _ => closes_recordValue _ _
  | anonymous span keyword members =>
      rw [examine]
      refine (closes_typeMembers ⟨[], true⟩ members).bind fun found => ?_
      dsimp only
      split
      · exact (closes_internShape _).bind fun _ => closes_recordValue _ _
      · exact Closes.bind (.pure _) fun _ => closes_recordValue _ _
  | object span type args init =>
      rw [examine]
      exact (closes_typeExprs args).bind fun _ => (closes_typeInitializer init).bind fun _ =>
        (closes_resolveType type).bind fun _ => closes_recordValue _ _
  | array span type sizes elements =>
      rw [examine.eq_def]
      refine (closes_typeExprs sizes).bind fun _ =>
        (closes_typeElements elements).bind fun types => ?_
      dsimp only
      split
      · exact (closes_arrayOfElements types).bind fun _ => closes_recordValue _ _
      · exact (closes_arrayOfType _ _).bind fun _ => closes_recordValue _ _

theorem closes_typeQueryArgs (element : TypeId) (args : List Expr) :
    Closes 0 (typeQueryArgs declared element args) := by
  cases args with
  | nil => exact .pure _
  | cons arg args =>
      cases hlambda : arg.kind == .lambda with
      | false =>
          rw [typeQueryArgs_cons hlambda]
          exact (closes_examine arg).typed fun _ => closes_typeQueryArgs element args
      | true =>
          cases arg with
          | lambda span params body =>
              rw [typeQueryArgs]
              exact (closes_typeLambda params body [element]).bind fun _ =>
                (closes_record _ _ _).bind fun _ =>
                  (closes_typeQueryArgs element args).bind fun _ => .pure _
          | _ => cases hlambda

theorem closes_typeExprs (es : List Expr) : Closes 0 (typeExprs declared es) := by
  cases es with
  | nil => exact .pure _
  | cons e es =>
      rw [typeExprs]
      exact (closes_examine e).typed fun _ => (closes_typeExprs es).bind fun _ => .pure _

theorem closes_typeElements (es : Option (List Expr)) : Closes 0 (typeElements declared es) := by
  cases es with
  | none => exact .pure _
  | some es => exact closes_typeExprs es

/-- The parameters of a lambda are gone behind it, and so are the variables of its block. -/
theorem closes_typeLambda (params : List LambdaParam) (body : Body) (types : List TypeId) :
    Closes 0 (typeLambda declared params body types) := by
  cases body with
  | missing =>
      rw [typeLambda]
      exact .opened (.bound (binds_bindParams types params) fun _ => .closing (.pure _))
  | expr value =>
      rw [typeLambda]
      exact .opened (.bound (binds_bindParams types params) fun _ =>
        .bound (.of_closes (closes_examine value)) fun _ =>
          .bound (.of_closes (closes_settle value _)) fun _ => .closing (.pure _))
  | block stmts =>
      rw [typeLambda]
      -- Two scopes are open in the end, that of the block and that of the parameters.
      refine .opened (.bound (binds_bindParams types params) fun _ => .opened ?_)
      refine .bound (binds_typeStmts stmts) fun _ => .closing ?_
      exact .bound (.of_closes (closes_returnedType stmts)) fun _ => .closing (.pure _)

theorem closes_typeMembers (found : AnonymousMembers) (ms : List AnonMember) :
    Closes 0 (typeMembers declared found ms) := by
  cases ms with
  | nil => exact .pure _
  | cons m ms =>
      cases m with
      | mk span explicit value =>
          rw [typeMembers]
          exact (closes_examine value).typed fun _ =>
            (closes_addAnonymousMember _ _ _).bind fun found => closes_typeMembers found ms

theorem closes_typeInitializer (init : Option Initializer) :
    Closes 0 (typeInitializer declared init) := by
  cases init with
  | none => exact .pure _
  | some init =>
      cases init with
      | mk members elements =>
          rw [typeInitializer]
          exact (closes_typeMemberInits members).bind fun _ =>
            (closes_typeExprs elements).bind fun _ => .pure _

theorem closes_typeMemberInits (ms : List MemberInit) :
    Closes 0 (typeMemberInits declared ms) := by
  cases ms with
  | nil => exact .pure _
  | cons m ms =>
      cases m with
      | mk name value =>
          rw [typeMemberInits]
          exact (closes_examine value).typed fun _ => closes_typeMemberInits ms

/-- A statement may bind variables, and it leaves all scopes as they are if it declares none. -/
theorem balances_typeStmt (s : Stmt) :
    Binds (typeStmt declared s)
      ∧ (s.declaresVariables = false → Closes 0 (typeStmt declared s)) := by
  cases s with
  | missing => exact Closes.balanced (.pure _)
  | block stmts =>
      rw [typeStmt]
      exact Closes.balanced (.opened (.bound (binds_typeStmts stmts) fun _ => .closed))
  | locals isVar type declarators =>
      rw [typeStmt]
      refine ⟨?_, nofun⟩
      split
      · exact .bind (.of_closes (.pure _)) fun _ => binds_typeLocals _ declarators
      · exact .bind (.of_closes ((closes_resolveType type).map some)) fun _ =>
          binds_typeLocals _ declarators
  | expr value =>
      rw [typeStmt]
      exact Closes.balanced ((closes_examine value).typed fun _ => .pure _)
  | result value =>
      rw [typeStmt]
      exact Closes.balanced ((closes_examine value).typed fun _ => .pure _)
  | branch condition branches =>
      rw [typeStmt]
      exact Closes.balanced ((closes_examine condition).typed fun _ => closes_typeBranches branches)
  | foreach isVar type name iterable body =>
      rw [typeStmt]
      refine Closes.balanced ((closes_examine iterable).typed fun t => ?_)
      have hbody : ∀ element, Closes 0 (do
          openScope
          bindVariable name element
          typeStmt declared body
          closeScope) := fun element =>
        .opened (.bound (binds_bindVariable name element) fun _ =>
          .bound (balances_typeStmt body).1 fun _ => .closed)
      dsimp only
      split
      · exact Closes.known.bind fun _ => Closes.bind (.pure _) hbody
      · exact (closes_resolveType type).bind hbody

theorem binds_typeStmts (ss : List Stmt) : Binds (typeStmts declared ss) := by
  cases ss with
  | nil => exact .of_closes (.pure ())
  | cons s ss =>
      rw [typeStmts]
      exact (balances_typeStmt s).1.bind fun _ => binds_typeStmts ss

/-- Variables of a branch are gone behind it. -/
theorem closes_typeBranches (ss : List Stmt) : Closes 0 (typeBranches declared ss) := by
  cases ss with
  | nil => exact .pure _
  | cons s ss =>
      rw [typeBranches]
      exact .opened (.bound (balances_typeStmt s).1 fun _ => .closing (closes_typeBranches ss))

theorem binds_typeLocals (written : Option TypeId) (ds : List Declarator) :
    Binds (typeLocals declared written ds) := by
  cases ds with
  | nil => exact .of_closes (.pure ())
  | cons d ds =>
      cases d with
      | mk span name init =>
          rw [typeLocals]
          exact .bind (.of_closes (closes_examine init)) fun _ =>
            .bind (.of_closes (closes_settle init _)) fun _ =>
              .bind (.of_closes (closes_record _ _ _)) fun _ =>
                (binds_bindVariable _ _).bind fun _ => binds_typeLocals written ds

end

theorem binds_typeStmt (s : Stmt) : Binds (typeStmt declared s) := (balances_typeStmt declared s).1

/-- A statement that declares no variables leaves all scopes as they are. -/
theorem closes_typeStmt (s : Stmt) (h : s.declaresVariables = false) :
    Closes 0 (typeStmt declared s) :=
  (balances_typeStmt declared s).2 h

/-! ### Members and items -/

/-- What is known when the members of a type are about to be typed. -/
def TypingState.entered (s : TypingState) (isNested : Bool) (decl : TypeDecl) : TypingState :=
  match decl.name, isNested with
  | some name, false =>
    let (t, r) := s.registry.intern (.named s.context.home name [])
    { s with registry := r, thisType := some t, scopes := [] }
  | _, _ => { s with thisType := none, scopes := [] }

theorem TypingState.context_entered (s : TypingState) (isNested : Bool) (decl : TypeDecl) :
    (s.entered isNested decl).context = s.context := by
  unfold TypingState.entered
  split
  · rfl
  · rfl

theorem TypingState.grows_entered (s : TypingState) (isNested : Bool) (decl : TypeDecl) :
    s.registry.Grows (s.entered isNested decl).registry := by
  unfold TypingState.entered
  split
  · exact s.registry.grows_intern _
  · exact .refl _

theorem closes_typeExpr (e : Expr) : Closes 0 (typeExpr declared e) :=
  (closes_examine declared e).bind fun _ => closes_settle e _

theorem closes_typeFields (type : TypeId) (ds : List Declarator) :
    Closes 0 (typeFields declared type ds) := by
  induction ds with
  | nil => exact .pure _
  | cons d ds ih =>
      cases d with
      | mk span name init =>
          exact (closes_typeExpr declared init).bind fun _ => (closes_record _ _ _).bind fun _ => ih

theorem closes_typeBlockOf (body : Body) : Closes 0 (typeBlockOf declared body) := by
  cases body with
  | missing => exact .pure _
  | expr value => exact .pure _
  | block stmts => exact closes_typeStmt declared (.block stmts) rfl

theorem closes_typeBody (body : Body) : Closes 0 (typeBody declared body) := by
  cases body with
  | missing => exact .pure _
  | expr value => exact (closes_typeExpr declared value).bind fun _ => .pure _
  | block stmts => exact closes_typeBlockOf declared (.block stmts)

theorem closes_accessors (as : List Accessor) :
    Closes 0 (as.forM fun a => typeBlockOf declared a.body) := by
  induction as with
  | nil => exact .pure _
  | cons a as ih => exact (closes_typeBlockOf declared a.body).bind fun _ => ih

/-- The parameters of a method or constructor are gone behind it. -/
theorem closes_method (params : List Param) {body : TypingM Unit} (h : Closes 0 body) :
    Closes 0 (do
      openScope
      bindMethodParams declared params
      body
      closeScope) :=
  .opened (.bound (binds_bindMethodParams params) fun _ => .bound (.of_closes h) fun _ => .closed)

/-- A type is typed with its members in sight and no scopes around, and in the end all is as it
    was. -/
theorem typeDecl_eq (isNested : Bool) (decl : TypeDecl) (s : TypingState) :
    (typeDecl declared isNested decl s).2
      = { (typeTypeMembers declared decl.members (s.entered isNested decl)).2 with
          thisType := s.thisType, scopes := s.scopes } := by
  cases decl with
  | mk span keyword name modifiers bases members isClosed =>
      rw [typeDecl]
      cases name with
      | none => rfl
      | some name =>
          cases isNested with
          | false => rfl
          | true => rfl

mutual

/-- A type leaves everything around it as it is. -/
theorem closes_typeDecl (isNested : Bool) (decl : TypeDecl) :
    Closes 0 (typeDecl declared isNested decl) := by
  intro s
  have hinner : Closes 0 (typeTypeMembers declared decl.members) := by
    cases decl with
    | mk span keyword name modifiers bases members isClosed => exact closes_typeTypeMembers members
  have hmembers := (hinner (s.entered isNested decl)).1
  have hentered := s.context_entered isNested decl
  rw [typeDecl_eq]
  exact ⟨⟨hmembers.context.trans hentered, rfl,
    (s.grows_entered isNested decl).trans hmembers.registry⟩, rfl⟩

theorem closes_typeTypeMembers (ms : List Member) : Closes 0 (typeTypeMembers declared ms) := by
  cases ms with
  | nil => exact .pure _
  | cons m ms =>
      rw [typeTypeMembers]
      exact (closes_typeMember m).bind fun _ => closes_typeTypeMembers ms

/-- So does a member of a type. -/
theorem closes_typeMember (m : Member) : Closes 0 (typeMember declared m) := by
  cases m with
  | field isStatic type declarators =>
      rw [typeMember]
      exact (closes_resolveType type).bind fun t => closes_typeFields declared t declarators
  | property isStatic type name accessors value =>
      rw [typeMember]
      exact (closes_typeExpr declared value).bind fun _ => closes_accessors declared _
  | method isStatic type name params body =>
      rw [typeMember]
      exact closes_method declared params (closes_typeBody declared body)
  | constructor name params body =>
      rw [typeMember]
      exact closes_method declared params (closes_typeBlockOf declared body)
  | type decl =>
      rw [typeMember]
      exact closes_typeDecl true decl

end

/-- In a namespace names are looked up elsewhere, but not behind it. -/
theorem binds_namespace {path : Option (List String)} {isFileScoped : Bool} {items : List Item}
    (h : Binds (typeItems declared items)) :
    Binds (typeItem declared (.namespaceDecl path isFileScoped items)) := by
  intro s
  rw [typeItem]
  rcases h { s with context := s.context.enter path items } with ⟨hstays, added, hadded⟩
  exact ⟨⟨rfl, hstays.thisType, hstays.registry⟩, added, hadded⟩

mutual

theorem binds_typeItem (item : Item) : Binds (typeItem declared item) := by
  cases item with
  | usingDirective path => exact .of_closes (.pure ())
  | namespaceDecl path isFileScoped items => exact binds_namespace declared (binds_typeItems items)
  | type decl =>
      rw [typeItem]
      exact .of_closes (closes_typeDecl declared false decl)
  | stmt stmt =>
      rw [typeItem]
      exact binds_typeStmt declared stmt

/-- Items may bind variables. -/
theorem binds_typeItems (items : List Item) : Binds (typeItems declared items) := by
  cases items with
  | nil => exact .of_closes (.pure ())
  | cons item items =>
      rw [typeItems]
      exact (binds_typeItem item).bind fun _ => binds_typeItems items

end

end Parts

/-! ### Calls -/

/-- A part of a program that typing goes through in a scope that may have others around it. -/
inductive Call where
  | items (items : List Item)
  | typeDecl (isNested : Bool) (decl : TypeDecl)
  | member (member : Member)
  | stmt (stmt : Stmt)
  /-- Statements in braces. -/
  | block (stmts : List Stmt)
  /-- A statement that is done or not. -/
  | branch (stmt : Stmt)
  | expr (e : Expr)
  /-- A lambda, the first parameters of which have the types that are given. -/
  | lambda (params : List LambdaParam) (body : Body) (types : List TypeId)
  /-- A call of what an expression refers to. -/
  | call (span : Text.Span) (callee : Expr) (args : List Expr)
  /-- The arguments of a query that enumerates elements of a type. -/
  | query (element : TypeId) (args : List Expr)

namespace Call

/-- What is known after typing a part of a program. -/
def after (declared : DeclaredTypes) (s : TypingState) : Call → TypingState
  | items is => (typeItems declared is s).2
  | typeDecl isNested decl => (Typing.typeDecl declared isNested decl s).2
  | member m => (typeMember declared m s).2
  | stmt st => (typeStmt declared st s).2
  | block sts => (typeStmt declared (.block sts) s).2
  | branch st => (typeBranches declared [st] s).2
  | expr e => (typeExpr declared e s).2
  | lambda params body types => (typeLambda declared params body types s).2
  | call span callee args => (examine declared (.call span callee args) s).2
  | query element args => (typeQueryArgs declared element args s).2

/-- Whether a part of a program may declare variables that stay behind it. -/
def bindsBehind : Call → Bool
  | items _ => true
  | stmt st => st.declaresVariables
  | _ => false

end Call

variable {declared : DeclaredTypes}

/-- All parts of a program but items and statements leave all scopes as they are. -/
theorem closes_call {c : Call} (h : c.bindsBehind = false) (s : TypingState) :
    s.Stays (c.after declared s) ∧ (c.after declared s).scopes = s.scopes := by
  cases c with
  | items is => cases h
  | typeDecl isNested decl => exact closes_typeDecl declared isNested decl s
  | member m => exact closes_typeMember declared m s
  | stmt st => exact closes_typeStmt declared st h s
  | block sts => exact closes_typeStmt declared (.block sts) rfl s
  | branch st => exact closes_typeBranches declared [st] s
  | expr e => exact closes_typeExpr declared e s
  | lambda params body types => exact closes_typeLambda declared params body types s
  | call span callee args => exact closes_examine declared (.call span callee args) s
  | query element args => exact closes_typeQueryArgs declared element args s

/-- No part of a program does more to the scopes than to bind variables. -/
theorem binds_call (c : Call) (s : TypingState) :
    s.Stays (c.after declared s)
      ∧ ∃ added, (c.after declared s).scopes = s.scopes.modifyHead (added ++ ·) := by
  cases hbinds : c.bindsBehind with
  | true =>
      cases c with
      | items is => exact binds_typeItems declared is s
      | stmt st => exact binds_typeStmt declared st s
      | _ => cases hbinds
  | false =>
      have hclosed : s.Stays (c.after declared s) ∧ (c.after declared s).scopes = s.scopes :=
        closes_call hbinds s
      refine ⟨hclosed.1, [], hclosed.2.trans ?_⟩
      exact (congrFun List.modifyHead_id s.scopes).symm

/-! ### Values of names -/

/-- The type in sight, if there is one, is registered. -/
def TypingState.SeesRegistered (s : TypingState) : Prop :=
  ∀ t, s.thisType = some t → (s.registry.shape? t).isSome

namespace TypingState

variable {s s' : TypingState}

theorem Stays.seesRegistered (h : s.Stays s') (hs : s.SeesRegistered) : s'.SeesRegistered := by
  intro t ht
  rw [h.thisType] at ht
  rcases Option.isSome_iff_exists.mp (hs t ht) with ⟨shape, hshape⟩
  rw [h.registry.shape? hshape]
  rfl

/-- What the name of a variable or a member means depends on the scopes and the type in sight. -/
theorem Stays.value? (h : s.Stays s') (hscopes : s'.scopes = s.scopes) (hs : s.SeesRegistered)
    (name : String) : s'.value? declared name = s.value? declared name := by
  have hlocal : s'.localType? name = s.localType? name := by
    unfold TypingState.localType?
    rw [hscopes]
  have hmember : ∀ t, s.thisType = some t →
      declared.member? s'.registry t name = declared.member? s.registry t name := by
    intro t ht
    rcases Option.isSome_iff_exists.mp (hs t ht) with ⟨shape, hshape⟩
    unfold DeclaredTypes.member? DeclaredTypes.ofType?
    rw [hshape, h.registry.shape? hshape]
  unfold TypingState.value?
  rw [hlocal, h.thisType]
  split
  · rfl
  · cases hthis : s.thisType with
    | none => rfl
    | some t => exact hmember t hthis

theorem seesRegistered_initial (file : SourceFile) (r : Registry) :
    (initial file r).SeesRegistered := nofun

/-- A type that comes into sight is registered first. -/
theorem seesRegistered_entered (s : TypingState) (isNested : Bool) (decl : TypeDecl) :
    (s.entered isNested decl).SeesRegistered := by
  unfold TypingState.entered
  split
  · next name _ =>
      rintro t ⟨⟩
      show (Registry.shape? (s.registry.intern _).2 (s.registry.intern _).1).isSome
      rw [Registry.shape?_intern]
      rfl
  · nofun

end TypingState

/-- Scopes are balanced. Whatever part of a program is typed, names are looked up afterwards where
    they were before, the same type is in sight, there are as many scopes, and all but the
    innermost are as they were. The innermost is so, too, unless the part is a list of items or a
    statement that declares variables, and then it has only got more variables. Where all scopes are
    as they were, every name has the same value as before, given that the type in sight is
    registered: it is at the start of a file, it stays so whatever is typed, and it is while the
    members of a type are typed. -/
theorem scopes_balanced (declared : DeclaredTypes) :
    (∀ (c : Call) (s : TypingState),
      (c.after declared s).context = s.context
      ∧ (c.after declared s).thisType = s.thisType
      ∧ (c.after declared s).scopes.length = s.scopes.length
      ∧ (c.after declared s).scopes.tail = s.scopes.tail
      ∧ (∃ added, (c.after declared s).scopes.head? = s.scopes.head?.map (added ++ ·))
      ∧ (c.bindsBehind = false → (c.after declared s).scopes = s.scopes)
      ∧ (s.SeesRegistered → (c.after declared s).SeesRegistered
        ∧ (c.bindsBehind = false → ∀ name,
          (c.after declared s).value? declared name = s.value? declared name)))
    ∧ (∀ file r, (TypingState.initial file r).SeesRegistered)
    ∧ ∀ isNested decl s, (s.entered isNested decl).SeesRegistered
      ∧ (typeDecl declared isNested decl s).2
        = { (typeTypeMembers declared decl.members (s.entered isNested decl)).2 with
            thisType := s.thisType, scopes := s.scopes } := by
  refine ⟨fun c s => ?_, TypingState.seesRegistered_initial, fun isNested decl s =>
    ⟨s.seesRegistered_entered isNested decl, typeDecl_eq declared isNested decl s⟩⟩
  obtain ⟨hstays, added, hadded⟩ :
      s.Stays (c.after declared s)
        ∧ ∃ added, (c.after declared s).scopes = s.scopes.modifyHead (added ++ ·) :=
    binds_call c s
  have hclosed : c.bindsBehind = false → (c.after declared s).scopes = s.scopes :=
    fun h => (closes_call h s).2
  refine ⟨hstays.context, hstays.thisType, ?_, ?_, ⟨added, ?_⟩, hclosed, fun hs =>
    ⟨?_, fun h name => ?_⟩⟩
  · rw [hadded, List.length_modifyHead]
  · rw [hadded, List.tail_modifyHead]
  · rw [hadded, List.head?_modifyHead]
  · exact hstays.seesRegistered hs
  · exact hstays.value? (hclosed h) hs name

/-- Behind `int x = 1;` there is a variable that there is not behind `{ int x = 1; }`. -/
theorem scopes_balanced_block :
    let number : Stmt := .locals false (.predefined (some "int"))
      [.mk ⟨4, 9⟩ (some "x") (.literal ⟨8, 9⟩ (some ⟨.intLiteral, "1"⟩))]
    let s := TypingState.initial ⟨[]⟩ Registry.initial
    ((Call.stmt number).after .empty s).value? .empty "x" = some (.primitive .int)
      ∧ s.value? .empty "x" = none
      ∧ ((Call.block [number]).after .empty s).value? .empty "x" = s.value? .empty "x" := by
  refine ⟨by decide, by decide, ?_⟩
  have hblock := (scopes_balanced .empty).1
    (.block [.locals false (.predefined (some "int"))
      [.mk ⟨4, 9⟩ (some "x") (.literal ⟨8, 9⟩ (some ⟨.intLiteral, "1"⟩))]])
    (TypingState.initial ⟨[]⟩ Registry.initial)
  rcases hblock with ⟨_, _, _, _, _, _, hvalues⟩
  exact (hvalues ((scopes_balanced .empty).2.1 _ _)).2 rfl "x"

end Typing

end Nominal
