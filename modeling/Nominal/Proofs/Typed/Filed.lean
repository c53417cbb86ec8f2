import Nominal.Proofs.Typed

/-!
# Filing Types Once

A type is filed under the kind and the span of an expression, and what is filed last counts. So it
matters that nothing is filed twice. No step of typing files a type under a key more often than it
comes across an expression with that key; what typing comes across is a matter of the program, and
there it can be counted.

What a step answers is filed as well: once an expression is settled, its type is found under its
key, whether it was filed when the expression was examined or afterwards.

## Main definitions

* `Expr.key?`: What the type of an expression is filed under.
* `Files`: A step of typing that files types for the expressions that it comes across.
* `IsFiled`: A type is the one that has been filed for an expression.

## Theorems

* `itemLaw_files`: No type is filed more often than its expression is visited.
* `isFiled_settle`: The type of an expression that is settled has been filed.
-/

namespace Nominal

open Text (Span)
open Nominal.Types (TypeId DeclaredTypes Registry)
open Program

/-- What the type of an expression is filed under, if the expression is there. -/
def Program.Expr.key? (e : Expr) : Option Typing.NodeKey := e.span?.map fun span => ⟨e.kind, span⟩

theorem Program.Expr.key?_eq_some {e : Expr} {span : Span} (h : e.span? = some span) :
    e.key? = some ⟨e.kind, span⟩ := by
  rw [key?, h]
  rfl

namespace Typing

/-- How often a type is filed under a key. -/
def timesFiled (key : NodeKey) (records : List (NodeKey × TypeId)) : Nat :=
  records.countP fun r => r.1 == key

/-- How often an expression with a key is visited. -/
def timesVisited (key : NodeKey) (es : List Expr) : Nat := es.countP fun e => e.key? == some key

@[simp]
theorem timesVisited_append (key : NodeKey) (es fs : List Expr) :
    timesVisited key (es ++ fs) = timesVisited key es + timesVisited key fs := List.countP_append

/-- A step of typing files a type for an expression no more often than it comes across it. -/
def Files : StepProperty := fun _ c es =>
  ∀ s : TypingState, ∃ new, (c s).2.records = new ++ s.records ∧
    ∀ key : NodeKey, key.kind ≠ .lambdaParam → key.kind ≠ .varDeclarator →
      timesFiled key new ≤ timesVisited key es

variable {declared : DeclaredTypes} {α : Type}

namespace Files

variable {β : Type} {c : TypingM α} {es : List Expr}

theorem quiet (h : ∀ s : TypingState, (c s).2.records = s.records) : Files α c [] :=
  fun s => ⟨[], h s, fun _ _ _ => Nat.le_refl 0⟩

/-- The type of an expression is filed where that expression is come across. -/
theorem file {e : Expr} {span : Span} (h : e.span? = some span) (type : TypeId) :
    Files Unit (record e.kind span type) [e] := by
  intro s
  refine ⟨[(⟨e.kind, span⟩, type)], rfl, fun key _ _ => Nat.le_of_eq ?_⟩
  rw [timesFiled, timesVisited, List.countP_singleton, List.countP_singleton,
    Expr.key?_eq_some h, Option.some_beq_some]

end Files

theorem stepLaw_files : StepLaw declared Files where
  pure _ := .quiet fun _ => rfl
  bind_of := by
    intro α β c f es fs Q hc ha hf s
    rcases hc s with ⟨new, hnew, hcount⟩
    rcases hf (c s).1 (ha s) (c s).2 with ⟨new', hnew', hcount'⟩
    refine ⟨new' ++ new, ?_, fun key hparam hvariable => ?_⟩
    · have hrun : ((c >>= f) s).2 = (f (c s).1 (c s).2).2 := rfl
      rw [hrun, hnew', hnew, List.append_assoc]
    · have hfirst := hcount key hparam hvariable
      have hnext := hcount' key hparam hvariable
      rw [timesFiled] at hfirst hnext ⊢
      rw [List.countP_append, timesVisited_append]
      omega
  known := .quiet fun _ => rfl
  aside _ h _ _ := .quiet h
  record := by
    intro kind hkind span type s
    refine ⟨[(⟨kind, span⟩, type)], rfl, fun key hparam hvariable => Nat.le_of_eq ?_⟩
    -- Parameters and variables have kinds of their own.
    rw [timesFiled, List.countP_singleton, if_neg]
    · rfl
    · rw [beq_iff_eq]
      rintro rfl
      exact hkind.elim hparam hvariable
  file _ hspan type := .file hspan type
  more := by
    intro α c es e _ hc s
    rcases hc s with ⟨new, hnew, hcount⟩
    refine ⟨new, hnew, fun key hparam hvariable => ?_⟩
    have hless := hcount key hparam hvariable
    rw [timesVisited_append]
    omega
  internArray _ := .quiet fun _ => rfl
  internDerived? := by
    intro derived _
    cases derived with
    | none => exact .quiet fun _ => rfl
    | some d => exact .quiet fun _ => rfl
  resolveType _ := .quiet fun _ => rfl
  resolveName _ := .quiet fun _ => rfl

/-- No type is filed more often than its expression is visited. -/
theorem itemLaw_files : ItemLaw declared Files where
  toStepLaw := stepLaw_files
  anonymous span keyword members h := by
    have law : StepLaw declared Files := stepLaw_files
    have hadd : ∀ found m type, Files AnonymousMembers (addAnonymousMember found m type) [] := by
      intro found m type
      rw [addAnonymousMember]
      split
      · exact .quiet fun _ => rfl
      · split
        · exact .quiet fun _ => rfl
        · exact .quiet fun _ => rfl
    rw [examine]
    refine law.bind (law.typeMembers hadd ⟨[], true⟩ h) fun found => ?_
    have hfile : ∀ t, Files Referent (recordValue (.anonymous span keyword members) t)
        [.anonymous span keyword members] := fun t =>
      law.last (.file (e := .anonymous span keyword members) rfl t) fun _ => law.pure _
    dsimp only
    split
    · exact law.first (.quiet fun _ => rfl) hfile
    · exact hfile .unknown
  context _ := .quiet fun _ => rfl
  internNamed _ _ := .quiet fun _ => rfl

/-- In a file no type is filed more often than its expression is visited. -/
theorem timesFiled_typeFile (file : SourceFile) (r : Registry) {key : NodeKey}
    (hparam : key.kind ≠ .lambdaParam) (hvariable : key.kind ≠ .varDeclarator) :
    timesFiled key (typeFile declared file r).records
      ≤ timesVisited key (visitedOfItems file.items) := by
  have hfiles : Files Unit (typeItems declared file.items) (visitedOfItems file.items) :=
    itemLaw_files.typeItems file.items
  rcases hfiles (TypingState.initial file r) with ⟨new, hnew, hcount⟩
  have hall : (typeFile declared file r).records = new := hnew.trans (List.append_nil new)
  rw [hall]
  exact hcount key hparam hvariable

/-! ### Answers are filed -/

/-- A type is the one that has been filed for an expression. What is not there has the unknown
    type. -/
def IsFiled (records : List (NodeKey × TypeId)) (e : Expr) (type : TypeId) : Prop :=
  match e.key? with
  | some key => (key, type) ∈ records
  | none => type = .unknown

theorem IsFiled.mono {records records' : List (NodeKey × TypeId)} {e : Expr} {type : TypeId}
    (h : IsFiled records e type) (hsub : records ⊆ records') : IsFiled records' e type := by
  unfold IsFiled at h ⊢
  split at h
  · exact hsub h
  · exact h

/-- What holds of the answer of a step and of what is known then. -/
def Leaves (c : TypingM α) (P : α → TypingState → Prop) : Prop :=
  ∀ s : TypingState, P (c s).1 (c s).2

namespace Leaves

variable {β : Type} {c : TypingM α} {f : α → TypingM β} {P : β → TypingState → Prop}

theorem pure {b : β} (h : ∀ s, P b s) : Leaves (Pure.pure b) P := h

/-- It is the last step that counts. -/
theorem last (hf : ∀ a, Leaves (f a) P) : Leaves (c >>= f) P := fun s => hf (c s).1 (c s).2

end Leaves

/-- If a value is referred to, its type has been filed. -/
def IsValueFiled (e : Expr) (r : Referent) (s : TypingState) : Prop :=
  ∀ t, r = .value t → ∃ key, e.key? = some key ∧ (key, t) ∈ s.records

theorem isValueFiled_recordValue (e : Expr) (type : TypeId) :
    Leaves (recordValue e type) (IsValueFiled e) := by
  rw [recordValue]
  split
  · next span hspan =>
      intro s t ht
      cases ht
      exact ⟨_, Expr.key?_eq_some hspan, List.mem_cons_self⟩
  · exact .pure fun _ _ ht => by cases ht

theorem isValueFiled_examineName (span : Span) (token : Option Syntax.Lexeme) :
    Leaves (examineName declared span token) (IsValueFiled (.name span token)) := by
  rw [examineName.eq_def]
  split
  · exact .pure fun _ _ ht => by cases ht
  · split
    · split
      · exact .pure fun _ _ ht => by cases ht
      · exact .pure fun _ _ ht => by cases ht
    · refine .last fun known => ?_
      split
      · exact isValueFiled_recordValue (.name span _) _
      · refine .last fun t => ?_
        split
        · exact .pure fun _ _ ht => by cases ht
        · split
          · exact .pure fun _ _ ht => by cases ht
          · exact .pure fun _ _ ht => by cases ht

theorem isValueFiled_examineMember (span : Span) (receiver : Expr) (referent : Referent)
    (name : String) : Leaves (examineMember declared span referent name)
      (IsValueFiled (.member span receiver (some name))) := by
  have hfile : ∀ t, Leaves (recordValue (.member span receiver (some name)) t)
      (IsValueFiled (.member span receiver (some name))) :=
    isValueFiled_recordValue _
  cases referent with
  | namespacePath path =>
      rw [examineMember, examineInNamespace]
      refine .last fun t => ?_
      split
      · exact .pure fun _ _ ht => by cases ht
      · split
        · exact .pure fun _ _ ht => by cases ht
        · exact .pure fun _ _ ht => by cases ht
  | type owner =>
      rw [examineMember]
      refine .last fun t => ?_
      cases t with
      | none => exact .pure fun _ _ ht => by cases ht
      | some t => exact hfile t
  | value owner =>
      rw [examineMember]
      refine .last fun t => ?_
      cases t with
      | none => exact .pure fun _ _ ht => by cases ht
      | some t => exact hfile t
  | nothing => exact .pure fun _ _ ht => by cases ht

/-- If an expression refers to a value, the type of the value is filed when it is examined. -/
theorem isValueFiled_examine (e : Expr) : Leaves (examine declared e) (IsValueFiled e) := by
  cases hkind : [Syntax.Kind.memberAccess, .nameRef, .error].contains e.kind with
  | false =>
      have hends : EndsFiling e (examine declared e) := endsFiling_examine hkind
      rcases hends with ⟨c, hc⟩
      rw [hc]
      exact .last (isValueFiled_recordValue e)
  | true =>
      cases e with
      | missing => exact .pure fun _ _ ht => by cases ht
      | name span token => exact isValueFiled_examineName span token
      | member span receiver name =>
          cases name with
          | none => exact .pure fun _ _ ht => by cases ht
          | some name =>
              rw [examine]
              exact .last fun r => isValueFiled_examineMember span receiver r name
      | _ => cases hkind

/-- What refers to no value is filed as unknown when it is settled, if it is there. -/
theorem isFiled_settle_of_ne (e : Expr) {r : Referent} (hr : ∀ t, r ≠ .value t) :
    Leaves (settle e r) fun t s => IsFiled s.records e t := by
  intro s
  rw [settle.eq_def, IsFiled]
  cases hspan : e.span? with
  | none =>
      rw [Expr.key?, hspan]
      cases r with
      | value t => exact absurd rfl (hr t)
      | _ => rfl
  | some span =>
      rw [Expr.key?_eq_some hspan]
      cases r with
      | value t => exact absurd rfl (hr t)
      | _ => exact List.mem_cons_self

/-- Once an expression is settled, its type has been filed. -/
theorem isFiled_settle (e : Expr) :
    Leaves (examine declared e >>= settle e) fun t s => IsFiled s.records e t := by
  intro s
  have hvalue : IsValueFiled e (examine declared e s).1 (examine declared e s).2 :=
    isValueFiled_examine e s
  have hrun : (examine declared e >>= settle e) s
      = settle e (examine declared e s).1 (examine declared e s).2 := rfl
  rw [hrun]
  cases hr : (examine declared e s).1 with
  | value t =>
      rcases hvalue t hr with ⟨key, hkey, hmem⟩
      rw [IsFiled, hkey]
      exact hmem
  | type | namespacePath | nothing =>
      refine isFiled_settle_of_ne e ?_ _
      exact fun t => nofun

end Typing

end Nominal
