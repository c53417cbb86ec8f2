import Nominal.Proofs.Layout.Squeezed

/-!
# The Program Without Trivia

A tree without trivia is the same program, with its spans moved to where the nodes then stand.

What a node means is put together from the parts that its children are. Each way to pick
something among these parts passes trivia over, and finds what has moved where the unmoved was
found. A literal is the one node that picks its first token whatever it is; but it has no other
token.

## Main definitions

* `Part.dropTrivia`: Parts without those that are trivia.

## Theorems

* `Part.assemble_dropTrivia`: Trivia makes no difference to what parts make up.
* `Part.assemble_move`: What parts make up that have moved has moved.
* `Part.ofTrees_bareOf`: Trees without trivia are the same parts, moved.
* `SourceFile.ofTree_bare`: A tree without trivia is the same program, moved.
-/

namespace Nominal

open Syntax (Kind Lexeme Tree Location Node)
open Text (Span)

/-- The nodes at some locations are moved to where they stand without trivia. -/
def Move.Places (m : Move) (ls : List Lexeme) (locations : List Location) : Prop :=
  ∀ l ∈ locations, m l.node.kind l.span = Lexeme.squeeze ls l.span

namespace Program

namespace Part

/-- Whether a part is a piece of trivia. -/
def isTrivia : Part → Bool
  | .token l => l.isTrivia
  | _ => false

/-- Parts without those that are trivia. -/
def dropTrivia (ps : List Part) : List Part := ps.filter fun p => !p.isTrivia

/-! ### Passing trivia over -/

section DropTrivia

variable {α : Type} (ps : List Part)

theorem filterMap_dropTrivia {f : Part → Option α}
    (hf : ∀ l : Lexeme, l.isTrivia = true → f (.token l) = Option.none) :
    (dropTrivia ps).filterMap f = ps.filterMap f := by
  rw [dropTrivia, List.filterMap_filter]
  refine congrArg (ps.filterMap ·) (funext fun p => ?_)
  cases hp : p.isTrivia with
  | false => rfl
  | true =>
      cases p with
      | token l => exact (hf l hp).symm
      | _ => cases hp

theorem findSome?_dropTrivia {f : Part → Option α}
    (hf : ∀ l : Lexeme, l.isTrivia = true → f (.token l) = Option.none) :
    (dropTrivia ps).findSome? f = ps.findSome? f := by
  rw [← List.head?_filterMap, filterMap_dropTrivia ps hf, List.head?_filterMap]

theorem tokens_dropTrivia : tokens (dropTrivia ps) = Lexeme.bare (tokens ps) := by
  rw [tokens, tokens, Lexeme.bare, List.filter_filterMap, dropTrivia, List.filterMap_filter]
  refine congrArg (ps.filterMap ·) (funext fun p => ?_)
  cases p with
  | token l =>
      rw [isTrivia]
      cases hl : l.isTrivia <;> simp [Option.filter, hl]
  | _ => rfl

theorem token?_dropTrivia {k : Kind} (hk : k.isTrivia = false) :
    token? k (dropTrivia ps) = token? k ps := by
  rw [token?, tokens_dropTrivia, Lexeme.find?_bare (Lexeme.beq_trivia hk), token?]

theorem hasToken_dropTrivia {k : Kind} (hk : k.isTrivia = false) :
    hasToken k (dropTrivia ps) = hasToken k ps := by
  rw [hasToken, token?_dropTrivia ps hk, hasToken]

@[simp]
theorem name?_dropTrivia : name? (dropTrivia ps) = name? ps := by
  rw [name?, token?_dropTrivia ps rfl, name?]

@[simp]
theorem names_dropTrivia : names (dropTrivia ps) = names ps := by
  rw [names, tokens_dropTrivia, Lexeme.filter_bare (Lexeme.beq_trivia rfl), names]

@[simp]
theorem op?_dropTrivia : op? (dropTrivia ps) = op? ps := by
  rw [op?, tokens_dropTrivia, Lexeme.find?_bare (fun l hl => by rw [hl]; rfl), op?]

@[simp]
theorem exprs_dropTrivia : exprs (dropTrivia ps) = exprs ps :=
  filterMap_dropTrivia ps fun _ _ => rfl

@[simp]
theorem exprAt_dropTrivia (n : Nat) : exprAt n (dropTrivia ps) = exprAt n ps := by
  rw [exprAt, exprs_dropTrivia, exprAt]

@[simp]
theorem types_dropTrivia : types (dropTrivia ps) = types ps :=
  filterMap_dropTrivia ps fun _ _ => rfl

@[simp]
theorem firstType_dropTrivia : firstType (dropTrivia ps) = firstType ps := by
  rw [firstType, types_dropTrivia, firstType]

@[simp]
theorem stmts_dropTrivia : stmts (dropTrivia ps) = stmts ps :=
  filterMap_dropTrivia ps fun _ _ => rfl

@[simp]
theorem declarators_dropTrivia : declarators (dropTrivia ps) = declarators ps :=
  filterMap_dropTrivia ps fun _ _ => rfl

@[simp]
theorem body_dropTrivia : body (dropTrivia ps) = body ps := by
  simp only [body, exprs_dropTrivia]
  rw [findSome?_dropTrivia ps fun _ _ => rfl]

@[simp]
theorem path?_dropTrivia : path? (dropTrivia ps) = path? ps :=
  findSome?_dropTrivia ps fun _ _ => rfl

@[simp]
theorem paramsOf_dropTrivia : paramsOf (dropTrivia ps) = paramsOf ps := by
  rw [paramsOf, paramsOf, findSome?_dropTrivia ps fun _ _ => rfl]

@[simp]
theorem argsOf_dropTrivia : argsOf (dropTrivia ps) = argsOf ps := by
  rw [argsOf, argsOf, findSome?_dropTrivia ps fun _ _ => rfl]

@[simp]
theorem items_dropTrivia : items (dropTrivia ps) = items ps :=
  filterMap_dropTrivia ps fun _ _ => rfl

@[simp]
theorem members_dropTrivia : members (dropTrivia ps) = members ps :=
  filterMap_dropTrivia ps fun _ _ => rfl

end DropTrivia

theorem declaration_dropTrivia (span : Span) (ps : List Part) :
    declaration span (dropTrivia ps) = declaration span ps := by
  have hkeyword : ∀ l : Lexeme, l.isTrivia = true →
      (l.kind == .kwClass || l.kind == .kwStruct) = false := fun l hl => by
    rw [Lexeme.beq_trivia rfl l hl, Lexeme.beq_trivia rfl l hl, Bool.or_self]
  have hmodifier : ∀ l : Lexeme, l.isTrivia = true → l.kind.isModifier = false := fun l hl => by
    rw [Lexeme.isTrivia] at hl
    revert hl
    cases l.kind <;> decide
  simp only [declaration, tokens_dropTrivia, Lexeme.find?_bare hkeyword, Lexeme.filter_bare hmodifier,
    name?_dropTrivia, members_dropTrivia, hasToken_dropTrivia ps (k := .braceClose) rfl]
  rw [findSome?_dropTrivia ps fun _ _ => rfl]

theorem expression_dropTrivia (kind : Kind) (span : Span) (ps : List Part)
    (hliteral : kind = .literal → dropTrivia ps = ps) :
    expression kind span (dropTrivia ps) = expression kind span ps := by
  cases kind with
  | literal => rw [hliteral rfl]
  | nameRef =>
      have hname : ∀ l : Lexeme, l.isTrivia = true →
          (l.kind == .id || l.kind == .predefinedType) = false := fun l hl => by
        rw [Lexeme.beq_trivia rfl l hl, Lexeme.beq_trivia rfl l hl, Bool.or_self]
      simp only [expression, tokens_dropTrivia, Lexeme.find?_bare hname]
  | lambda =>
      simp only [expression, body_dropTrivia]
      rw [findSome?_dropTrivia ps fun _ _ => rfl]
  | anonObjectCreation =>
      simp only [expression, token?_dropTrivia ps (k := .kwNew) rfl]
      rw [filterMap_dropTrivia ps fun _ _ => rfl]
  | objectCreation =>
      simp only [expression, firstType_dropTrivia, argsOf_dropTrivia]
      rw [findSome?_dropTrivia ps fun _ _ => rfl]
  | arrayCreation =>
      simp only [expression, firstType_dropTrivia, exprs_dropTrivia]
      rw [findSome?_dropTrivia ps fun _ _ => rfl]
  | _ => simp [expression]

/-- Trivia makes no difference to what parts make up. -/
theorem assemble_dropTrivia (kind : Kind) (span : Span) (ps : List Part)
    (hliteral : kind = .literal → dropTrivia ps = ps) :
    assemble kind span (dropTrivia ps) = assemble kind span ps := by
  have hexpr := expression_dropTrivia kind span ps hliteral
  have hstatic := hasToken_dropTrivia ps (k := .kwStatic) rfl
  have hvar := hasToken_dropTrivia ps (k := .kwVar) rfl
  have hsemicolon := hasToken_dropTrivia ps (k := .semicolon) rfl
  have hequals := hasToken_dropTrivia ps (k := .equals) rfl
  cases kind with
  | literal | nameRef | thisExpr | parenExpr | memberAccess | call | indexExpr | prefixExpr
  | postfixExpr | binaryExpr | assignExpr | conditionalExpr | castExpr | lambda
  | anonObjectCreation | objectCreation | arrayCreation => exact congrArg Part.expr hexpr
  | typeDecl => exact congrArg Part.typeDecl (declaration_dropTrivia span ps)
  | propertyDecl =>
      simp only [assemble, hstatic, firstType_dropTrivia, name?_dropTrivia,
        exprAt_dropTrivia]
      rw [findSome?_dropTrivia ps fun _ _ => rfl]
  | accessorList => exact congrArg Part.accessors (filterMap_dropTrivia ps fun _ _ => rfl)
  | paramList => exact congrArg Part.params (filterMap_dropTrivia ps fun _ _ => rfl)
  | namedType =>
      simp only [assemble, names_dropTrivia]
      rw [findSome?_dropTrivia ps fun _ _ => rfl]
  | predefType => simp only [assemble, token?_dropTrivia ps (k := .predefinedType) rfl]
  | lambdaParamList => exact congrArg Part.lambdaParams (filterMap_dropTrivia ps fun _ _ => rfl)
  | objectInit =>
      simp only [assemble, exprs_dropTrivia]
      rw [filterMap_dropTrivia ps fun _ _ => rfl]
  | _ => simp [assemble, hstatic, hvar, hsemicolon, hequals]

/-! ### Picking among parts that have moved -/

section Moves

variable {m : Move} {α : Type} (ps : List Part)

theorem filterMap_move {f : Part → Option α} {g : α → α}
    (hf : ∀ p : Part, f (p.move m) = (f p).map g) :
    (ps.map (move m)).filterMap f = (ps.filterMap f).map g := by
  rw [List.filterMap_map, List.map_filterMap]
  exact congrArg (ps.filterMap ·) (funext hf)

theorem findSome?_move {f : Part → Option α} {g : α → α}
    (hf : ∀ p : Part, f (p.move m) = (f p).map g) :
    (ps.map (move m)).findSome? f = (ps.findSome? f).map g := by
  rw [← List.head?_filterMap, filterMap_move ps hf, List.head?_map, List.head?_filterMap]

@[simp]
theorem tokens_move : tokens (ps.map (move m)) = tokens ps := by
  rw [tokens, filterMap_move ps (g := id) fun p => by cases p <;> rfl, List.map_id, tokens]

@[simp]
theorem token?_move (k : Kind) : token? k (ps.map (move m)) = token? k ps := by
  rw [token?, tokens_move, token?]

@[simp]
theorem hasToken_move (k : Kind) : hasToken k (ps.map (move m)) = hasToken k ps := by
  rw [hasToken, token?_move, hasToken]

@[simp]
theorem name?_move : name? (ps.map (move m)) = name? ps := by rw [name?, token?_move, name?]

@[simp]
theorem names_move : names (ps.map (move m)) = names ps := by rw [names, tokens_move, names]

@[simp]
theorem op?_move : op? (ps.map (move m)) = op? ps := by rw [op?, tokens_move, op?]

@[simp]
theorem exprs_move : exprs (ps.map (move m)) = (exprs ps).map (Expr.move m) :=
  filterMap_move ps fun p => by cases p <;> rfl

@[simp]
theorem exprAt_move (n : Nat) : exprAt n (ps.map (move m)) = (exprAt n ps).move m := by
  rw [exprAt, exprs_move, List.getElem?_map, exprAt]
  cases (exprs ps)[n]? <;> rfl

@[simp]
theorem types_move : types (ps.map (move m)) = types ps := by
  rw [types, filterMap_move ps (g := id) fun p => by cases p <;> rfl, List.map_id, types]

@[simp]
theorem firstType_move : firstType (ps.map (move m)) = firstType ps := by
  rw [firstType, types_move, firstType]

@[simp]
theorem stmts_move : stmts (ps.map (move m)) = (stmts ps).map (Stmt.move m) :=
  filterMap_move ps fun p => by cases p <;> rfl

@[simp]
theorem declarators_move :
    declarators (ps.map (move m)) = (declarators ps).map (Declarator.move m) :=
  filterMap_move ps fun p => by cases p <;> rfl

@[simp]
theorem body_move : body (ps.map (move m)) = (body ps).move m := by
  simp only [body, exprs_move, List.head?_map]
  rw [findSome?_move ps (g := List.map (Stmt.move m)) fun p => by
    cases p with
    | stmt s =>
        cases s with
        | block ss => exact congrArg some (moveStmts_eq ss)
        | _ => rfl
    | _ => rfl]
  generalize ps.findSome? _ = found
  cases found with
  | some ss => exact congrArg Body.block (moveStmts_eq ss).symm
  | none => cases (exprs ps).head? <;> rfl

@[simp]
theorem path?_move : path? (ps.map (move m)) = path? ps := by
  rw [path?, findSome?_move ps (g := id) fun p => by cases p <;> rfl, Option.map_id, id_eq, path?]

@[simp]
theorem paramsOf_move : paramsOf (ps.map (move m)) = paramsOf ps := by
  rw [paramsOf, findSome?_move ps (g := id) fun p => by cases p <;> rfl, Option.map_id, id_eq,
    paramsOf]

@[simp]
theorem argsOf_move : argsOf (ps.map (move m)) = (argsOf ps).map (Expr.move m) := by
  rw [argsOf, findSome?_move ps (g := List.map (Expr.move m)) fun p => by
    cases p with
    | args es => exact congrArg some (moveExprs_eq es)
    | _ => rfl, argsOf]
  generalize ps.findSome? _ = found
  cases found <;> rfl

@[simp]
theorem items_move : items (ps.map (move m)) = (items ps).map (Item.move m) :=
  filterMap_move ps fun p => by cases p <;> rfl

@[simp]
theorem members_move : members (ps.map (move m)) = (members ps).map (Member.move m) :=
  filterMap_move ps fun p => by cases p <;> rfl

end Moves

section Assemble

variable {m : Move}

theorem declaration_move (span : Span) (ps : List Part) :
    declaration (m .typeDecl span) (ps.map (move m)) = (declaration span ps).move m := by
  simp only [declaration, tokens_move, name?_move, members_move, hasToken_move, TypeDecl.move,
    moveMembers_eq]
  rw [findSome?_move ps (g := id) fun p => by cases p <;> rfl, Option.map_id, id_eq]

theorem expression_move (kind : Kind) (span : Span) (ps : List Part) :
    expression kind (m kind span) (ps.map (move m)) = (expression kind span ps).move m := by
  cases kind with
  | lambda =>
      simp only [expression, body_move, Expr.move]
      rw [findSome?_move ps (g := List.map (LambdaParam.move m)) fun p => by cases p <;> rfl]
      generalize ps.findSome? _ = found
      cases found <;> rfl
  | anonObjectCreation =>
      simp only [expression, token?_move, Expr.move, moveAnonMembers_eq]
      rw [filterMap_move ps (g := AnonMember.move m) fun p => by cases p <;> rfl]
  | objectCreation =>
      simp only [expression, firstType_move, argsOf_move, Expr.move, moveExprs_eq,
        moveInitializer_eq]
      rw [findSome?_move ps (g := Initializer.move m) fun p => by cases p <;> rfl]
  | arrayCreation =>
      simp only [expression, firstType_move, exprs_move, Expr.move, moveExprs_eq, moveElements_eq]
      rw [findSome?_move ps (g := List.map (Expr.move m)) fun p => by
        cases p with
        | arrayInit es => exact congrArg some (moveExprs_eq es)
        | _ => rfl]
  | _ => simp [expression, Expr.move]

/-- What parts make up that have moved has moved. -/
theorem assemble_move (kind : Kind) (span : Span) (ps : List Part) :
    assemble kind (m kind span) (ps.map (move m)) = (assemble kind span ps).move m := by
  have hexpr := expression_move (m := m) kind span ps
  cases kind with
  | literal | nameRef | thisExpr | parenExpr | memberAccess | call | indexExpr | prefixExpr
  | postfixExpr | binaryExpr | assignExpr | conditionalExpr | castExpr | lambda
  | anonObjectCreation | objectCreation | arrayCreation => exact congrArg Part.expr hexpr
  | typeDecl => exact congrArg Part.typeDecl (declaration_move span ps)
  | propertyDecl =>
      simp only [assemble, hasToken_move, firstType_move, name?_move, exprAt_move, move, Member.move]
      rw [findSome?_move ps (g := List.map (Accessor.move m)) fun p => by cases p <;> rfl]
  | accessorList =>
      exact congrArg Part.accessors
        (filterMap_move ps (g := Accessor.move m) fun p => by cases p <;> rfl)
  | paramList =>
      simp only [assemble, move]
      rw [filterMap_move ps (g := id) fun p => by cases p <;> rfl, List.map_id]
  | namedType =>
      simp only [assemble, names_move, move]
      rw [findSome?_move ps (g := id) fun p => by cases p <;> rfl, Option.map_id, id_eq]
  | lambdaParamList =>
      exact congrArg Part.lambdaParams
        (filterMap_move ps (g := LambdaParam.move m) fun p => by cases p <;> rfl)
  | objectInit =>
      simp only [assemble, exprs_move, move, Initializer.move, moveMemberInits_eq, moveExprs_eq]
      rw [filterMap_move ps (g := MemberInit.move m) fun p => by cases p <;> rfl]
  | foreachStmt =>
      simp only [assemble, hasToken_move, firstType_move, name?_move, exprAt_move, stmts_move, move,
        Stmt.move, List.head?_map]
      cases (stmts ps).head? <;> rfl
  | _ => simp [assemble, move, Item.move, Member.move, Stmt.move, Accessor.move, Declarator.move,
      LambdaParam.move, AnonMember.move, MemberInit.move, SourceFile.move]

end Assemble

/-! ### The parts of trees -/

theorem dropTrivia_cons_of_not {p : Part} (hp : p.isTrivia = false) (ps : List Part) :
    dropTrivia (p :: ps) = p :: dropTrivia ps :=
  List.filter_cons_of_pos (by rw [hp]; rfl)

theorem dropTrivia_cons_of_trivia {p : Part} (hp : p.isTrivia = true) (ps : List Part) :
    dropTrivia (p :: ps) = dropTrivia ps :=
  List.filter_cons_of_neg (by rw [hp]; exact Bool.false_ne_true)

theorem isTrivia_assemble (kind : Kind) (span : Span) (ps : List Part) :
    (assemble kind span ps).isTrivia = false := by
  cases kind <;> rfl

section OfTree

variable {m : Move}

mutual

/-- A tree without trivia is the same part, moved. The lexemes `xs` stand before it, and `zs`
    behind it. -/
theorem ofTree_bare {t : Tree} {above : List Node} {index : Nat} {xs : List Lexeme}
    (zs : List Lexeme) (ht : t.Anchored)
    (hm : m.Places (xs ++ t.leaves ++ zs) (Tree.locationsAt above (Lexeme.widthOf xs) index t)) :
    ofTree (Lexeme.bareWidth xs) t.bare = (ofTree (Lexeme.widthOf xs) t).move m := by
  cases ht with
  | token l => rfl
  | @node kind children _ hliteral _ hbelow =>
      rw [Tree.leaves, Tree.locationsAt, Move.Places, List.forall_mem_cons] at hm
      have hparts := ofTrees_bareOf zs hbelow hm.2
      have hspan : m kind (Span.ofWidth (Lexeme.widthOf xs) (Tree.widthOf children))
          = Span.ofWidth (Lexeme.bareWidth xs) (Tree.widthOf (Tree.bareOf children)) := by
        rw [Tree.widthOf_bareOf, ← Lexeme.squeeze_between, ← Tree.widthOf_eq]
        exact hm.1
      rw [Tree.bare, ofTree, ofTree, hparts, ← hspan, assemble_move, assemble_dropTrivia]
      intro hkind
      rcases hliteral hkind with ⟨l, hl, rfl⟩
      exact dropTrivia_cons_of_not (p := .token l) hl []

/-- Trees without trivia are the same parts, moved. -/
theorem ofTrees_bareOf {ts : List Tree} {above : List Node} {index : Nat} {xs : List Lexeme}
    (zs : List Lexeme) (hts : ∀ t ∈ ts, t.Anchored)
    (hm : m.Places (xs ++ Tree.leavesOf ts ++ zs)
      (Tree.locationsOf above (Lexeme.widthOf xs) index ts)) :
    ofTrees (Lexeme.bareWidth xs) (Tree.bareOf ts)
      = (dropTrivia (ofTrees (Lexeme.widthOf xs) ts)).map (move m) := by
  cases ts with
  | nil => rw [Tree.bareOf_nil]; rfl
  | cons t ts =>
      rw [List.forall_mem_cons] at hts
      have hbehind : Lexeme.widthOf xs + t.width = Lexeme.widthOf (xs ++ t.leaves) := by
        rw [Lexeme.widthOf_append, Tree.width_eq]
      rw [Tree.leavesOf, Tree.locationsOf, hbehind, ← List.append_assoc] at hm
      rw [Move.Places, List.forall_mem_append] at hm
      have hrest := ofTrees_bareOf zs hts.2 hm.2
      rw [ofTrees, hbehind]
      cases t with
      | token l =>
          rw [Tree.leaves, Lexeme.bareWidth_append] at hrest
          rw [Tree.leaves, ofTree]
          cases hl : l.isTrivia with
          | true =>
              rw [Lexeme.bareWidth_trivia hl, Nat.add_zero] at hrest
              rw [Tree.bareOf_trivia hl, hrest, dropTrivia_cons_of_trivia (p := .token l) hl]
          | false =>
              rw [Lexeme.bareWidth_token hl] at hrest
              rw [Tree.bareOf_token hl, dropTrivia_cons_of_not (p := .token l) hl, List.map_cons,
                ← hrest]
              rfl
      | node kind children =>
          have hfirst := ofTree_bare (Tree.leavesOf ts ++ zs) hts.1
            (by rw [← List.append_assoc]; exact hm.1)
          rw [Tree.leaves, Lexeme.bareWidth_append, ← Tree.widthOf_bareOf] at hrest
          rw [Tree.leaves, ofTree, dropTrivia_cons_of_not (isTrivia_assemble _ _ _), List.map_cons,
            ← hrest, ← ofTree, ← hfirst, Tree.bareOf_node, Tree.bare]
          rfl

end

end OfTree

end Part

/-- A tree without trivia is the same program, moved. -/
theorem SourceFile.ofTree_bare {t : Tree} (ht : t.Anchored) :
    SourceFile.ofTree t.bare = (SourceFile.ofTree t).move t.squeeze := by
  -- Nothing stands before or behind the whole tree.
  have hplaces : t.squeeze.Places ([] ++ t.leaves ++ [])
      (Tree.locationsAt [] (Lexeme.widthOf []) 0 t) := by
    rw [List.nil_append, List.append_nil]
    exact fun l hl => Tree.squeeze_of_mem hl
  have hpart : Part.ofTree 0 t.bare = (Part.ofTree 0 t).move t.squeeze :=
    Part.ofTree_bare [] ht hplaces
  rw [SourceFile.ofTree, SourceFile.ofTree, hpart]
  cases Part.ofTree 0 t <;> rfl

end Program

end Nominal
