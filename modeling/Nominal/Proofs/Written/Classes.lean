import Nominal.Proofs.Written.Types
import Nominal.Proofs.Carried.Declarations

/-!
# Reading a Written Class

The class that an extraction declares is read back as the tree that it was put together from.
Apart from the types of its members it consists of fixed pieces, each of which is read by
evaluating the scripts. Around them stand lines and blanks that may be of any length.

## Main definitions

* `ClassForm.IsWritable`: The classes that can be read back.
* `ReadsMember`: A member is read as its tree.

## Theorems

* `readsMember_readProduction`: A member of a class is read as its tree.
* `read_class`: A class is read as an item.
-/

namespace Nominal

open Syntax (Kind KindSet Lexeme Tree IsName)
open Program (TypeRef)

namespace Grammar

open Script

/-- The accessors of a property. -/
def accessorLexemes : List Lexeme :=
  [⟨.braceOpen, "\x7b"⟩, ⟨.whitespace, " "⟩, ⟨.id, "get"⟩, ⟨.semicolon, ";"⟩, ⟨.whitespace, " "⟩,
   ⟨.id, "set"⟩, ⟨.semicolon, ";"⟩, ⟨.whitespace, " "⟩, ⟨.braceClose, "\x7d"⟩]

/-- The lexemes of a member behind its type. -/
def memberEnd (style : MemberStyle) (name : String) : List Lexeme :=
  match style with
  | .property => ⟨.whitespace, " "⟩ :: ⟨.id, name⟩ :: ⟨.whitespace, " "⟩ :: accessorLexemes
  | .field => [⟨.whitespace, " "⟩, ⟨.id, name⟩, ⟨.semicolon, ";"⟩]

theorem leaves_member (style : MemberStyle) (m : MemberForm) :
    (m.tree style).leaves = ⟨.kwPublic, "public"⟩ :: ⟨.whitespace, " "⟩ ::
      (m.type.tree.leaves ++ memberEnd style m.name) := by
  cases style with
  | property => rfl
  | field => rfl

section Members

variable {limit : Option Nat} {readers : Readers} {depth opened n : Nat} {ls : List Lexeme}

/-- There is no parenthesis in a dotted name. -/
theorem paren_dotted (segments : List String) :
    ∀ l ∈ Tree.leavesOf (TypeRef.dotted segments), l.kind ≠ .parenOpen := by
  cases segments with
  | nil => exact nofun
  | cons s ss =>
      rw [TypeRef.leavesOf_dotted_cons]
      intro l hl
      rcases List.mem_cons.mp hl with rfl | hl
      · exact nofun
      · rcases List.mem_flatMap.mp hl with ⟨u, _, hl⟩
        rcases List.mem_cons.mp hl with rfl | hl
        · exact nofun
        · rw [List.mem_singleton.mp hl]
          exact nofun

mutual

/-- There is no parenthesis in a written type. -/
theorem paren_type : ∀ t : TypeRef, ∀ l ∈ t.tree.leaves, l.kind ≠ .parenOpen
  | .missing => nofun
  | .predefined none => nofun
  | .predefined (some word) => fun l hl => by
      rw [List.mem_singleton.mp hl]
      exact nofun
  | .named segments none => paren_dotted segments
  | .named segments (some args) => fun l hl => by
      rw [leaves_generic, List.mem_append, List.mem_cons, List.mem_append, List.mem_singleton] at hl
      rcases hl with hl | rfl | hl | rfl
      · exact paren_dotted segments l hl
      · exact nofun
      · exact paren_arguments args l hl
      · exact nofun
  | .array element => fun l hl => by
      rw [TypeRef.tree, Tree.leaves, Tree.leavesOf, List.mem_append] at hl
      rcases hl with hl | hl
      · exact paren_type element l hl
      · have hbrackets : l = ⟨.bracketOpen, "["⟩ ∨ l = ⟨.bracketClose, "]"⟩ := by
          simpa only [leaf, Tree.leavesOf, Tree.leaves, List.append_nil, List.cons_append,
            List.nil_append, List.mem_cons, List.not_mem_nil, or_false] using hl
        rcases hbrackets with rfl | rfl
        · exact nofun
        · exact nofun
  | .nullable inner => fun l hl => by
      rw [TypeRef.tree, Tree.leaves, Tree.leavesOf, List.mem_append] at hl
      rcases hl with hl | hl
      · exact paren_type inner l hl
      · rw [List.mem_singleton.mp hl]
        exact nofun

theorem paren_arguments :
    ∀ args : List TypeRef, ∀ l ∈ Tree.leavesOf (argumentTrees args), l.kind ≠ .parenOpen
  | [] => nofun
  | [t] => fun l hl => by
      rw [show argumentTrees [t] = [t.tree] from rfl, Tree.leavesOf, Tree.leavesOf,
        List.append_nil] at hl
      exact paren_type t l hl
  | t :: u :: us => fun l hl => by
      rw [show argumentTrees (t :: u :: us)
        = t.tree :: leaf .comma "," :: space :: argumentTrees (u :: us) from rfl, Tree.leavesOf,
        List.mem_append] at hl
      rcases hl with hl | hl
      · exact paren_type t l hl
      · rcases List.mem_cons.mp hl with rfl | hl
        · exact nofun
        · rcases List.mem_cons.mp hl with rfl | hl
          · exact nofun
          · exact paren_arguments (u :: us) l hl

end

/-- Behind one modifier a written type is read. -/
theorem read_modifier {t : TypeRef} (ht : t.IsWritable) {p : Place}
    (hrest : p.rest = ⟨.kwPublic, "public"⟩ :: ⟨.whitespace, " "⟩ :: (t.tree.leaves ++ ls))
    (hfuel : p.fuel = n + 1) :
    modifiers.read limit readers p = some (true,
      (p.past (⟨.whitespace, " "⟩ :: (t.tree.leaves ++ ls)) [.token ⟨.kwPublic, "public"⟩] n).skip) := by
  rcases starts_type ht with ⟨l, hhead, hl⟩
  have hahead : p.Ahead [] ⟨.kwPublic, "public"⟩ (⟨.whitespace, " "⟩ :: (t.tree.leaves ++ ls)) :=
    ⟨hrest, nofun, rfl⟩
  have hfirst : isAtModifier.read limit readers p = some (true, p.skip) := by
    rw [isAtModifier, read_bind_of (look_ahead hahead)]
    rfl
  have hstop : isAtModifier.read limit readers
      (p.past (⟨.whitespace, " "⟩ :: (t.tree.leaves ++ ls)) [.token ⟨.kwPublic, "public"⟩] n)
      = some (false, (p.past (⟨.whitespace, " "⟩ :: (t.tree.leaves ++ ls))
        [.token ⟨.kwPublic, "public"⟩] n).skip) := by
    rcases List.head?_eq_some_iff.mp hhead with ⟨ms, hms⟩
    have htoken : l.isTrivia = false := by
      rcases hl with hl | hl
      · exact isTrivia_eq_false hl rfl
      · exact isTrivia_eq_false hl rfl
    have hnext : (p.past (⟨.whitespace, " "⟩ :: (t.tree.leaves ++ ls))
        [.token ⟨.kwPublic, "public"⟩] n).Ahead [⟨.whitespace, " "⟩] l (ms ++ ls) :=
      ⟨by rw [Place.rest_past, hms]; rfl, List.forall_mem_singleton.mpr rfl, htoken⟩
    rw [isAtModifier, read_bind_of (look_ahead hnext)]
    rcases hl with hl | hl
    · rw [hl]
      rfl
    · rw [hl]
      rfl
  have htake : take.read limit readers p.skip = some ((), p.past
      (⟨.whitespace, " "⟩ :: (t.tree.leaves ++ ls)) [.token ⟨.kwPublic, "public"⟩] n) :=
    take_ahead hahead hfuel
  rw [modifiers, read_bind_of hfirst, if_pos rfl, read_bind_of htake,
    read_bind_of (whileTrue_stop hstop)]
  rfl

/-- A member that starts with a modifier and a written type is a typed member. -/
theorem memberScript_typed {t : TypeRef} (ht : t.IsWritable) {p : Place}
    (hrest : p.rest = ⟨.kwPublic, "public"⟩ :: ⟨.whitespace, " "⟩ :: (t.tree.leaves ++ ls))
    (hfuel : p.fuel = n + 1) (hls : (kindsOf ls).head? = some .id) {r : Place}
    (h : typedMember.read limit readers (p.fresh.past (⟨.whitespace, " "⟩ :: (t.tree.leaves ++ ls))
      [.token ⟨.kwPublic, "public"⟩] n).skip = some ((), r)) :
    memberScript.read limit readers p
      = some ((), { r with output := p.flush.output ++ r.output }) := by
  let q : Place := p.fresh.past (⟨.whitespace, " "⟩ :: (t.tree.leaves ++ ls))
    [.token ⟨.kwPublic, "public"⟩] n
  have hmodifiers : modifiers.read limit readers p.fresh = some (true, q.skip) :=
    read_modifier ht hrest hfuel
  rcases starts_type ht with ⟨l, hhead, hl⟩
  rcases List.head?_eq_some_iff.mp hhead with ⟨ms, hms⟩
  have htoken : l.isTrivia = false := by
    rcases hl with hl | hl
    · exact isTrivia_eq_false hl rfl
    · exact isTrivia_eq_false hl rfl
  have hup : q.skip.upcoming = l.kind :: (kindsOf ms ++ kindsOf ls) := by
    have hkinds : q.upcoming = kindsOf (t.tree.leaves ++ ls) := kindsOf_cons_trivia rfl _
    rw [upcoming_skip, hkinds, hms, List.cons_append, kindsOf_cons htoken, kindsOf_append]
  have hnext : (nextIs .parenOpen).read limit readers q.skip = some (false, q.skip) := by
    rw [nextIs_read, hup, skip_skip, List.tail_cons]
    refine congrArg (fun b => some (b, q.skip)) (beq_eq_false_iff_ne.mpr fun hparen => ?_)
    rw [List.head?_append] at hparen
    cases hkinds : (kindsOf ms).head? with
    | none => rw [hkinds, hls] at hparen; cases hparen
    | some k =>
        rw [hkinds] at hparen
        cases hparen
        rcases List.mem_map.mp (List.mem_of_head? hkinds) with ⟨m, hm, hparen⟩
        refine paren_type t m ?_ hparen
        rw [hms]
        exact List.mem_cons_of_mem l (List.mem_filter.mp hm).1
  have hlook : look.read limit readers q.skip = some (some l.kind, q.skip) := by
    rw [look_read, hup, skip_skip]
    rfl
  rw [memberScript, frame, Script.read, show Grouping.frame.enter p = p.fresh from rfl]
  refine congrArg (Option.bind · _) (?_ : _ = some ((), r))
  rw [read_bind_of hmodifiers, read_bind_of hlook]
  rcases hl with hl | hl
  · rw [hl]
    exact h
  · rw [hl]
    dsimp only
    rw [read_bind_of hnext]
    exact h

/-- The accessors of a property as a tree. -/
def accessorTree : Tree :=
  .node .accessorList
    [leaf .braceOpen "\x7b", space, MemberForm.accessor "get", space, MemberForm.accessor "set",
     space, leaf .braceClose "\x7d"]

/-- A property is read from its name on. -/
theorem read_property (name : String) (a b c : Tree) (hls : (kindsOf ls).head? ≠ some .equals) :
    (memberName >>= memberRest).read limit readers ⟨⟨.id, name⟩ :: ⟨.whitespace, " "⟩ ::
        (accessorLexemes ++ ls), [⟨.whitespace, " "⟩], [a, b, c], depth, opened, n + 7⟩
      = some ((), (⟨ls, [], [.node .propertyDecl
        [a, b, c, space, leaf .id name, space, accessorTree]], depth, opened, n⟩ : Place).skip) := by
  have hname : memberName.read limit readers ⟨⟨.id, name⟩ :: ⟨.whitespace, " "⟩ ::
        (accessorLexemes ++ ls), [⟨.whitespace, " "⟩], [a, b, c], depth, opened, n + 7⟩
      = some (.property, ⟨accessorLexemes ++ ls, [⟨.whitespace, " "⟩],
        [a, b, c, space, leaf .id name], depth, opened, n + 6⟩) := rfl
  have haccessors : accessorList.read limit readers ⟨accessorLexemes ++ ls, [⟨.whitespace, " "⟩],
        [a, b, c, space, leaf .id name], depth, opened, n + 6⟩
      = some ((), ⟨ls, [], [a, b, c, space, leaf .id name, space, accessorTree], depth, opened, n⟩) :=
    rfl
  have hequals : (eat .equals).read limit readers
        ⟨ls, [], [a, b, c, space, leaf .id name, space, accessorTree], depth, opened, n⟩
      = some (false, (⟨ls, [], [a, b, c, space, leaf .id name, space, accessorTree], depth, opened,
        n⟩ : Place).skip) := by
    rw [eat_read]
    exact if_neg hls
  rw [read_bind_of hname, memberRest]
  refine enclose_read_iff.mpr ⟨(⟨ls, [], [a, b, c, space, leaf .id name, space, accessorTree], depth,
    opened, n⟩ : Place).skip, ?_, rfl⟩
  rw [read_bind_of haccessors, read_bind_of hequals]
  rfl

/-- A field is read from its name on. -/
theorem read_field (name : String) (a b c : Tree) :
    (memberName >>= memberRest).read limit readers ⟨⟨.id, name⟩ :: ⟨.semicolon, ";"⟩ :: ls,
        [⟨.whitespace, " "⟩], [a, b, c], depth, opened, n + 2⟩
      = some ((), ⟨ls, [], [.node .fieldDecl [a, b, c, space, .node .varDeclarator [leaf .id name],
        leaf .semicolon ";"]], depth, opened, n⟩) := rfl

/-- A member is read as its tree; trivia behind it may be set aside. -/
def ReadsMember (readers : Readers) (style : MemberStyle) (m : MemberForm) : Prop :=
  ∀ (p : Place) (ls : List Lexeme) (n : Nat), p.rest = (m.tree style).leaves ++ ls →
    (kindsOf ls).head? ≠ some .equals →
    p.fuel = n + (kindsOf (m.tree style).leaves).length →
    ∃ q, readers .member p = some ((), q) ∧ q.skip = (p.past ls [m.tree style] n).skip ∧
      q.rest.length ≤ ls.length

theorem readsMember_script (hsettles : ∀ p : Place, readers .type p.skip = readers .type p)
    {style : MemberStyle} {m : MemberForm} (hm : m.type.IsWritable)
    (hreads : ReadsType readers m.type) {p : Place}
    (hrest : p.rest = (m.tree style).leaves ++ ls) (hls : (kindsOf ls).head? ≠ some .equals)
    (hfuel : p.fuel = n + (kindsOf (m.tree style).leaves).length) :
    ∃ q, memberScript.read limit readers p = some ((), q) ∧
      q.skip = (p.past ls [m.tree style] n).skip ∧ q.rest.length ≤ ls.length := by
  let behind : List Lexeme := memberEnd style m.name ++ ls
  let k : Nat := n + (kindsOf (memberEnd style m.name)).length
  let q : Place := p.fresh.past (⟨.whitespace, " "⟩ :: (m.type.tree.leaves ++ behind))
    [.token ⟨.kwPublic, "public"⟩] (k + (kindsOf m.type.tree.leaves).length)
  rw [leaves_member] at hrest hfuel
  have hrest' : p.rest = ⟨.kwPublic, "public"⟩ :: ⟨.whitespace, " "⟩ ::
      (m.type.tree.leaves ++ behind) := by
    rw [hrest, List.cons_append, List.cons_append, List.append_assoc]
  have hfuel' : p.fuel = k + (kindsOf m.type.tree.leaves).length + 1 := by
    rw [hfuel, kindsOf_cons rfl, kindsOf_cons_trivia rfl, kindsOf_append, List.length_cons,
      List.length_append]
    omega
  have hends : ∀ j, (kindsOf behind).head? = some j → continuesType j = false := by
    intro j hj
    cases style with
    | property => cases hj; rfl
    | field => cases hj; rfl
  have htype : readType.read limit readers q.skip
      = some (some m.type.tree.kind, (q.past behind [space, m.type.tree] k).skip) := by
    have htrivia : ∀ l ∈ ([⟨.whitespace, " "⟩] : List Lexeme), l.isTrivia = true :=
      List.forall_mem_singleton.mpr rfl
    have hfuel : q.fuel = k + (kindsOf m.type.tree.leaves).length := rfl
    have hread : readType.read limit readers q = some (some m.type.tree.kind,
        (q.past behind ([space] ++ [m.type.tree]) k).skip) :=
      hreads.behind hsettles hm htrivia rfl hends hfuel
    rw [readType, read_call] at hread ⊢
    rw [hsettles]
    exact hread
  have hhead : (kindsOf behind).head? = some .id := by
    cases style with
    | property => rfl
    | field => rfl
  cases style with
  | property =>
      have hmember : typedMember.read limit readers q.skip = some ((),
          (⟨ls, [], [m.tree .property], p.depth, p.opened, n⟩ : Place).skip) := by
        rw [typedMember, read_bind_of htype]
        exact read_property m.name _ _ _ hls
      refine ⟨_, memberScript_typed hm hrest' hfuel' hhead hmember, ?_, ?_⟩
      · exact skip_skip (⟨ls, [], p.flush.output ++ [m.tree .property], p.depth, p.opened, n⟩ : Place)
      · exact (List.dropWhile_suffix _).length_le
  | field =>
      have hmember : typedMember.read limit readers q.skip = some ((),
          (⟨ls, [], [m.tree .field], p.depth, p.opened, n⟩ : Place)) := by
        rw [typedMember, read_bind_of htype]
        exact read_field m.name _ _ _
      exact ⟨_, memberScript_typed hm hrest' hfuel' hhead hmember, rfl, Nat.le_refl _⟩

/-- The members of a class, each on a line of its own. -/
def memberTrees (style : MemberStyle) (line : List Lexeme) (ms : List MemberForm) : List Tree :=
  ms.flatMap fun m => line.map .token ++ [m.tree style]

theorem leavesOf_memberTrees_cons (style : MemberStyle) (line : List Lexeme) (m : MemberForm)
    (ms : List MemberForm) : Tree.leavesOf (memberTrees style line (m :: ms))
      = line ++ ((m.tree style).leaves ++ Tree.leavesOf (memberTrees style line ms)) := by
  rw [memberTrees, List.flatMap_cons, Tree.leavesOf_append, Tree.leavesOf_append,
    Tree.leavesOf_map_token, Tree.leavesOf, Tree.leavesOf, List.append_nil, List.append_assoc]
  rfl

/-- Behind a member stand another one or the closing brace. -/
theorem head_memberTrees {style : MemberStyle} {line closing : List Lexeme}
    (hline : ∀ l ∈ line, l.isTrivia = true) (hclosing : (kindsOf closing).head? = some .braceClose)
    (ms : List MemberForm) :
    (kindsOf (Tree.leavesOf (memberTrees style line ms) ++ closing)).head? ≠ some .equals := by
  cases ms with
  | nil =>
      rw [show Tree.leavesOf (memberTrees style line []) ++ closing = closing from rfl, hclosing]
      exact nofun
  | cons m ms =>
      rw [leavesOf_memberTrees_cons, List.append_assoc, kindsOf_append, kindsOf_trivia hline,
        leaves_member]
      exact nofun

/-- The members of a class are read up to the closing brace. The reading may start before or
    behind trivia. -/
theorem read_members {style : MemberStyle} {line closing : List Lexeme}
    (hline : ∀ l ∈ line, l.isTrivia = true) (hclosing : (kindsOf closing).head? = some .braceClose)
    (ms : List MemberForm) (hreads : ∀ m ∈ ms, ReadsMember readers style m) {p s : Place}
    (hskip : s.skip = p.skip) (hpending : p.pending = [])
    (hrest : p.rest = Tree.leavesOf (memberTrees style line ms) ++ closing)
    (hfuel : p.fuel = n + (kindsOf (Tree.leavesOf (memberTrees style line ms))).length) :
    ∃ q, (whileTrue (isBefore .braceClose) (call .member)).read limit readers s = some ((), q) ∧
      q.skip = (p.past closing (memberTrees style line ms) n).skip := by
  have hup : s.upcoming = kindsOf p.rest := by
    rw [← upcoming_skip, hskip, upcoming_skip]
    rfl
  induction ms generalizing p s with
  | nil =>
      refine ⟨s.skip, whileTrue_stop ?_, ?_⟩
      · rw [isBefore_read, hup, hrest]
        exact congrArg (fun k : Option Kind => some (k.any (· != .braceClose), s.skip)) hclosing
      · have hp : p = p.past closing [] n := by
          rw [Place.past, Place.flush, hpending, List.map_nil, List.append_nil, List.append_nil,
            ← show p.rest = closing from hrest, ← show p.fuel = n from hfuel, ← hpending]
        rw [skip_skip, hskip]
        conv => lhs; rw [hp]
        rfl
  | cons m ms ih =>
      let behind : List Lexeme := Tree.leavesOf (memberTrees style line ms) ++ closing
      let k : Nat := n + (kindsOf (Tree.leavesOf (memberTrees style line ms))).length
      have hrest' : p.rest = line ++ ((m.tree style).leaves ++ behind) := by
        rw [hrest, leavesOf_memberTrees_cons, List.append_assoc, List.append_assoc]
      have htoken : ∀ l, ((m.tree style).leaves ++ behind).head? = some l → l.isTrivia = false := by
        intro l hl
        rw [leaves_member] at hl
        cases hl
        rfl
      have hbefore : (isBefore .braceClose).read limit readers s = some (true, p.skip) := by
        rw [isBefore_read, hup, hrest', hskip, kindsOf_append, kindsOf_trivia hline, leaves_member]
        rfl
      have hsplit := skip_trivia hline htoken
      have hcount : p.skip.fuel = k + (kindsOf (m.tree style).leaves).length := by
        rw [leavesOf_memberTrees_cons, kindsOf_append, kindsOf_trivia hline, List.nil_append,
          kindsOf_append, List.length_append] at hfuel
        exact hfuel.trans (by omega)
      rcases hreads m List.mem_cons_self p.skip behind k (by rw [Place.skip, hrest', hsplit.2])
        (head_memberTrees hline hclosing ms) hcount with ⟨q, hread, hq, hlength⟩
      rw [past_skip hrest' hline htoken] at hq
      have hshorter : q.rest.length < s.rest.length := by
        have hs : s.rest.dropWhile Lexeme.isTrivia = (m.tree style).leaves ++ behind := by
          rw [show s.rest.dropWhile Lexeme.isTrivia = s.skip.rest from rfl, hskip, Place.skip, hrest',
            hsplit.2]
        have hle := (List.dropWhile_suffix Lexeme.isTrivia : _ <:+ s.rest).length_le
        rw [hs, leaves_member, List.length_append, List.length_cons] at hle
        omega
      have hup' : q.upcoming = kindsOf behind := by
        rw [← upcoming_skip, hq, upcoming_skip]
        rfl
      rcases ih (fun u hu => hreads u (List.mem_cons_of_mem m hu))
        (p := p.past behind (line.map .token ++ [m.tree style]) k) hq rfl rfl rfl hup'
        with ⟨r, hloop, hr⟩
      refine ⟨r, whileTrue_again hbefore ?_ hshorter hloop, ?_⟩
      · rw [read_call]
        exact hread
      · rw [hr, Place.past_past]
        rfl

/-- The start of a class up to its opening brace. -/
def classStart (name : String) (line : List Lexeme) : List Lexeme :=
  [⟨.kwClass, "class"⟩, ⟨.whitespace, " "⟩, ⟨.id, name⟩] ++ line ++ [⟨.braceOpen, "\x7b"⟩]

/-- The end of a class. -/
def classEnd (line : List Lexeme) : List Lexeme := line ++ [⟨.braceClose, "\x7d"⟩]

/-- A class whose members stand on lines of their own. -/
def classTrees (name : String) (outer inner : List Lexeme) (style : MemberStyle)
    (ms : List MemberForm) : List Tree :=
  (classStart name outer).map .token ++ (memberTrees style inner ms
    ++ (classEnd outer).map .token)

theorem leavesOf_classTrees (name : String) (outer inner : List Lexeme) (style : MemberStyle)
    (ms : List MemberForm) : Tree.leavesOf (classTrees name outer inner style ms)
      = classStart name outer ++ (Tree.leavesOf (memberTrees style inner ms) ++ classEnd outer) := by
  rw [classTrees, Tree.leavesOf_append, Tree.leavesOf_append, Tree.leavesOf_map_token,
    Tree.leavesOf_map_token]

variable {style : MemberStyle} {outer inner : List Lexeme} {ms : List MemberForm}

theorem settles_expectClosing (k : Kind) (unclosed : Diagnostic.Kind) :
    Settles limit readers (expectClosing k unclosed) := (settles_eat k).bind

/-- The braces of a class and its members are read. -/
theorem read_typeBody (houter : ∀ l ∈ outer, l.isTrivia = true)
    (hinner : ∀ l ∈ inner, l.isTrivia = true)
    (hreads : ∀ m ∈ ms, ReadsMember readers style m) {p s : Place} (hskip : s.skip = p.skip)
    (hrest : p.rest = outer ++ ⟨.braceOpen, "\x7b"⟩ :: (Tree.leavesOf (memberTrees style inner ms)
      ++ (classEnd outer ++ ls)))
    (hfuel : p.fuel = n + (kindsOf (Tree.leavesOf (memberTrees style inner ms))).length + 2) :
    typeBody.read limit readers s = some ((), p.past ls ((outer.map .token
      ++ [leaf .braceOpen "\x7b"]) ++ (memberTrees style inner ms
        ++ (classEnd outer).map .token)) n) := by
  let k : Nat := n + 1 + (kindsOf (Tree.leavesOf (memberTrees style inner ms))).length
  let q : Place := { p with opened := p.opened + 1 }
  let t : Place := q.past (Tree.leavesOf (memberTrees style inner ms) ++ (classEnd outer ++ ls))
    (outer.map .token ++ [leaf .braceOpen "\x7b"]) k
  have hahead : p.Ahead outer ⟨.braceOpen, "\x7b"⟩
      (Tree.leavesOf (memberTrees style inner ms) ++ (classEnd outer ++ ls)) := ⟨hrest, houter, rfl⟩
  have hopen : (isAt .braceOpen).read limit readers s = some (true, p.skip) := by
    rw [← settles_isAt, hskip, settles_isAt]
    exact isAt_ahead hahead
  have htake : takeOpening.read limit readers p.skip = some ((), t) := by
    have hdelimiter : (perform .openDelimiter).read limit readers p.skip = some ((), q.skip) := by
      rw [read_perform, Op.read, skip_skip]
      rfl
    rw [takeOpening, read_bind_of hdelimiter]
    have hfuel : q.fuel = k + 1 := hfuel.trans (by omega)
    exact take_ahead (p := q) ⟨hrest, houter, rfl⟩ hfuel
  have hclosing : (kindsOf (classEnd outer ++ ls)).head? = some .braceClose := by
    rw [classEnd, List.append_assoc, kindsOf_append, kindsOf_trivia houter]
    rfl
  have hmembers : ∃ r, (whileTrue (isBefore .braceClose) (call .member)).read limit readers t
      = some ((), r) ∧ r.skip
        = (t.past (classEnd outer ++ ls) (memberTrees style inner ms) (n + 1)).skip :=
    read_members hinner hclosing ms hreads rfl rfl rfl rfl
  rcases hmembers with ⟨r, hloop, hr⟩
  have hend : ∀ t : Place, t.rest = classEnd outer ++ ls → t.fuel = n + 1 →
      (expectClosing .braceClose .unclosedBrace).read limit readers t = some ((),
        { t.past ls ((classEnd outer).map .token) n with opened := t.opened - 1 }) := by
    intro t hrest hfuel
    have hahead : t.Ahead outer ⟨.braceClose, "\x7d"⟩ ls :=
      ⟨by rw [hrest, classEnd, List.append_assoc]; rfl, houter, rfl⟩
    rw [expectClosing, read_bind_of (eat_ahead hahead rfl hfuel), classEnd, List.map_append]
    rfl
  rw [typeBody, read_bind_of hopen, if_pos rfl, read_bind_of htake, read_bind_of hloop,
    ← settles_expectClosing, hr, settles_expectClosing, hend _ rfl rfl, Place.past_past,
    Place.past_past]
  rfl

/-- A class is read from its keyword on. -/
theorem read_typeFromKeyword (houter : ∀ l ∈ outer, l.isTrivia = true)
    (hinner : ∀ l ∈ inner, l.isTrivia = true)
    (hreads : ∀ m ∈ ms, ReadsMember readers style m) {p : Place} {name : String}
    (hempty : p.flush.output = [])
    (hrest : p.rest = Tree.leavesOf (classTrees name outer inner style ms) ++ ls)
    (hfuel : p.fuel = n + (kindsOf (Tree.leavesOf (classTrees name outer inner style ms))).length) :
    typeFromKeyword.read limit readers p = some ((),
      p.past ls [.node .typeDecl (classTrees name outer inner style ms)] n) := by
  let k : Nat := n + (kindsOf (Tree.leavesOf (memberTrees style inner ms))).length + 2
  let opening : List Lexeme := outer ++ ⟨.braceOpen, "\x7b"⟩ ::
    (Tree.leavesOf (memberTrees style inner ms) ++ (classEnd outer ++ ls))
  have hrest' : p.rest = ⟨.kwClass, "class"⟩ :: ⟨.whitespace, " "⟩ :: ⟨.id, name⟩ :: opening := by
    rw [hrest, leavesOf_classTrees, classStart]
    simp only [opening, List.append_assoc, List.cons_append, List.nil_append]
  have hfuel' : p.fuel = k + 1 + 1 := by
    rw [hfuel, leavesOf_classTrees, classStart, classEnd]
    simp only [kindsOf_append, kindsOf_trivia houter, List.length_append]
    have hkeyword : (kindsOf [⟨.kwClass, "class"⟩, ⟨.whitespace, " "⟩, ⟨.id, name⟩]).length = 2 := rfl
    have hopen : (kindsOf [⟨.braceOpen, "\x7b"⟩]).length = 1 := rfl
    have hclose : (kindsOf [⟨.braceClose, "\x7d"⟩]).length = 1 := rfl
    rw [hkeyword, hopen, hclose, List.length_nil]
    omega
  let q : Place := p.past (⟨.whitespace, " "⟩ :: ⟨.id, name⟩ :: opening)
    [.token ⟨.kwClass, "class"⟩] (k + 1)
  let r : Place := q.past opening [space, leaf .id name] k
  have hkeyword : eatTypeKeyword.read limit readers p = some (true, q) := by
    have hahead : p.Ahead [] ⟨.kwClass, "class"⟩ _ := ⟨hrest', nofun, rfl⟩
    rw [eatTypeKeyword, read_bind_of (eat_ahead hahead rfl hfuel')]
    rfl
  have hname : (expectName "type name").read limit readers q = some (true, r) := by
    have hahead : q.Ahead [⟨.whitespace, " "⟩] ⟨.id, name⟩ opening :=
      ⟨rfl, List.forall_mem_singleton.mpr rfl, rfl⟩
    exact expectName_ahead hahead rfl rfl _
  have hbases : baseListIfAny.read limit readers r = some ((), r.skip) := by
    have hahead : r.Ahead outer ⟨.braceOpen, "\x7b"⟩
        (Tree.leavesOf (memberTrees style inner ms) ++ (classEnd outer ++ ls)) :=
      ⟨rfl, houter, rfl⟩
    rw [baseListIfAny, read_bind_of (isAt_ahead hahead)]
    rfl
  have hbody : typeBody.read limit readers r.skip = some ((), r.past ls ((outer.map .token
      ++ [leaf .braceOpen "\x7b"]) ++ (memberTrees style inner ms
        ++ (classEnd outer).map .token)) n) :=
    read_typeBody houter hinner hreads (skip_skip r) rfl rfl
  refine enclose_read_iff.mpr ⟨p.past ls (classTrees name outer inner style ms) n, ?_, ?_⟩
  · have htrees : [.token ⟨.kwClass, "class"⟩] ++ ([space, leaf .id name] ++ (outer.map .token
        ++ [leaf .braceOpen "\x7b"] ++ (memberTrees style inner ms ++ (classEnd outer).map .token)))
        = classTrees name outer inner style ms := by
      rw [classTrees, classStart]
      simp only [List.map_append, List.append_assoc]
      rfl
    rw [read_bind_of hkeyword, if_pos rfl, read_bind_of hname, read_bind_of hbases, hbody,
      Place.past_past, Place.past_past, htrees]
  · simp only [Place.past, hempty, List.nil_append]

/-- A class is read as an item behind trivia. -/
theorem read_classItem (houter : ∀ l ∈ outer, l.isTrivia = true)
    (hinner : ∀ l ∈ inner, l.isTrivia = true)
    (hreads : ∀ m ∈ ms, ReadsMember readers style m) {p : Place} {name : String}
    {separator : List Lexeme} (hseparator : ∀ l ∈ separator, l.isTrivia = true) {braced : Bool}
    (hrest : p.rest = separator ++ (Tree.leavesOf (classTrees name outer inner style ms) ++ ls))
    (hpending : p.pending = [])
    (hfuel : p.fuel = n + (kindsOf (Tree.leavesOf (classTrees name outer inner style ms))).length) :
    (item braced).read limit readers p = some (true,
      ⟨ls, [], p.output ++ (separator.map .token
        ++ [.node .typeDecl (classTrees name outer inner style ms)]), p.depth, p.opened, n⟩) := by
  have hstart : ∃ behind, Tree.leavesOf (classTrees name outer inner style ms) ++ ls
      = ⟨.kwClass, "class"⟩ :: behind := by
    rw [leavesOf_classTrees, classStart]
    exact ⟨_, rfl⟩
  rcases hstart with ⟨behind, hbehind⟩
  have hahead : p.Ahead separator ⟨.kwClass, "class"⟩ behind := ⟨by rw [hrest, hbehind], hseparator, rfl⟩
  let q : Place := p.skip.fresh
  have hq : q.Ahead [] ⟨.kwClass, "class"⟩ behind :=
    ⟨by rw [show q.rest = p.skip.rest from rfl, skip_ahead hahead]; rfl, List.forall_mem_nil _, rfl⟩
  have hmodifiers : modifiers.read limit readers q = some (false, q) := by
    have hskip : q.skip = q := (isSettled_skip p).skip_eq (p := q)
    have hat : isAtModifier.read limit readers q = some (false, q.skip) := by
      rw [isAtModifier, read_bind_of (look_ahead hq)]
      rfl
    rw [modifiers, read_bind_of hat, hskip]
    rfl
  have hkeyword : typeFromKeyword.read limit readers q = some ((),
      q.past ls [.node .typeDecl (classTrees name outer inner style ms)] n) :=
    read_typeFromKeyword houter hinner hreads rfl (by rw [hq.rest, List.nil_append, ← hbehind]) hfuel
  have hdeclaration : typeDeclaration.read limit readers p.skip = some ((),
      ⟨ls, [], p.skip.flush.output ++ [.node .typeDecl (classTrees name outer inner style ms)],
        p.depth, p.opened, n⟩) := by
    rw [typeDeclaration, frame, Script.read, show Grouping.frame.enter p.skip = q from rfl,
      read_bind_of hmodifiers, hkeyword]
    rfl
  have hflush : p.skip.flush.output = p.output ++ separator.map .token := by
    rw [skip_ahead hahead, hpending]
    rfl
  rw [item_read, upcoming_ahead hahead, List.head?_cons, if_neg (by decide), itemForm_type rfl,
    read_bind_of hdeclaration, hflush, List.append_assoc]
  rfl

end Members

/-- A member is read as its tree where its type is. -/
theorem readsMember_readProduction (limit : Option Nat) (k : Nat) {style : MemberStyle}
    {m : MemberForm} (hm : m.type.IsWritable) (hk : m.type.tree.leaves.length ≤ k) :
    ReadsMember (readProduction limit (k + 1)) style m := fun _ _ _ hrest hls hfuel =>
  readsMember_script (settles_type limit k) hm (readsType_readProduction limit k hm hk) hrest hls hfuel

end Grammar

/-! ### The class of an extraction -/

namespace ClassForm

open Grammar

/-- The classes that can be read back. -/
structure IsWritable (c : ClassForm) : Prop where
  name : IsName c.name
  members : ∀ m ∈ c.members, IsName m.name ∧ m.type.IsWritable

/-- The lexemes at the start of a line. -/
def lineLexemes (layout : Layout) (indent : String) : List Lexeme :=
  ⟨.newline, layout.lineBreak⟩ :: if indent.isEmpty then [] else [⟨.whitespace, indent⟩]

theorem lineStart_eq (layout : Layout) (indent : String) :
    lineStart layout indent = (lineLexemes layout indent).map .token := by
  rw [lineStart, lineLexemes, blanks]
  split
  · rfl
  · rfl

theorem trivia_lineLexemes (layout : Layout) (indent : String) :
    ∀ l ∈ lineLexemes layout indent, l.isTrivia = true := by
  intro l hl
  rw [lineLexemes] at hl
  rcases List.mem_cons.mp hl with rfl | hl
  · rfl
  · split at hl
    · cases hl
    · rw [List.mem_singleton.mp hl]
      rfl

theorem tree_eq (c : ClassForm) (layout : Layout) :
    c.tree layout = .node .typeDecl (classTrees c.name (lineLexemes layout layout.baseIndent)
      (lineLexemes layout (layout.baseIndent ++ c.indent)) c.style c.members) := by
  rw [tree, classTrees, classStart, classEnd, memberTrees, lineStart_eq, lineStart_eq]
  simp only [List.map_append, List.append_assoc]
  rfl

/-- A member has fewer lexemes than the class. -/
theorem length_member (c : ClassForm) (layout : Layout) {m : MemberForm} (hm : m ∈ c.members) :
    m.type.tree.leaves.length < (c.tree layout).leaves.length := by
  have hmember : m.type.tree.leaves.length ≤ (m.tree c.style).leaves.length := by
    rw [leaves_member, List.length_cons, List.length_cons, List.length_append]
    omega
  have hsum : ∀ (line : List Lexeme) (ms : List MemberForm), m ∈ ms →
      (m.tree c.style).leaves.length ≤ (Tree.leavesOf (memberTrees c.style line ms)).length := by
    intro line ms
    induction ms with
    | nil => exact fun h => nomatch h
    | cons u us ih =>
        intro h
        rw [leavesOf_memberTrees_cons, List.length_append, List.length_append]
        rcases List.mem_cons.mp h with rfl | h
        · omega
        · have := ih h
          omega
  have hclass := hsum (lineLexemes layout (layout.baseIndent ++ c.indent)) c.members hm
  rw [tree_eq, Tree.leaves, leavesOf_classTrees, classStart]
  simp only [List.length_append, List.length_cons]
  omega

end ClassForm

namespace Grammar

/-- The class of an extraction is read as an item. -/
theorem readsAdded_class {c : Course} {form : ClassForm} {layout : Layout}
    (hform : form.IsWritable) (hdeclaration : c.edit.declaration = form.tree layout)
    (hseparator : ∀ l ∈ c.edit.separator, l.isTrivia = true)
    {k : Nat} (hbehind : c.behind = readProduction c.limit (k + 1))
    (hk : (form.tree layout).leaves.length ≤ k + 1) : c.ReadsAdded := by
  have htree := form.tree_eq layout
  have hreads : ∀ m ∈ form.members, ReadsMember c.behind form.style m := by
    intro m hm
    have := form.length_member layout hm
    rw [hbehind]
    exact readsMember_readProduction c.limit k (hform.members m hm).2 (by omega)
  refine ⟨?_, ?_⟩
  · rw [Edit.addedLexemes, hdeclaration, htree, Tree.leaves, leavesOf_classTrees, classStart]
    simp
  · intro braced p ls n hrest hpending hfuel
    rw [Edit.addedLexemes, hdeclaration, htree, Tree.leaves] at hrest hfuel
    rw [kindsOf_append, kindsOf_trivia hseparator, List.nil_append] at hfuel
    rw [List.append_assoc] at hrest
    rw [Edit.added, hdeclaration, htree]
    exact read_classItem (ClassForm.trivia_lineLexemes _ _) (ClassForm.trivia_lineLexemes _ _) hreads
      hseparator hrest hpending hfuel

end Grammar

end Nominal
