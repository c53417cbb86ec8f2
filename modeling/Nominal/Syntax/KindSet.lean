import Nominal.Syntax.Kind

/-!
# Sets of Kinds

The parser asks of the next token whether it may start an expression, end a list, or be
a place to go on after an error. Each such question is a set of kinds. A set is held as
its characteristic function, so that membership is evaluation, and it is listed in the
order of the kinds, so that two sets with the same members print alike.

## Main definitions

* `KindSet`: A set of kinds.
* `KindSet.toList`: The members, in the order of the kinds.
* `KindSet.render`: The members by name, in braces.

## Theorems

* `KindSet.mem_toList`: The list of members holds the members and nothing else.
-/

namespace Nominal

namespace Syntax

/-- A set of kinds. -/
structure KindSet where
  /-- Whether a kind is a member. -/
  contains : Kind → Bool

namespace KindSet

/-- The set without members. -/
def empty : KindSet := ⟨fun _ => false⟩

/-- The set with the one member `k`. -/
def single (k : Kind) : KindSet := ⟨fun j => j == k⟩

/-- The members of either set. -/
def union (a b : KindSet) : KindSet := ⟨fun k => a.contains k || b.contains k⟩

/-- The set of the kinds in a list. -/
def ofList (ks : List Kind) : KindSet := ⟨fun k => ks.contains k⟩

/-- The members, in the order of the kinds. -/
def toList (s : KindSet) : List Kind := Kind.all.filter s.contains

/-- Listing a set loses no member and adds none. -/
theorem mem_toList (s : KindSet) (k : Kind) : k ∈ s.toList ↔ s.contains k = true := by
  simp only [toList, List.mem_filter, Kind.mem_all, true_and]

/-- Whether two sets have the same members. -/
def sameMembers (a b : KindSet) : Bool := a.toList == b.toList

/-- The names of the members between braces, parted by a comma and a blank. -/
def render (s : KindSet) : String :=
  "\x7b" ++ ", ".intercalate (s.toList.map Kind.name) ++ "\x7d"

/-- Words that may stand in front of a declaration. -/
def modifiers : KindSet := ⟨Kind.isModifier⟩

/-- Tokens that are a value by themselves. -/
def literals : KindSet :=
  ofList [.stringLiteral, .charLiteral, .intLiteral, .realLiteral, .kwNull, .kwTrue, .kwFalse]

/-- Operators that stand before their operand. -/
def prefixOps : KindSet := ofList [.bang, .minus, .plus, .plusPlus, .minusMinus]

/-- Tokens that may start an expression. -/
def exprFirst : KindSet :=
  literals.union (prefixOps.union (ofList [.kwThis, .kwNew, .id, .predefinedType, .parenOpen]))

/-- Operators that assign to what stands on their left. -/
def assignOps : KindSet := ofList [.equals, .plusEq, .minusEq]

/-- Blanks, line ends and comments. -/
def trivia : KindSet := ⟨Kind.isTrivia⟩

/-- Tokens that may start a member of a namespace or of a file. -/
def itemFirst : KindSet :=
  modifiers.union (ofList [.kwUsing, .kwNamespace, .kwClass, .kwStruct])

/-- Where the body of a type is taken up again after an error. -/
def memberRecovery : KindSet :=
  modifiers.union (ofList [.braceClose, .kwClass, .kwStruct, .kwVoid, .predefinedType, .id])

/-- Where a block is taken up again after an error. -/
def stmtRecovery : KindSet :=
  ofList [.semicolon, .braceClose, .kwReturn, .kwIf, .kwForeach, .kwVar]

/-- Tokens that close a list or the statement around it. -/
def listRecovery : KindSet :=
  ofList [.parenClose, .braceClose, .bracketClose, .semicolon]

end KindSet

end Syntax

end Nominal
