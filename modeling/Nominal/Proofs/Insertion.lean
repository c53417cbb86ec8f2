import Nominal.Text.Span

/-!
# Insertions into a Text

What it means that a text is another one with insertions and nothing else. The relation
cuts the first text where the insertions say and puts their texts in between, so nothing
of the first text can be lost or moved. The offsets count bytes of the first text, and a
cut is only possible between two of its characters.

## Main definitions

* `Insertion`: A text to put in, and the offset where.
* `Inserted`: A text that starts at an offset, and the same text with insertions.

## Theorems

* `Inserted.keep`: A text in front stays as it is.
* `Inserted.append`: Insertions into two texts are insertions into both in turn.
-/

namespace Nominal

namespace Text

/-- A text to put in, and the offset where. -/
structure Insertion where
  offset : Nat
  text : String
deriving DecidableEq, Repr

/-- A text that starts at an offset, and the same text with the insertions, each where its
    offset says. -/
inductive Inserted : Nat → List Insertion → String → String → Prop where
  | done (start : Nat) (text : String) : Inserted start [] text text
  | insert {start : Nat} {i : Insertion} {is : List Insertion} {before behind new : String} :
    i.offset = start + before.utf8ByteSize → Inserted i.offset is behind new →
      Inserted start (i :: is) (before ++ behind) (before ++ (i.text ++ new))

/-- A span of a text holds a piece of it. -/
def Span.Holds (s : Span) (text piece : String) : Prop :=
  ∃ before behind, text = before ++ piece ++ behind ∧
    s = Span.ofWidth before.utf8ByteSize piece.utf8ByteSize

namespace Inserted

variable {start : Nat} {is js : List Insertion} {a a' b b' : String}

/-- A text in front stays as it is. -/
theorem keep (a : String) (h : Inserted (start + a.utf8ByteSize) is b b') :
    Inserted start is (a ++ b) (a ++ b') := by
  cases h with
  | done => exact .done _ _
  | @insert _ i is before behind new ho hrest =>
      have hbefore : i.offset = start + (a ++ before).utf8ByteSize := by
        rw [ho, String.utf8ByteSize_append, Nat.add_assoc]
      have hwhole := Inserted.insert hbefore hrest
      rwa [String.append_assoc, String.append_assoc] at hwhole

/-- A text put in right at the start. -/
theorem here (text : String) (h : Inserted start is b b') :
    Inserted start (⟨start, text⟩ :: is) b (text ++ b') := by
  have hoffset : start = start + "".utf8ByteSize := (Nat.add_zero start).symm
  have hwhole := @Inserted.insert start ⟨start, text⟩ is "" b b' hoffset h
  rwa [String.empty_append, String.empty_append] at hwhole

/-- Insertions into two texts are insertions into both in turn. -/
theorem append (h : Inserted start is a a') (h' : Inserted (start + a.utf8ByteSize) js b b') :
    Inserted start (is ++ js) (a ++ b) (a' ++ b') := by
  induction h with
  | done start text => exact keep text h'
  | @insert start i is before behind new ho hrest ih =>
      rw [String.utf8ByteSize_append, ← Nat.add_assoc, ← ho] at h'
      have hwhole := Inserted.insert ho (ih h')
      simpa only [List.cons_append, String.append_assoc] using hwhole

end Inserted

end Text

end Nominal
