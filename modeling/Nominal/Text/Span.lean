/-!
# Spans of a Text

A span is a stretch of a text, given by the offsets of its two ends. Offsets count bytes
of the text's UTF-8 form, so that the width of a joined text is the sum of the widths of
its parts.

## Main definitions

* `Span`: The stretch between two offsets.
* `Span.touches`: Whether an offset lies in a span or at one of its ends.
* `Span.reachesOver`: Whether a span starts before another one and covers it.
-/

namespace Nominal

namespace Text

/-- The stretch of a text from the offset `start` up to the offset `stop`. -/
structure Span where
  start : Nat
  stop : Nat
deriving DecidableEq, Repr, Inhabited

namespace Span

/-- The span without extent at an offset. -/
def empty (offset : Nat) : Span := ⟨offset, offset⟩

/-- The span of a given width that starts at an offset. -/
def ofWidth (start width : Nat) : Span := ⟨start, start + width⟩

/-- The number of bytes that a span covers. -/
def width (s : Span) : Nat := s.stop - s.start

/-- Whether an offset lies in a span or at one of its ends. -/
def touches (s : Span) (offset : Nat) : Bool :=
  decide (s.start ≤ offset) && decide (offset ≤ s.stop)

/-- Whether `outer` starts before `inner` and covers it. -/
def reachesOver (outer inner : Span) : Bool :=
  decide (outer.start < inner.start) && decide (inner.stop ≤ outer.stop)

end Span

end Text

end Nominal
