/-! # Source spans

A `Span` is a byte range of a source text together with the line on which it starts. Tokens,
operator nodes of the tree and diagnostics all carry one. -/

namespace Treewalk

/-- A byte range `start ≤ i < stop` of a source, and the line of its first byte, counted from
    one. -/
structure Span where
  start : Nat
  stop : Nat
  line : Nat
deriving DecidableEq, Repr, Inhabited

namespace Span

/-- The empty range at `offset`. -/
def point (offset line : Nat) : Span := ⟨offset, offset, line⟩

/-- Number of bytes covered. A range whose end lies before its start covers none. -/
def length (s : Span) : Nat := s.stop - s.start

/-- Does the range cover no byte? -/
def isEmpty (s : Span) : Bool := s.length == 0

/-- A point has no length. -/
@[simp] theorem length_point (offset line : Nat) : (point offset line).length = 0 := by
  simp [point, length]

/-- A point is empty. -/
@[simp] theorem isEmpty_point (offset line : Nat) : (point offset line).isEmpty = true := by
  simp [isEmpty]

end Span

end Treewalk
