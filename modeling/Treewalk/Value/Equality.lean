import Treewalk.Value
import Treewalk.Value.Unseen

/-! # Equality of values

Null equals null, booleans, numbers and strings equal what holds the same, a function equals only
itself, and arrays are equal if they are the same array or have equal elements in the same order.
Numbers compare as doubles, so a value that is not a number differs from itself, while an array that
holds it does not. Arrays may hold themselves, so the walk keeps the pairs of arrays it is inside
of, and a pair met again there counts as equal. Every step down adds another pair of arrays of the
heap, so the walk ends. -/

namespace Treewalk.Heap

/-- All pairs of arrays of the heap. -/
def arrayPairs (h : Heap) : List (Nat × Nat) :=
  (List.range h.arrays.size).flatMap fun i => (List.range h.arrays.size).map fun j => (i, j)

/-- A pair of arrays of the heap is a pair of references below its size. -/
theorem mem_arrayPairs {h : Heap} {p : Nat × Nat} :
    p ∈ h.arrayPairs ↔ p.1 < h.arrays.size ∧ p.2 < h.arrays.size := by
  obtain ⟨i, j⟩ := p
  simp [arrayPairs]

mutual

/-- Compares two values inside of the pairs of arrays `pending`. -/
def equalWithin (h : Heap) (pending : List (Nat × Nat)) (a b : Value) : Bool :=
  match a, b with
  | .null, .null => true
  | .bool x, .bool y => x == y
  | .number x, .number y => x == y
  | .string s, .string t => s == t
  | .function f, .function g => f.id == g.id
  | .array i, .array j =>
    -- The same array equals itself even if it holds what is not a number.
    if i = j then true
    else if _fresh : pending.contains (i, j) = false then
      match _left : h.array? i, _right : h.array? j with
      | some xs, some ys =>
        xs.size == ys.size && h.equalAllWithin ((i, j) :: pending) xs.toList ys.toList
      | _, _ => false
    else true
  | _, _ => false
termination_by (unseen h.arrayPairs pending, 0)
decreasing_by
  exact Prod.Lex.left _ _
    (unseen_cons_lt (mem_arrayPairs.2 ⟨lt_size_of_array? _left, lt_size_of_array? _right⟩) _fresh)

/-- Compares the values of two lists one by one up to the end of the shorter one. -/
def equalAllWithin (h : Heap) (pending : List (Nat × Nat)) (xs ys : List Value) : Bool :=
  match xs, ys with
  | x :: xs, y :: ys => h.equalWithin pending x y && h.equalAllWithin pending xs ys
  | _, _ => true
termination_by (unseen h.arrayPairs pending, xs.length + 1)

end

/-- Are two values equal? -/
def equal (h : Heap) (a b : Value) : Bool := h.equalWithin [] a b

end Treewalk.Heap
