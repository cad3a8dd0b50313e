import Treewalk.Value.Equality
import Treewalk.Value.Rendering

/-!
# Walks over arrays

One step of the comparison and of the rendering of arrays, by what the walk meets: an array that it
is inside of already, a fresh array of the heap, or a reference to no array.
-/

namespace Treewalk.Heap

variable {h : Heap} {pending : List (Nat × Nat)} {i j : Nat}

/-! ## Comparing arrays -/

/-- An array is equal to itself, whatever is being compared. -/
theorem equalWithin_self (h : Heap) (pending : List (Nat × Nat)) (i : Nat) :
    h.equalWithin pending (.array i) (.array i) = true := by
  simp only [equalWithin, if_true]

/-- A pair that the walk is inside of counts as equal. -/
theorem equalWithin_pending (h : Heap) (hmem : pending.contains (i, j) = true) :
    h.equalWithin pending (.array i) (.array j) = true := by
  simp only [equalWithin]
  split
  · rfl
  · rw [dif_neg (ne_false_of_eq_true hmem)]

/-- Different arrays are compared by their elements, one step further inside. -/
theorem equalWithin_fresh (hne : i ≠ j) (hfresh : pending.contains (i, j) = false)
    {xs ys : Array Value} (hi : h.array? i = some xs) (hj : h.array? j = some ys) :
    h.equalWithin pending (.array i) (.array j) =
      (xs.size == ys.size && h.equalAllWithin ((i, j) :: pending) xs.toList ys.toList) := by
  simp only [equalWithin]
  rw [if_neg hne, dif_pos hfresh]
  split
  · next xs' ys' hi' hj' =>
    rw [hi] at hi'
    rw [hj] at hj'
    cases hi'
    cases hj'
    rfl
  · next hnone => exact absurd hj (hnone xs ys hi)

/-- What is no array differs from all arrays. -/
theorem equalWithin_dangling (hne : i ≠ j) (hfresh : pending.contains (i, j) = false)
    (hnone : h.array? i = none ∨ h.array? j = none) :
    h.equalWithin pending (.array i) (.array j) = false := by
  simp only [equalWithin]
  rw [if_neg hne, dif_pos hfresh]
  split
  · next xs ys hi hj =>
    simp [hi, hj] at hnone
  · rfl

/-! ## Rendering arrays -/

/-- An array that is met again inside of itself is not shown again. -/
theorem render_open {style : StringStyle} {opened : List Nat} (h : Heap)
    (hmem : opened.contains i = true) : h.render style opened (.array i) = "[...]" := by
  rw [render, dif_neg (ne_false_of_eq_true hmem)]

/-- An array is shown by its elements, one step further inside. -/
theorem render_fresh {style : StringStyle} {opened : List Nat} (hfresh : opened.contains i = false)
    {xs : Array Value} (hi : h.array? i = some xs) :
    h.render style opened (.array i) =
      "[" ++ ", ".intercalate (h.renderAll style (i :: opened) xs.toList) ++ "]" := by
  rw [render, dif_pos hfresh]
  split
  · next xs' hi' =>
    rw [hi] at hi'
    cases hi'
    rfl
  · next hnone =>
    rw [hi] at hnone
    cases hnone

/-- A reference to no array is rendered as an empty array. -/
theorem render_dangling {style : StringStyle} {opened : List Nat}
    (hfresh : opened.contains i = false)
    (hi : h.array? i = none) : h.render style opened (.array i) = "[]" := by
  rw [render, dif_pos hfresh]
  split
  · next xs hi' =>
    rw [hi] at hi'
    cases hi'
  · rfl

end Treewalk.Heap
