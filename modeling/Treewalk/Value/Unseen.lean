/-! # Walks that remember where they are

A walk over a heap that may run in circles carries the places that it is inside of, and turns back
at a place that it meets again. `unseen` counts the places where it can still go; each step to a
fresh place makes that number smaller, which is why such walks end. -/

namespace Treewalk

/-- Number of the elements of `all` that are not in `seen`. -/
def unseen {α : Type} [BEq α] (all seen : List α) : Nat := all.countP (!seen.contains ·)

/-- With one more element in `seen`, there are fewer that are not. -/
theorem unseen_cons_lt {α : Type} [BEq α] [LawfulBEq α] {all seen : List α} {a : α}
    (inside : a ∈ all)
    (fresh : seen.contains a = false) : unseen all (a :: seen) < unseen all seen := by
  -- What is unseen before is unseen after, or it is the element itself, which is there at least
  -- once.
  have parts : unseen all seen = unseen all (a :: seen) +
      all.countP (fun b => b == a && !seen.contains b) := by
    clear inside
    unfold unseen
    induction all with
    | nil => rfl
    | cons b rest ih =>
      simp only [List.countP_cons, ih, List.contains_cons]
      cases b == a <;> simp <;> omega
  have positive : 0 < all.countP fun b => b == a && !seen.contains b :=
    List.countP_pos_iff.2 ⟨a, inside, by rw [fresh]; simp⟩
  omega

end Treewalk
