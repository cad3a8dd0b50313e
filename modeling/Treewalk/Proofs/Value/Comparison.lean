import Mathlib.Algebra.Group.Nat.Defs
import Treewalk.Proofs.Value.Stack
import Treewalk.Proofs.Value.Walks

/-!
# The comparison ends

Values are compared with a stack of the pairs of arrays that are under comparison. One and the same
stack is passed down to the elements and up again, so what is said about it is true only if all
comparisons on the way leave it as they found it. The fuel is the number of comparisons that may be
under way inside of each other.

A pair is only put on the stack if it is not there, so a stack never has more pairs than there are.
This is why comparisons do not run out of fuel that allows one more level than that
(`Heap.compares_equalByStack`). The main statement is `Heap.comparison_ends`.
-/

namespace Treewalk

/-- Do the values of two lists pass one by one, up to the end of the shorter list? Behind two that
    do not, no more are looked at. -/
def Walk.allPass {α : Type} (step : Value → Value → Walk α Bool) :
    List Value → List Value → Walk α Bool
  | x :: xs, y :: ys => do
    if ← step x y then allPass step xs ys else return false
  | _, _ => return true

namespace Heap

/-- Compares two values with a stack of the pairs of arrays that are under comparison. -/
def equalByStack (h : Heap) (fuel : Nat) (a b : Value) : Walk (Nat × Nat) Bool :=
  match fuel with
  | 0 => failure
  | fuel + 1 =>
    match a, b with
    | .null, .null => return true
    | .bool x, .bool y => return x == y
    | .number x, .number y => return x == y
    | .string s, .string t => return s == t
    | .function f, .function g => return f.id == g.id
    | .array i, .array j => do
      if i = j then return true
      if ← Walk.turnsBack (i, j) then return true
      match h.array? i, h.array? j with
      | some xs, some ys =>
        if xs.size ≠ ys.size then return false
        Walk.enter (i, j)
        let equal ← Walk.allPass (h.equalByStack fuel) xs.toList ys.toList
        Walk.leave
        return equal
      | _, _ => return false
    | _, _ => return false

variable {h : Heap} {P : List (Nat × Nat) → Prop} {t : Track (Nat × Nat)} {i j : Nat}

/-- A comparison inside of the pairs on the stack leaves the stack as it is, and there is nothing
    else to say about the places where it turns back. -/
abbrev Compares (P : List (Nat × Nat) → Prop) (walk : Walk (Nat × Nat) Bool) (t : Track (Nat × Nat))
    (equal : Bool) : Prop :=
  Walk.Returns P (fun _ => True) walk t equal

open Walk

/-- Lists are compared one by one, as their elements are compared inside of the same pairs. -/
theorem compares_allPass {step : Value → Value → Walk (Nat × Nat) Bool} {pending : List (Nat × Nat)}
    (hstep : ∀ x y (t' : Track (Nat × Nat)), t'.inside = pending →
      Compares P (step x y) t' (h.equalWithin pending x y))
    (xs ys : List Value) (ht : t.inside = pending) :
    Compares P (allPass step xs ys) t (h.equalAllWithin pending xs ys) := by
  induction xs generalizing ys t with
  | nil =>
    simp only [allPass, equalAllWithin]
    exact returns_pure P _ t true
  | cons x xs ih =>
    cases ys with
    | nil =>
      simp only [allPass, equalAllWithin]
      exact returns_pure P _ t true
    | cons y ys =>
      rw [allPass, equalAllWithin]
      refine returns_bind (hstep x y t ht) fun t' ht' => ?_
      -- Behind two elements that differ, neither of the two goes on.
      cases h.equalWithin pending x y with
      | true => exact ih ys (ht'.trans ht)
      | false => exact returns_pure P _ t' false

/-- Two arrays are compared inside of the pairs on the stack, if this is so for their elements
    inside of one pair more. -/
theorem compares_arrays {fuel : Nat} (hP : Stacking h.arrayPairs P) (ht : P t.inside)
    (hfuel : unseen h.arrayPairs t.inside < fuel + 1)
    (hstep : ∀ x y (t' : Track (Nat × Nat)), P t'.inside → unseen h.arrayPairs t'.inside < fuel →
      Compares P (h.equalByStack fuel x y) t' (h.equalWithin t'.inside x y)) :
    Compares P (h.equalByStack (fuel + 1) (.array i) (.array j)) t
      (h.equalWithin t.inside (.array i) (.array j)) := by
  rw [equalByStack]
  by_cases hij : i = j
  · rw [if_pos hij, hij, equalWithin_self]
    exact returns_pure P _ t true
  rw [if_neg hij]
  refine returns_bind (returns_turnsBack P fun _ => trivial) fun t₁ ht₁ => ?_
  cases hfresh : t.inside.contains (i, j) with
  | true =>
    -- The pair is met again inside of itself, and counts as equal there.
    rw [if_pos rfl, equalWithin_pending h hfresh]
    exact returns_pure P _ t₁ true
  | false =>
    rw [if_neg Bool.false_ne_true]
    cases hi : h.array? i with
    | none =>
      rw [equalWithin_dangling hij hfresh (.inl hi)]
      exact returns_pure P _ t₁ false
    | some xs =>
      cases hj : h.array? j with
      | none =>
        rw [equalWithin_dangling hij hfresh (.inr hj)]
        exact returns_pure P _ t₁ false
      | some ys =>
        rw [equalWithin_fresh hij hfresh hi hj]
        dsimp only
        by_cases hsize : xs.size = ys.size
        · have hmem : (i, j) ∈ h.arrayPairs :=
            mem_arrayPairs.2 ⟨lt_size_of_array? hi, lt_size_of_array? hj⟩
          -- The pair is new. So there are fewer left for its elements, and they need one level of
          -- fuel less.
          have hfewer : unseen h.arrayPairs ((i, j) :: t.inside) < fuel :=
            unseen_cons_lt_of_lt_succ hmem hfresh hfuel
          have hin : P ((i, j) :: t.inside) := hP.of_new hmem hfresh ht
          rw [if_neg (not_not_intro hsize), hsize, beq_self_eq_true, Bool.true_and]
          rw [← ht₁] at ht hin hfewer ⊢
          refine returns_within hin ht (fun t₂ ht₂ => ?_) fun t₂ _ => returns_pure P _ t₂ _
          refine compares_allPass (fun x y t₃ ht₃ => ?_) _ _ ht₂
          rw [← ht₃] at hin hfewer ⊢
          exact hstep x y t₃ hin hfewer
        · rw [if_pos hsize, beq_false_of_ne hsize, Bool.false_and]
          exact returns_pure P _ t₁ false

/-- Comparisons come to the end inside of any pairs, if the fuel is more than the number of pairs
    that are not yet on the stack. -/
theorem compares_equalByStack (hP : Stacking h.arrayPairs P) {fuel : Nat} (a b : Value)
    (ht : P t.inside) (hfuel : unseen h.arrayPairs t.inside < fuel) :
    Compares P (h.equalByStack fuel a b) t (h.equalWithin t.inside a b) := by
  induction fuel generalizing a b t with
  | zero => exact absurd hfuel (Nat.not_lt_zero _)
  | succ fuel ih =>
    cases a with
    | array i =>
      cases b with
      -- Only two arrays use the stack, and only their elements the rest of the fuel.
      | array j => exact compares_arrays hP ht hfuel fun x y t' => ih x y
      | _ =>
        simp only [equalByStack, equalWithin]
        exact returns_pure P _ t false
    | _ =>
      cases b <;>
      · simp only [equalByStack, equalWithin]
        exact returns_pure P _ t _

/-- There are as many pairs of arrays as the square of their number. -/
theorem length_arrayPairs (h : Heap) : h.arrayPairs.length = h.arrays.size ^ 2 := by
  simp [arrayPairs, List.length_flatMap, Nat.pow_two]

/-- **Equality ends on every heap.** Whatever arrays hold each other, a comparison comes to the end
    with the answer if as many comparisons may be under way inside of each other as there are pairs
    of arrays, and one more. It leaves the stack of pairs as it was, whatever was on it, and adds no
    pair that is already there and none that is not of arrays of the heap. So a comparison that
    starts outside of all pairs never has more than these on its stack. -/
theorem comparison_ends (h : Heap) (a b : Value) (fuel : Nat)
    (hfuel : h.arrays.size ^ 2 + 1 ≤ fuel) :
    (∀ t : Track (Nat × Nat), ∃ history turns,
      (h.equalByStack fuel a b).run t =
          some (h.equalWithin t.inside a b, ⟨t.inside, t.history ++ history, t.turns ++ turns⟩) ∧
        (Track.Orderly h.arrayPairs t.inside →
          ∀ pending ∈ history, Track.Orderly h.arrayPairs pending)) ∧
    ∃ t : Track (Nat × Nat), (h.equalByStack fuel a b).run .start = some (h.equal a b, t) ∧
      t.inside = [] ∧
      ∀ pending ∈ t.history, Track.Orderly h.arrayPairs pending ∧
        pending.length ≤ h.arrays.size ^ 2 := by
  have hunseen (pending : List (Nat × Nat)) : unseen h.arrayPairs pending < fuel := by
    have hle : unseen h.arrayPairs pending ≤ h.arrayPairs.length := List.countP_le_length
    rw [length_arrayPairs] at hle
    exact Nat.lt_of_le_of_lt hle hfuel
  constructor
  · intro t
    -- Nothing is known of the stack, so it is only said that the stacks are orderly if this one is.
    obtain ⟨history, turns, hrun, hhistory, -⟩ := compares_equalByStack
      (P := fun stack => Track.Orderly h.arrayPairs t.inside → Track.Orderly h.arrayPairs stack)
      (fun p hp stack hnew hstack ht => Track.Orderly.stacking p hp stack hnew (hstack ht)) a b id
        (hunseen _)
    exact ⟨history, turns, hrun, fun ht pending hpending => hhistory pending hpending ht⟩
  · have hcompares : Compares (Track.Orderly h.arrayPairs) (h.equalByStack fuel a b) .start
        (h.equal a b) :=
      compares_equalByStack Track.Orderly.stacking a b .nil (hunseen _)
    obtain ⟨t, hrun, hinside, hhistory, -⟩ := hcompares.from_start
    exact ⟨t, hrun, hinside, length_arrayPairs h ▸ hhistory⟩

/-- Two arrays that hold each other are compared inside of two pairs, one for each order. -/
theorem comparison_ends_between_cycles :
    2 ^ 2 + 1 ≤ 5 ∧
      ∃ t : Track (Nat × Nat),
        (equalByStack ⟨#[#[.array 1], #[.array 0]], 0⟩ 5 (.array 0) (.array 1)).run .start =
          some (true, t) ∧
          t.inside = [] ∧ ∀ pending ∈ t.history,
            Track.Orderly (arrayPairs ⟨#[#[.array 1], #[.array 0]], 0⟩) pending ∧
              pending.length ≤ 2 ^ 2 := by
  obtain ⟨-, t, hrun, hinside, hhistory⟩ :=
    comparison_ends ⟨#[#[.array 1], #[.array 0]], 0⟩ (.array 0) (.array 1) 5 (by decide)
  have hequal : equal ⟨#[#[.array 1], #[.array 0]], 0⟩ (.array 0) (.array 1) = true := by cbv
  exact ⟨by decide, t, by rw [hrun, hequal], hinside, hhistory⟩

/-- The stack of this comparison, from one change to the next. -/
example :
    (equalByStack ⟨#[#[.array 1], #[.array 0]], 0⟩ 5 (.array 0) (.array 1)).run .start =
      some (true, ⟨[], [[], [(0, 1)], [(1, 0), (0, 1)], [(0, 1)], []], [(0, 1)]⟩) := by
  cbv

end Heap

end Treewalk
