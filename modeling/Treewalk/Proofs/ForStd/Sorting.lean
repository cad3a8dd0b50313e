import Mathlib.Data.List.Perm.Subperm

/-!
# Lists in parts

A sorted list falls into the elements in front of some place and those behind it, and sorting leaves
elements that are in order already in the order that they have. Elements that are some of others, in
whatever order, stay so when a function is applied to all of them, and are different if the others
are.
-/

namespace List

variable {α β : Type} {l l' : List α}

/-- If what stands in front of an element with the property has it as well, then the elements with
    the property stand in front of all others. -/
theorem Pairwise.eq_filter_append_filter {r : α → α → Prop} {p : α → Bool} (h : l.Pairwise r)
    (hp : ∀ a b, r a b → p b = true → p a = true) : l = l.filter p ++ l.filter (!p ·) := by
  induction h with
  | nil => rfl
  | @cons a l hfirst _ ih =>
    cases ha : p a with
    | true =>
      rw [filter_cons_of_pos ha, filter_cons_of_neg (by simp [ha]), cons_append, ← ih]
    | false =>
      -- No element behind this one has the property either.
      have hnone : l.filter p = [] := by
        rw [filter_eq_nil_iff]
        intro b hb htrue
        rw [hp a b (hfirst b hb) htrue] at ha
        cases ha
      rw [hnone, nil_append] at ih
      rw [filter_cons_of_neg (by simp [ha]), filter_cons_of_pos (by simp [ha]), hnone, nil_append,
        ← ih]

/-- Sorting keeps the elements with a property in their order, if they are in order. -/
theorem filter_mergeSort {le : α → α → Bool} {p : α → Bool}
    (htrans : ∀ a b c, le a b = true → le b c = true → le a c = true)
    (htotal : ∀ a b, (le a b || le b a) = true)
    (h : (l.filter p).Pairwise fun a b => le a b = true) :
    (l.mergeSort le).filter p = l.filter p := by
  have hsub := (sublist_mergeSort htrans htotal h filter_sublist).filter p
  have hlength := ((mergeSort_perm l le).filter p).length_eq
  simp only [filter_filter, Bool.and_self] at hsub
  exact (hsub.eq_of_length_le (Nat.le_of_eq hlength)).symm

/-- Elements sorted by a number that is different for all below some bound fall into those below the
    bound, in strict order, and those at the bound, in the order in which they were. -/
theorem mergeSort_eq_append {f : α → Nat} {bound : Nat}
    (hne : (l.filter (f · < bound)).Pairwise fun a b => f a ≠ f b) (hle : ∀ a ∈ l, f a ≤ bound) :
    ∃ below, l.mergeSort (fun a b => decide (f a ≤ f b)) = below ++ l.filter (f · = bound) ∧
      (below.Pairwise fun a b => f a < f b) ∧ ∀ a ∈ below, f a < bound := by
  have htrans : ∀ a b c, decide (f a ≤ f b) = true → decide (f b ≤ f c) = true →
      decide (f a ≤ f c) = true := by
    intro a b c hab hbc
    exact decide_eq_true (Nat.le_trans (of_decide_eq_true hab) (of_decide_eq_true hbc))
  have htotal : ∀ a b, (decide (f a ≤ f b) || decide (f b ≤ f a)) = true := by
    intro a b
    simpa using Nat.le_total (f a) (f b)
  -- A sorted list falls into its elements below the bound and those at it, in this order.
  have hsorted := pairwise_mergeSort htrans htotal l
  have hperm := mergeSort_perm l fun a b => decide (f a ≤ f b)
  have hparts := hsorted.eq_filter_append_filter (p := (f · < bound)) fun a b hab hb =>
    decide_eq_true (Nat.lt_of_le_of_lt (of_decide_eq_true hab) (of_decide_eq_true hb))
  have hat : l.filter (fun a => !decide (f a < bound)) = l.filter (f · = bound) := by
    refine filter_congr fun a ha => ?_
    rw [← decide_not]
    exact decide_eq_decide.2
      ⟨fun h => Nat.le_antisymm (hle a ha) (Nat.le_of_not_lt h), fun h => h ▸ Nat.lt_irrefl _⟩
  -- All elements at the bound are equal for the order, so sorting leaves them in their order.
  have hkept : (l.filter fun a => !decide (f a < bound)).Pairwise fun a b =>
      decide (f a ≤ f b) = true := by
    rw [hat, pairwise_filter]
    refine pairwise_of_forall fun a b ha hb => ?_
    rw [of_decide_eq_true ha, of_decide_eq_true hb]
    exact decide_eq_true (Nat.le_refl bound)
  rw [filter_mergeSort htrans htotal hkept, hat] at hparts
  refine ⟨_, hparts, ?_, fun a ha => of_decide_eq_true (mem_filter.1 ha).2⟩
  -- Below the bound no two are equal, so there the order is strict.
  have hdistinct := (hperm.filter (f · < bound)).symm.pairwise hne fun h => h.symm
  exact (hsorted.filter (f · < bound)).imp₂
    (fun a b hab hne => Nat.lt_of_le_of_ne (of_decide_eq_true hab) hne) hdistinct

/-- The images of elements are among the images of all, also where some of them are the same. -/
theorem Subperm.map_any (f : α → β) (h : l <+~ l') : l.map f <+~ l'.map f := by
  obtain ⟨m, hperm, hsub⟩ := h
  exact ⟨m.map f, hperm.map f, hsub.map f⟩

/-- A list that lies within one without duplicates has none either. -/
theorem Nodup.of_subperm (hnodup : l'.Nodup) (h : l <+~ l') : l.Nodup := by
  obtain ⟨m, hperm, hsub⟩ := h
  exact hperm.nodup_iff.1 (hnodup.sublist hsub)

end List
