import Mathlib.Data.List.Forall2

/-!
# Related options, lists and results

`Option.Rel` and `List.Forall₂` lift a relation between elements to options and to lists. These are
the operations on options and lists that respect the lifted relations. `Except.Rel` does the same
for results that may be errors. At the end are lists of options, which have a value if all of their
elements have one.
-/

variable {α β γ δ : Type} {r : α → β → Prop} {r' : γ → δ → Prop}

/-- Related values, or the same error. -/
inductive Except.Rel {ε : Type} (r : α → β → Prop) : Except ε α → Except ε β → Prop where
  | ok {a : α} {b : β} (h : r a b) : Rel r (.ok a) (.ok b)
  | error (e : ε) : Rel r (.error e) (.error e)

/-- A result is related to itself if its value is. -/
theorem Except.Rel.refl {ε : Type} {r : α → α → Prop} (h : ∀ a, r a a) (x : Except ε α) :
    Except.Rel r x x := by
  cases x with
  | ok a => exact .ok (h a)
  | error e => exact .error e

namespace Option.Rel

variable {a : Option α} {b : Option β}

/-- Of two related options both have a value or neither has. -/
theorem isSome_eq (h : Option.Rel r a b) : a.isSome = b.isSome := by cases h <;> rfl

/-- Of two related options both are `none` or neither is. -/
theorem eq_none_iff (h : Option.Rel r a b) : a = Option.none ↔ b = Option.none := by
  cases h <;> simp

/-- What is related to a value is a value. -/
theorem exists_of_some {x : α} (h : Option.Rel r (Option.some x) b) :
    ∃ y, b = Option.some y ∧ r x y := by
  cases h with
  | some h => exact ⟨_, rfl, h⟩

/-- Functions that keep the relation can be applied on both sides. -/
theorem map {f : α → γ} {g : β → δ} (h : Option.Rel r a b)
    (hmap : ∀ {x y}, r x y → r' (f x) (g y)) : Option.Rel r' (a.map f) (b.map g) := by
  cases h with
  | some h => exact .some (hmap h)
  | none => exact .none

/-- Related options have related values if their defaults are related as well. -/
theorem getD {d : α} {d' : β} (h : Option.Rel r a b) (hdefault : r d d') :
    r (a.getD d) (b.getD d') := by
  cases h with
  | some h => exact h
  | none => exact hdefault

/-- Options are related by all that the relation implies. -/
theorem imp {q : α → β → Prop} (h : Option.Rel r a b) (himp : ∀ x y, r x y → q x y) :
    Option.Rel q a b := by
  cases h with
  | some h => exact .some (himp _ _ h)
  | none => exact .none

/-- Related options have related lists of their values. -/
theorem toList (h : Option.Rel r a b) : List.Forall₂ r a.toList b.toList := by
  cases h with
  | some h => exact .cons h .nil
  | none => exact .nil

/-- Options that are related by equality are equal. -/
theorem eq {a b : Option α} (h : Option.Rel Eq a b) : a = b := by
  cases h with
  | some h => rw [h]
  | none => rfl

end Option.Rel

/-- A selection with a function is related to the selection by a property, if the function is
    defined where the property holds, and gives related elements there. -/
theorem List.forall₂_filter_filterMap {p : α → Bool} {f : α → Option β} {l : List α}
    (hsome : ∀ a ∈ l, p a = true → ∃ b, f a = some b ∧ r a b)
    (hnone : ∀ a ∈ l, p a = false → f a = none) : List.Forall₂ r (l.filter p) (l.filterMap f) := by
  induction l with
  | nil => exact .nil
  | cons a l ih =>
    have hothers := ih (fun a ha => hsome a (.tail _ ha)) (fun a ha => hnone a (.tail _ ha))
    -- The function has a value exactly for the elements that are kept.
    cases h : p a with
    | true =>
      obtain ⟨b, hb, hrel⟩ := hsome a (.head l) h
      rw [List.filter_cons_of_pos h, List.filterMap_cons_some hb]
      exact .cons hrel hothers
    | false =>
      rw [List.filter_cons_of_neg (Bool.not_eq_true _ ▸ h),
        List.filterMap_cons_none (hnone a (.head l) h)]
      exact hothers

namespace List.Forall₂

variable {as : List α} {bs : List β}

/-- Lists that each of some relations relates are related by all of them at once. -/
theorem «forall» {ι : Type} [Nonempty ι] {r : ι → α → β → Prop}
    (h : ∀ i, List.Forall₂ (r i) as bs) : List.Forall₂ (fun a b => ∀ i, r i a b) as bs := by
  induction as generalizing bs with
  | nil =>
    cases h (Classical.arbitrary ι)
    exact .nil
  | cons a as ih =>
    cases bs with
    | nil => exact nomatch h (Classical.arbitrary ι)
    | cons b bs =>
      have hcons (i : ι) : r i a b ∧ List.Forall₂ (r i) as bs := List.forall₂_cons.1 (h i)
      exact .cons (fun i => (hcons i).1) (ih fun i => (hcons i).2)

/-- Functions that agree on related elements agree on related lists. -/
theorem map_eq {f : α → γ} {g : β → γ} (h : List.Forall₂ r as bs)
    (hfg : ∀ {a b}, r a b → f a = g b) : as.map f = bs.map g := by
  induction h with
  | nil => rfl
  | cons hfirst _ ih => rw [List.map_cons, List.map_cons, hfg hfirst, ih]

/-- Every element on the left is related to one on the right. -/
theorem exists_mem (h : List.Forall₂ r as bs) {a : α} (ha : a ∈ as) : ∃ b ∈ bs, r a b := by
  induction h with
  | nil => exact nomatch ha
  | cons hfirst _ ih =>
    obtain rfl | ha := List.mem_cons.1 ha
    · exact ⟨_, List.mem_cons_self, hfirst⟩
    · obtain ⟨b, hb, hr⟩ := ih ha
      exact ⟨b, List.mem_cons_of_mem _ hb, hr⟩

/-- What a transitive relation relates to elements that it relates to others, it relates to
    these. -/
theorem trans {r : α → α → Prop} (hr : ∀ a b c, r a b → r b c → r a c) {as bs cs : List α}
    (h : List.Forall₂ r as bs) (h' : List.Forall₂ r bs cs) : List.Forall₂ r as cs := by
  induction h generalizing cs with
  | nil => exact h'
  | cons hab _ ih =>
    cases h' with
    | cons hbc hothers => exact .cons (hr _ _ _ hab hbc) (ih hothers)

/-- Elements at the same place are related. -/
theorem rel_getElem? (h : List.Forall₂ r as bs) (i : Nat) : Option.Rel r as[i]? bs[i]? := by
  induction h generalizing i with
  | nil => exact .none
  | cons hfirst _ ih =>
    cases i with
    | zero => exact .some hfirst
    | succ i => exact ih i

/-- Related lists stay related when related elements are put at the same position. -/
theorem rel_set {a : α} {b : β} (h : List.Forall₂ r as bs) (i : Nat) (hvalue : r a b) :
    List.Forall₂ r (as.set i a) (bs.set i b) := by
  induction h generalizing i with
  | nil => exact .nil
  | cons hfirst hothers ih =>
    cases i with
    | zero => exact .cons hvalue hothers
    | succ i => exact .cons hfirst (ih i)

/-- The longest runs with a property that related elements share are related. -/
theorem rel_takeWhile {p : α → Bool} {q : β → Bool} (h : List.Forall₂ r as bs)
    (hpq : ∀ {a b}, r a b → p a = q b) : List.Forall₂ r (as.takeWhile p) (bs.takeWhile q) := by
  induction h with
  | nil => exact .nil
  | @cons a b _ _ hfirst _ ih =>
    rw [List.takeWhile_cons, List.takeWhile_cons, hpq hfirst]
    cases q b with
    | true => exact .cons hfirst ih
    | false => exact .nil

/-- The first elements with a property that related elements share are related. -/
theorem rel_find? {p : α → Bool} {q : β → Bool} (h : List.Forall₂ r as bs)
    (hpq : ∀ {a b}, r a b → p a = q b) : Option.Rel r (as.find? p) (bs.find? q) := by
  induction h with
  | nil => exact .none
  | @cons a b _ _ hfirst _ ih =>
    rw [List.find?_cons, List.find?_cons, hpq hfirst]
    cases q b with
    | true => exact .some hfirst
    | false => exact ih

/-- What is found first is related if it is for related elements. -/
theorem rel_findSome? {f : α → Option γ} {g : β → Option δ} (h : List.Forall₂ r as bs)
    (hfg : ∀ {a b}, r a b → Option.Rel r' (f a) (g b)) :
    Option.Rel r' (as.findSome? f) (bs.findSome? g) := by
  induction h with
  | nil => exact .none
  | @cons a b _ _ hfirst _ ih =>
    have hfound := hfg hfirst
    rw [List.findSome?_cons, List.findSome?_cons]
    generalize f a = x, g b = y at hfound
    cases hfound with
    | some h => exact .some h
    | none => exact ih

/-- Sorting keeps lists related, if the orders agree on related elements. -/
theorem rel_mergeSort {le : α → α → Bool} {le' : β → β → Bool} (h : List.Forall₂ r as bs)
    (hle : ∀ {a b a' b'}, r a b → r a' b' → le a a' = le' b b') :
    List.Forall₂ r (as.mergeSort le) (bs.mergeSort le') := by
  obtain ⟨pairs, rfl, rfl, hpairs⟩ :
      ∃ pairs : List (α × β), as = pairs.map Prod.fst ∧ bs = pairs.map Prod.snd ∧
        ∀ p ∈ pairs, r p.1 p.2 :=
    ⟨as.zip bs, (List.map_fst_zip (Nat.le_of_eq h.length_eq)).symm,
      (List.map_snd_zip (Nat.le_of_eq h.length_eq.symm)).symm, fun _ => List.forall₂_zip h⟩
  -- Both lists are sorted by sorting the pairs.
  rw [← List.map_mergeSort (r := fun p q => le p.1 q.1) fun _ _ _ _ => rfl,
    ← List.map_mergeSort (r := fun p q => le p.1 q.1) fun p hp q hq =>
      hle (hpairs p hp) (hpairs q hq),
    List.forall₂_map_left_iff, List.forall₂_map_right_iff]
  exact List.forall₂_same.2 fun p hp => hpairs p (List.mem_mergeSort.1 hp)

end List.Forall₂

namespace List

variable {f : α → Option β} {xs : List α}

/-- If all options of a list have a value, these are the value of the list. -/
theorem mapM_eq_some_map {g : α → β} (h : ∀ x ∈ xs, f x = some (g x)) :
    xs.mapM f = some (xs.map g) := by
  induction xs with
  | nil => rfl
  | cons x xs ih =>
    obtain ⟨hfirst, hothers⟩ := List.forall_mem_cons.1 h
    rw [List.mapM_cons, hfirst, ih hothers]
    rfl

/-- If a list of options has a value, each of the options has one. -/
theorem isSome_of_isSome_mapM (h : (xs.mapM f).isSome) {x : α} (hx : x ∈ xs) : (f x).isSome := by
  induction xs with
  | nil => exact nomatch hx
  | cons y ys ih =>
    rw [List.mapM_cons, Option.bind_eq_bind, Option.isSome_bind, Option.any_eq_true] at h
    obtain ⟨z, hy, hys⟩ := h
    rw [Option.bind_eq_bind, Option.isSome_bind, Option.any_eq_true] at hys
    obtain ⟨zs, hys, -⟩ := hys
    obtain rfl | hx := List.mem_cons.1 hx
    · rw [hy, Option.isSome_some]
    · exact ih (Option.isSome_iff_exists.2 ⟨zs, hys⟩) hx

end List
