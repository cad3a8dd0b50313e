import Mathlib.Order.Bounds.Basic
import Treewalk.Proofs.ForStd.Rel
import Treewalk.Proofs.Value.Walks

/-!
# Equality is bisimilarity

Arrays may hold each other in any shape, so what it means for two of them to be equal cannot be said
by recursion. `Heap.SameLayer` says what one look at two values has to show, with the elements of
arrays left to a relation, and a *bisimulation* is a relation that holds only between values that
look the same by itself. `Heap.Bisimilar` is the greatest one.

The comparison stops at pairs of arrays that it is inside of and takes them as equal. That never
hides a difference. The reason is that a difference shows after finitely many looks
(`Heap.AlikeUpTo`): a pair that is alike up to some number of looks may be taken as equal while
elements are compared up to one look less (`Heap.alikeUpTo_of_equalWithin`). The main statement is
`Heap.equal_iff_bisimilar`.
-/

namespace Treewalk.Heap

variable {h : Heap} {R S : Value → Value → Prop} {a b : Value}

/-! ## One look at two values -/

/-- Values that look the same: they hold the same, they are the same function or the same array, or
    they are arrays with elements that are related one by one. Numbers hold the same if they compare
    as equal. -/
inductive SameLayer (h : Heap) (R : Value → Value → Prop) : Value → Value → Prop where
  | null : SameLayer h R .null .null
  | bool (value : Bool) : SameLayer h R (.bool value) (.bool value)
  | number {x y : Float} (hsame : (x == y) = true) : SameLayer h R (.number x) (.number y)
  | string (text : String) : SameLayer h R (.string text) (.string text)
  | function {f g : Closure} (hsame : f.id = g.id) : SameLayer h R (.function f) (.function g)
  | sameArray (ref : Nat) : SameLayer h R (.array ref) (.array ref)
  | elements {i j : Nat} {xs ys : Array Value} (hi : h.array? i = some xs)
      (hj : h.array? j = some ys)
      (helements : List.Forall₂ R xs.toList ys.toList) : SameLayer h R (.array i) (.array j)

/-- Values have the same layer also for a wider relation of their elements. -/
theorem SameLayer.mono (hlayer : h.SameLayer R a b) (himp : ∀ x y, R x y → S x y) :
    h.SameLayer S a b := by
  cases hlayer with
  | null => exact .null
  | bool value => exact .bool value
  | number hsame => exact .number hsame
  | string text => exact .string text
  | function hsame => exact .function hsame
  | sameArray ref => exact .sameArray ref
  | elements hi hj helements => exact .elements hi hj (helements.imp himp)

/-- Different arrays look the same only if their elements are related. -/
theorem SameLayer.elements_of_ne {i j : Nat} (hlayer : h.SameLayer R (.array i) (.array j))
    (hne : i ≠ j) :
    ∃ xs ys, h.array? i = some xs ∧ h.array? j = some ys ∧ List.Forall₂ R xs.toList ys.toList := by
  cases hlayer with
  | sameArray ref => exact absurd rfl hne
  | elements hi hj helements => exact ⟨_, _, hi, hj, helements⟩

/-! ## The greatest relation -/

/-- A relation that holds only between values that look the same by the relation itself. -/
def IsBisimulation (h : Heap) (R : Value → Value → Prop) : Prop := ∀ a b, R a b → h.SameLayer R a b

/-- Values that some bisimulation relates. -/
def Bisimilar (h : Heap) (a b : Value) : Prop := ∃ R, h.IsBisimulation R ∧ R a b

/-- Bisimilar values look the same, with bisimilar elements. -/
theorem Bisimilar.sameLayer (hab : h.Bisimilar a b) : h.SameLayer h.Bisimilar a b := by
  obtain ⟨R, hR, hab⟩ := hab
  exact (hR a b hab).mono fun x y hxy => ⟨R, hR, hxy⟩

/-- Bisimilarity is the greatest bisimulation. -/
theorem isGreatest_bisimilar (h : Heap) : IsGreatest {R | h.IsBisimulation R} h.Bisimilar :=
  ⟨fun _ _ hab => hab.sameLayer, fun R hR _ _ hab => ⟨R, hR, hab⟩⟩

/-! ## Finitely many looks -/

/-- Values that look the same as far down as `n` looks go. -/
def AlikeUpTo (h : Heap) : Nat → Value → Value → Prop
  | 0 => fun _ _ => True
  | n + 1 => h.SameLayer (h.AlikeUpTo n)

/-- Fewer looks show no more. -/
theorem AlikeUpTo.of_succ {n : Nat} (hab : h.AlikeUpTo (n + 1) a b) : h.AlikeUpTo n a b := by
  induction n generalizing a b with
  | zero => exact trivial
  | succ n ih => exact SameLayer.mono hab fun x y hxy => ih hxy

/-- To look the same however far down is a bisimulation, since an array has one list of elements. -/
theorem isBisimulation_alikeUpTo (h : Heap) :
    h.IsBisimulation fun a b => ∀ n, h.AlikeUpTo n a b := by
  intro a b hab
  have hlayer (n : Nat) : h.SameLayer (h.AlikeUpTo n) a b := hab (n + 1)
  cases hlayer 0 with
  | null => exact .null
  | bool value => exact .bool value
  | number hsame => exact .number hsame
  | string text => exact .string text
  | function hsame => exact .function hsame
  | sameArray ref => exact .sameArray ref
  | @elements i j xs ys hi hj _ =>
    by_cases hij : i = j
    · rw [hij]
      exact .sameArray j
    · -- The elements are the same lists at every depth, so they are alike at all depths.
      refine .elements hi hj (List.Forall₂.forall fun n => ?_)
      obtain ⟨xs', ys', hi', hj', helements⟩ := (hlayer n).elements_of_ne hij
      rw [hi] at hi'
      rw [hj] at hj'
      cases hi'
      cases hj'
      exact helements

/-! ## The comparison -/

/-- Lists of the same length that compare as equal do so one by one. -/
theorem forall₂_of_equalAllWithin {pending : List (Nat × Nat)} {xs ys : List Value}
    (hlength : xs.length = ys.length) (hequal : h.equalAllWithin pending xs ys = true) :
    List.Forall₂ (fun x y => h.equalWithin pending x y = true) xs ys := by
  induction xs generalizing ys with
  | nil =>
    obtain rfl := List.length_eq_zero_iff.1 hlength.symm
    exact .nil
  | cons x xs ih =>
    cases ys with
    | nil => exact nomatch hlength
    | cons y ys =>
      rw [equalAllWithin, Bool.and_eq_true] at hequal
      exact .cons hequal.1 (ih (Nat.succ.inj hlength) hequal.2)

/-- Values that compare as equal are a pair that the comparison is inside of, or look the same, with
    elements that compare as equal inside of the pair. -/
theorem sameLayer_of_equalWithin {pending : List (Nat × Nat)}
    (hequal : h.equalWithin pending a b = true) :
    (∃ p ∈ pending, a = .array p.1 ∧ b = .array p.2) ∨
      h.SameLayer (fun x y => ∃ i j, a = .array i ∧ b = .array j ∧
        h.equalWithin ((i, j) :: pending) x y = true) a b := by
  cases a with
  | array i =>
    cases b with
    | array j =>
      -- Two arrays are equal for one of three reasons: they are the same one, they are being
      -- compared already, or their elements are equal.
      by_cases hij : i = j
      · rw [hij]
        exact .inr (.sameArray j)
      by_cases hfresh : pending.contains (i, j) = false
      · cases hi : h.array? i with
        | none =>
          rw [equalWithin_dangling hij hfresh (.inl hi)] at hequal
          exact nomatch hequal
        | some xs =>
          cases hj : h.array? j with
          | none =>
            rw [equalWithin_dangling hij hfresh (.inr hj)] at hequal
            exact nomatch hequal
          | some ys =>
            rw [equalWithin_fresh hij hfresh hi hj, Bool.and_eq_true, beq_iff_eq] at hequal
            have helements := forall₂_of_equalAllWithin hequal.1 hequal.2
            exact .inr (.elements hi hj (helements.imp fun x y hxy => ⟨i, j, rfl, rfl, hxy⟩))
      · have hmem : (i, j) ∈ pending := List.contains_iff_mem.1 (eq_true_of_ne_false hfresh)
        exact .inl ⟨(i, j), hmem, rfl, rfl⟩
    | _ => simp [equalWithin] at hequal
  | null =>
    cases b with
    | null => exact .inr .null
    | _ => simp [equalWithin] at hequal
  | bool x =>
    cases b with
    | bool y =>
      obtain rfl : x = y := by simpa [equalWithin] using hequal
      exact .inr (.bool x)
    | _ => simp [equalWithin] at hequal
  | number x =>
    cases b with
    | number y => exact .inr (.number (by simpa [equalWithin] using hequal))
    | _ => simp [equalWithin] at hequal
  | string s =>
    cases b with
    | string t =>
      obtain rfl : s = t := by simpa [equalWithin] using hequal
      exact .inr (.string s)
    | _ => simp [equalWithin] at hequal
  | function f =>
    cases b with
    | function g => exact .inr (.function (by simpa [equalWithin] using hequal))
    | _ => simp [equalWithin] at hequal

/-- The pairs that the comparison is inside of may be taken as equal as long as they are alike up to
    the number of looks in question: what compares as equal is then alike up to it, too. -/
theorem alikeUpTo_of_equalWithin {n : Nat} {pending : List (Nat × Nat)}
    (hpending : ∀ p ∈ pending, h.AlikeUpTo n (.array p.1) (.array p.2))
    (hequal : h.equalWithin pending a b = true) : h.AlikeUpTo n a b := by
  induction n generalizing a b pending with
  | zero => exact trivial
  | succ n ih =>
    have hpending' : ∀ p ∈ pending, h.AlikeUpTo n (.array p.1) (.array p.2) :=
      fun p hp => (hpending p hp).of_succ
    -- The pair itself is alike up to one look less, so its elements may be compared inside of it.
    have hab : h.AlikeUpTo n a b := ih hpending' hequal
    obtain ⟨p, hp, rfl, rfl⟩ | hlayer := sameLayer_of_equalWithin hequal
    · exact hpending p hp
    · refine hlayer.mono ?_
      rintro x y ⟨i, j, rfl, rfl, hxy⟩
      exact ih (List.forall_mem_cons.2 ⟨hab, hpending'⟩) hxy

mutual

/-- Bisimilar values compare as equal, whatever pairs the comparison is inside of. -/
theorem Bisimilar.equalWithin {v w : Value} (hvw : h.Bisimilar v w) (pending : List (Nat × Nat)) :
    h.equalWithin pending v w = true := by
  cases hvw.sameLayer with
  | null => simp [Heap.equalWithin]
  | bool value => simp [Heap.equalWithin]
  | number hsame => simpa [Heap.equalWithin] using hsame
  | string text => simp [Heap.equalWithin]
  | function hsame => simpa [Heap.equalWithin] using hsame
  | sameArray ref => exact equalWithin_self h pending ref
  | @elements i j xs ys hi hj helements =>
    by_cases hij : i = j
    · rw [hij]
      exact equalWithin_self h pending j
    -- A pair that is being compared is taken to be equal; a fresh one makes fewer pairs unseen,
    -- which ends the recursion.
    by_cases hfresh : pending.contains (i, j) = false
    · have hlt : unseen h.arrayPairs ((i, j) :: pending) < unseen h.arrayPairs pending :=
        unseen_cons_lt (mem_arrayPairs.2 ⟨lt_size_of_array? hi, lt_size_of_array? hj⟩) hfresh
      have hsize : xs.size = ys.size := helements.length_eq
      rw [equalWithin_fresh hij hfresh hi hj, hsize, beq_self_eq_true, Bool.true_and]
      exact equalAllWithin_of_bisimilar helements ((i, j) :: pending)
    · exact equalWithin_pending h (eq_true_of_ne_false hfresh)
termination_by (unseen h.arrayPairs pending, 0)

/-- Lists of bisimilar values are compared as equal. -/
theorem equalAllWithin_of_bisimilar {xs ys : List Value} (hall : List.Forall₂ h.Bisimilar xs ys)
    (pending : List (Nat × Nat)) : h.equalAllWithin pending xs ys = true := by
  cases hall with
  | nil => simp only [equalAllWithin]
  | @cons x y xs ys hfirst hothers =>
    have hequal := hfirst.equalWithin pending
    have hequals := equalAllWithin_of_bisimilar hothers pending
    rw [equalAllWithin, hequal, hequals, Bool.true_and]
termination_by (unseen h.arrayPairs pending, xs.length + 1)

end

/-- **Equality is bisimilarity.** Whatever arrays hold each other or themselves, two values are
    equal if and only if the greatest bisimulation relates them. -/
theorem equal_iff_bisimilar (h : Heap) :
    IsGreatest {R | h.IsBisimulation R} h.Bisimilar ∧
      ∀ a b, h.equal a b = true ↔ h.Bisimilar a b := by
  refine ⟨isGreatest_bisimilar h, fun a b => ⟨fun hequal => ?_, fun hab => hab.equalWithin []⟩⟩
  have halike (n : Nat) : h.AlikeUpTo n a b :=
    alikeUpTo_of_equalWithin (List.forall_mem_nil _) hequal
  exact ⟨_, isBisimulation_alikeUpTo h, halike⟩

/-- Two arrays that each hold themselves are equal, though no look at them is the last one. -/
example : (Heap.mk #[#[.array 0], #[.array 1]] 0).equal (.array 0) (.array 1) = true := by
  cbv

end Treewalk.Heap
