import Mathlib
import Treewalk.Proofs.Value.Bisimilarity

/-!
# Equality is an equivalence, but for one number

Arrays of different shapes can be equal, and a comparison of them comes by other pairs than the one
in the other direction or those with a third array. So symmetry and transitivity are not found by
following the comparison. They hold of what finitely many looks show (`Heap.AlikeUpTo.symm`,
`Heap.AlikeUpTo.trans`), one look after the other, and values are equal if they are alike up to any
number of looks (`Heap.equal_iff_alikeUpTo`). Numbers are compared as doubles are, so the facts
needed of them are those of the type `Float`, which only `Mathlib` as a whole brings in.

What is no number differs from itself. It is the only value that does, since an array is the same
array as itself whatever it holds. The main statement is `Heap.equal_equivalence`.
-/

namespace Treewalk.Heap

variable {h : Heap} {R S : Value → Value → Prop} {a b c : Value}

/-- Two values look the same from both sides. -/
theorem SameLayer.symm (hsymm : ∀ {x y}, R x y → S y x) (hab : h.SameLayer R a b) :
    h.SameLayer S b a := by
  cases hab with
  | null => exact .null
  | bool value => exact .bool value
  | number hsame => exact .number (BEq.symm hsame)
  | string text => exact .string text
  | function hsame => exact .function hsame.symm
  | sameArray ref => exact .sameArray ref
  | elements hi hj helements => exact .elements hj hi (helements.flip.imp fun x y hxy => hsymm hxy)

/-- Values that look the same as a third one look the same. Where two of the three are the same
    array, the elements of the other pair are related already. -/
theorem SameLayer.trans (htrans : ∀ x y z, R x y → R y z → R x z) (hab : h.SameLayer R a b)
    (hbc : h.SameLayer R b c) : h.SameLayer R a c := by
  cases hab with
  | null => exact hbc
  | bool value => exact hbc
  | number hsame =>
    cases hbc with
    | number hsame' => exact .number (BEq.trans hsame hsame')
  | string text => exact hbc
  | function hsame =>
    cases hbc with
    | function hsame' => exact .function (hsame.trans hsame')
  | sameArray ref => exact hbc
  | elements hi hj helements =>
    cases hbc with
    | sameArray ref => exact .elements hi hj helements
    | elements hj' hk helements' =>
      -- The array in the middle has the same elements on both sides.
      rw [hj] at hj'
      cases hj'
      exact .elements hi hk (helements.trans htrans helements')

/-- What is alike up to a depth is so the other way round. -/
theorem AlikeUpTo.symm {n : Nat} (hab : h.AlikeUpTo n a b) : h.AlikeUpTo n b a := by
  induction n generalizing a b with
  | zero => exact trivial
  | succ n ih => exact SameLayer.symm ih hab

/-- What is alike up to a depth goes on from value to value. -/
theorem AlikeUpTo.trans {n : Nat} (hab : h.AlikeUpTo n a b) (hbc : h.AlikeUpTo n b c) :
    h.AlikeUpTo n a c := by
  induction n generalizing a b c with
  | zero => exact trivial
  | succ n ih => exact SameLayer.trans (fun _ _ _ => ih) hab hbc

/-- Values are equal if no number of looks shows a difference. -/
theorem equal_iff_alikeUpTo : h.equal a b = true ↔ ∀ n, h.AlikeUpTo n a b :=
  ⟨fun hequal _ => alikeUpTo_of_equalWithin (List.forall_mem_nil _) hequal,
    fun hab => Bisimilar.equalWithin ⟨_, isBisimulation_alikeUpTo h, hab⟩ []⟩

/-- Of all values, only what is no number differs from itself. -/
theorem equal_self_iff : h.equal a a = true ↔ ∀ x, a = .number x → x.isNaN = false := by
  cases a with
  | number x => simp [equal, equalWithin, Float.beq_self_iff, Float.isNaN_eq_decide_eq_nan]
  | array ref => simp [equal, equalWithin_self]
  | _ => simp [equal, equalWithin]

/-- **Equality is an equivalence, but for what is no number.** Whatever arrays hold each other or
    themselves, equality of values is symmetric and transitive, and all values are equal to
    themselves except the number that is none. -/
theorem equal_equivalence (h : Heap) :
    (∀ a b, h.equal a b = h.equal b a) ∧
      (∀ a b c, h.equal a b = true → h.equal b c = true → h.equal a c = true) ∧
      ∀ a, h.equal a a = true ↔ ∀ x, a = .number x → x.isNaN = false := by
  -- All looks are symmetric and transitive by themselves, so no comparison has to be followed.
  refine ⟨fun a b => ?_, fun a b c hab hbc => ?_, fun a => equal_self_iff⟩
  · rw [Bool.eq_iff_iff, equal_iff_alikeUpTo, equal_iff_alikeUpTo]
    exact ⟨fun hab n => (hab n).symm, fun hba n => (hba n).symm⟩
  · rw [equal_iff_alikeUpTo] at hab hbc ⊢
    exact fun n => (hab n).trans (hbc n)

/-- An array that holds itself, one of two that hold each other, and one of three in a circle: the
    first is equal to the second and this one to the third, so the first is equal to the third. -/
theorem equal_equivalence_on_circles :
    equal ⟨#[#[.array 0], #[.array 2], #[.array 1], #[.array 4], #[.array 5], #[.array 3]], 0⟩
      (.array 0) (.array 3) = true := by
  refine (equal_equivalence _).2.1 (.array 0) (.array 1) (.array 3) ?_ ?_
  · cbv
  · cbv

/-- An array that holds what is no number is equal to itself, but not to another one that holds the
    same. -/
example :
    equal ⟨#[#[.number Number.nan], #[.number Number.nan]], 0⟩ (.array 0) (.array 0) = true ∧
      equal ⟨#[#[.number Number.nan], #[.number Number.nan]], 0⟩ (.array 0) (.array 1) = false := by
  constructor
  · cbv
  · cbv

end Treewalk.Heap
