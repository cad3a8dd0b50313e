import Treewalk.Proofs.Number.Whole
import Treewalk.Session
import Treewalk.Value.Operators

/-!
# Slots of a heap

Arrays are made with a size and keep it. So what a heap has room for can be read off the sizes of
its arrays (`Heap.sizes`), in the order in which these were made: each change that a program can
make to a heap leaves the sizes alone or adds one at the end, and a slot that is there stays there
(`Heap.isSome_element?_of_prefix`).

A value is a place in an array if it is a number whose value is a whole one, not negative and below
the size (`Heap.slot_eq_ok_iff`). Negative zero is such a number.
-/

namespace Treewalk.Heap

variable {h h' : Heap} {s t : Slot} {object index value : Value}

/-- The sizes of all arrays, in the order in which they were made. -/
def sizes (h : Heap) : List Nat := h.arrays.toList.map Array.size

/-- The element at a slot, if the slot is there. -/
def element? (h : Heap) (s : Slot) : Option Value := (h.array? s.ref).bind (·[s.position]?)

/-! ## Sizes -/

/-- The size under a reference is that of the array there. -/
theorem getElem?_sizes (h : Heap) (ref : Nat) : h.sizes[ref]? = (h.array? ref).map Array.size := by
  rw [sizes, List.getElem?_map, Array.getElem?_toList, array?]

/-- A new array adds its size behind the others. -/
@[simp] theorem sizes_newArray (h : Heap) (elements : Array Value) :
    (h.newArray elements).2.sizes = h.sizes ++ [elements.size] := by
  simp [sizes, newArray]

/-- Changing an element changes no size. -/
@[simp] theorem sizes_store (h : Heap) (s : Slot) (value : Value) :
    (h.store s value).sizes = h.sizes := by
  apply List.ext_getElem?
  intro ref
  rw [getElem?_sizes, getElem?_sizes, store, array?_setElement]
  split
  · cases h.array? ref <;> simp
  · rfl

mutual

/-- A value from outside gets arrays of its own, behind those that are there. -/
theorem sizes_prefix_ofDatum (h : Heap) (item : Datum) : h.sizes <+: (h.ofDatum item).2.sizes := by
  cases item with
  | null | bool _ | number _ | string _ =>
    rw [ofDatum]
  | list items =>
    rw [ofDatum]
    dsimp only
    rw [sizes_newArray]
    exact (sizes_prefix_ofData h items).trans (List.prefix_append ..)

/-- What a host hands over adds arrays, and changes none. -/
theorem sizes_prefix_ofData (h : Heap) (items : List Datum) :
    h.sizes <+: (h.ofData items).2.sizes := by
  cases items with
  | nil => rw [ofData]
  | cons item items =>
    rw [ofData]
    exact (sizes_prefix_ofDatum h item).trans (sizes_prefix_ofData _ items)

end

/-! ## Elements -/

/-- A slot is there if its position is below the size of its array. -/
theorem isSome_element?_iff :
    (h.element? s).isSome ↔ ∃ size, h.sizes[s.ref]? = some size ∧ s.position < size := by
  rw [element?, getElem?_sizes]
  cases h.array? s.ref <;> simp

/-- A slot that is there is still there when more arrays have been made. -/
theorem isSome_element?_of_prefix (hsizes : h.sizes <+: h'.sizes) (hs : (h.element? s).isSome) :
    (h'.element? s).isSome := by
  rw [isSome_element?_iff] at hs ⊢
  obtain ⟨size, hsize, hlt⟩ := hs
  obtain ⟨hinside, -⟩ := List.getElem?_eq_some_iff.1 hsize
  obtain ⟨later, hlater⟩ := hsizes
  refine ⟨size, ?_, hlt⟩
  rw [← hlater, List.getElem?_append_left hinside, hsize]

/-- What stands for the element at a slot is the element, if the slot is there. -/
theorem element_of_element? (hs : h.element? s = some value) : h.element s = value := by
  obtain ⟨elements, harray, helement⟩ := Option.bind_eq_some_iff.1 hs
  rw [element, harray, Option.getD_some, helement, Option.getD_some]

/-- Changing the element at a slot changes it there and nowhere else. -/
theorem element?_store (h : Heap) (s t : Slot) (value : Value) :
    (h.store s value).element? t = if t = s then (h.element? t).map fun _ => value
      else h.element? t := by
  obtain ⟨ref, position⟩ := s
  obtain ⟨ref', position'⟩ := t
  unfold element? store
  rw [array?_setElement]
  -- Only the array of the slot is touched, and in it only the position of the slot.
  by_cases href : ref = ref'
  · subst href
    rw [if_pos rfl]
    cases h.array? ref with
    | none => simp
    | some elements =>
      show (elements.setIfInBounds position value)[position']? = _
      rw [Array.getElem?_setIfInBounds]
      by_cases hposition : position = position'
      · subst hposition
        rw [if_pos rfl, if_pos rfl]
        show _ = Option.map _ elements[position]?
        split <;> simp [*]
      · rw [if_neg hposition, if_neg (by simp [Ne.symm hposition])]
        rfl
  · rw [if_neg href, if_neg (by simp [Ne.symm href])]

/-! ## Places -/

/-- Below the size of an array there is only something if there is an array. -/
theorem lt_size_iff {ref n : Nat} :
    n < ((h.array? ref).getD #[]).size ↔
      ∃ elements, h.array? ref = some elements ∧ n < elements.size := by
  cases h.array? ref <;> simp

/-- An object and an index lead to a slot exactly if the object is an array and the index a number
    whose value is the position of an element in it. -/
theorem slot_eq_ok_iff :
    h.slot object index = .ok s ↔ ∃ x elements, object = .array s.ref ∧ index = .number x ∧
      Number.HasValue x s.position ∧ h.array? s.ref = some elements ∧
        s.position < elements.size := by
  constructor
  · intro hs
    unfold slot at hs
    split at hs
    · next ref =>
      split at hs
      · next i hi =>
        split at hs
        · next hbounds =>
          cases hs
          obtain ⟨x, hx, hint⟩ := Option.bind_eq_some_iff.1 hi
          cases index <;> cases hx
          -- An integer that is not negative is a position, and it is in bounds if it is less than
          -- the size.
          obtain ⟨n, rfl⟩ := Int.eq_ofNat_of_zero_le hbounds.1
          obtain ⟨elements, harray, hlt⟩ := lt_size_iff.1 (Int.ofNat_lt.1 hbounds.2)
          exact ⟨x, elements, rfl, rfl, Number.toInt?_eq_some_iff.1 hint, harray, hlt⟩
        · cases hs
      · cases hs
    · cases hs
  · rintro ⟨x, elements, rfl, rfl, hvalue, harray, hlt⟩
    have hint : Number.toInt? x = some (s.position : Int) := Number.toInt?_eq_some_iff.2 hvalue
    simp [slot, Value.number?, hint, harray, hlt]

/-- A slot that is found has an element. -/
theorem isSome_element?_of_slot (hs : h.slot object index = .ok s) : (h.element? s).isSome := by
  obtain ⟨_, elements, -, -, -, harray, hlt⟩ := slot_eq_ok_iff.1 hs
  simp [element?, harray, hlt]

end Treewalk.Heap
