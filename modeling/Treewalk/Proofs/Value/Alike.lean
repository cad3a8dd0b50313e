import Treewalk.Input
import Treewalk.Proofs.ForStd.Rel
import Treewalk.Proofs.Tree.Layer
import Treewalk.Proofs.Value.Walks
import Treewalk.Value.Operators

/-!
# Values of two runs

Two runs that do the same need not give the same numbers to the scopes and functions that they make.
A `Shift` tells which numbers belong together: those that both runs found in use have kept their
meaning, and what is made after that is counted on from different numbers. A `Link` is all that
there is between two runs: the shifts of their scopes and of their functions, and the trees that
count as the same.

Values are *alike* if they are the same but for what the link allows, and heaps are if their arrays
have alike elements. No operator can tell alike values apart.
-/

namespace Treewalk

/-- Numbers that two runs use for the same things. Those below `shared` mean the same in both, and
    what is made on the way is counted from `left` in one run and from `right` in the other. -/
structure Shift where
  shared : Nat
  left : Nat
  right : Nat
  shared_le_left : shared ≤ left
  shared_le_right : shared ≤ right

namespace Shift

/-- Do two numbers mean the same? -/
def Rel (s : Shift) (i j : Nat) : Prop :=
  (i = j ∧ i < s.shared) ∨ ∃ d, i = s.left + d ∧ j = s.right + d

variable {s : Shift} {i j i' j' : Nat}

/-- A number that is made on the way. -/
theorem rel_add (s : Shift) (d : Nat) : s.Rel (s.left + d) (s.right + d) := .inr ⟨d, rfl, rfl⟩

/-- What is shared keeps its number. -/
theorem rel_of_lt (h : i < s.shared) : s.Rel i i := .inl ⟨rfl, h⟩

/-- What is older in one run is older in the other. -/
theorem Rel.lt_iff (h : s.Rel i j) (h' : s.Rel i' j') : i < i' ↔ j < j' := by
  have hleft := s.shared_le_left
  have hright := s.shared_le_right
  obtain ⟨hij, hlt⟩ | ⟨d, hi, hj⟩ := h
  · -- A shared number is below all that are counted on.
    obtain ⟨hij', hlt'⟩ | ⟨d', hi', hj'⟩ := h'
    · omega
    · omega
  · obtain ⟨hij', hlt'⟩ | ⟨d', hi', hj'⟩ := h'
    · omega
    · omega

/-- What is the same in one run is the same in the other. -/
theorem Rel.eq_iff (h : s.Rel i j) (h' : s.Rel i' j') : i = i' ↔ j = j' := by
  have hlt := h.lt_iff h'
  have hgt := h'.lt_iff h
  omega

/-- All numbers below `n` are shared, and the runs count on from there. -/
def same (n : Nat) : Shift := ⟨n, n, n, Nat.le_refl n, Nat.le_refl n⟩

/-- Runs that count from the same number use the same numbers. -/
@[simp] theorem rel_same {n : Nat} : (same n).Rel i j ↔ i = j := by
  constructor
  · intro h
    obtain ⟨hij, -⟩ | ⟨d, hi, hj⟩ := h
    · exact hij
    · rw [hi, hj]
      rfl
  · intro hij
    subst hij
    by_cases h : i < n
    · exact rel_of_lt h
    · -- Behind what is shared, both sides have gone on by as much.
      have hsum : i = n + (i - n) := by omega
      exact .inr ⟨i - n, hsum, hsum⟩

end Shift

/-- What belongs together in two runs. Both runs have the same global scope. -/
structure Link where
  scopes : Shift
  functions : Shift
  trees : TreeRelation
  shared_pos : 0 < scopes.shared

/-- Functions that do the same. -/
structure Closure.Alike (l : Link) (f g : Closure) : Prop where
  name : l.trees.token f.name g.name
  params : List.Forall₂ l.trees.token f.params g.params
  body : l.trees.body f.body g.body

/-- Values that are the same but for what the link allows. Arrays are the same ones. -/
inductive Value.Alike (l : Link) : Value → Value → Prop where
  | null : Alike l .null .null
  | bool (value : Bool) : Alike l (.bool value) (.bool value)
  | number (value : Float) : Alike l (.number value) (.number value)
  | string (text : String) : Alike l (.string text) (.string text)
  | array (ref : Nat) : Alike l (.array ref) (.array ref)
  | function {f g : Closure} (hid : l.functions.Rel f.id g.id) (h : f.Alike l g) :
      Alike l (.function f) (.function g)

namespace Value.Alike

variable {l : Link} {v w : Value}

/-- A value that is no function is alike to itself. -/
theorem ofLiteral (value : Literal) : (Value.ofLiteral value).Alike l (Value.ofLiteral value) := by
  cases value <;> constructor

/-- Alike values are both true or both false. -/
theorem isTruthy_eq (h : v.Alike l w) : v.isTruthy = w.isTruthy := by cases h <;> rfl

/-- Alike values are the same number, or none at all. -/
theorem number?_eq (h : v.Alike l w) : v.number? = w.number? := by cases h <;> rfl

end Value.Alike

/-- Arrays of the same size with alike elements. -/
def Value.AllAlike (l : Link) (xs ys : Array Value) : Prop :=
  List.Forall₂ (Value.Alike l) xs.toList ys.toList

/-- Heaps with the same arrays, the elements of which are alike. The numbers of functions go
    together. -/
structure Heap.Alike (l : Link) (h h' : Heap) : Prop where
  array (ref : Nat) : Option.Rel (Value.AllAlike l) (h.array? ref) (h'.array? ref)
  functions : ∃ d, h.functions = l.functions.left + d ∧ h'.functions = l.functions.right + d

namespace Value.AllAlike

variable {l : Link} {xs ys : Array Value}

/-- Arrays that are alike have the same size. -/
theorem size_eq (h : AllAlike l xs ys) : xs.size = ys.size := h.length_eq

/-- Empty arrays are alike. -/
theorem empty : AllAlike l #[] #[] := .nil

/-- The elements at a position are alike. -/
theorem getElem? (h : AllAlike l xs ys) (position : Nat) :
    Option.Rel (Value.Alike l) xs[position]? ys[position]? := by
  rw [← Array.getElem?_toList, ← Array.getElem?_toList]
  exact List.Forall₂.rel_getElem? h position

/-- Changing one element to alike values keeps arrays alike. -/
theorem setIfInBounds (h : AllAlike l xs ys) (position : Nat) {v w : Value} (hvalue : v.Alike l w) :
    AllAlike l (xs.setIfInBounds position v) (ys.setIfInBounds position w) := by
  rw [AllAlike, Array.toList_setIfInBounds, Array.toList_setIfInBounds]
  exact List.Forall₂.rel_set h position hvalue

end Value.AllAlike

namespace Heap.Alike

variable {l : Link} {h h' : Heap} {v w v' w' : Value}

/-- There are as many arrays. -/
theorem size_eq (hheap : h.Alike l h') : h.arrays.size = h'.arrays.size := by
  have hiff (ref : Nat) : h.arrays.size ≤ ref ↔ h'.arrays.size ≤ ref := by
    rw [← Array.getElem?_eq_none_iff, ← Array.getElem?_eq_none_iff]
    exact (hheap.array ref).eq_none_iff
  exact Nat.le_antisymm ((hiff _).2 (Nat.le_refl _)) ((hiff _).1 (Nat.le_refl _))

/-! ### What makes and changes arrays and functions -/

/-- New arrays of alike elements are the same array. -/
theorem newArray (hheap : h.Alike l h') {xs ys : Array Value} (helements : Value.AllAlike l xs ys) :
    (h.newArray xs).1.Alike l (h'.newArray ys).1 ∧ (h.newArray xs).2.Alike l
      (h'.newArray ys).2 := by
  refine ⟨?_, fun ref => ?_, hheap.functions⟩
  · rw [Heap.newArray, Heap.newArray, hheap.size_eq]
    exact .array _
  · rw [array?_newArray, array?_newArray, hheap.size_eq]
    split
    · exact .some helements
    · exact hheap.array ref

/-- New functions of the same declaration are alike. -/
theorem newFunction (hheap : h.Alike l h') {name name' : Token} {params params' : List Token}
    {body body' : List Stmt} (hname : l.trees.token name name')
    (hparams : List.Forall₂ l.trees.token params params')
    (hbody : l.trees.body body body') :
    (h.newFunction name params body).1.Alike l (h'.newFunction name' params' body').1 ∧
      (h.newFunction name params body).2.Alike l (h'.newFunction name' params' body').2 := by
  obtain ⟨d, hleft, hright⟩ := hheap.functions
  refine ⟨.function ?_ ⟨hname, hparams, hbody⟩, hheap.array, d + 1, ?_, ?_⟩
  · rw [hleft, hright]
    exact l.functions.rel_add d
  · rw [Heap.newFunction, hleft]
    rfl
  · rw [Heap.newFunction, hright]
    rfl

/-- The array at a reference, or an empty one, is alike. -/
theorem getD (hheap : h.Alike l h') (ref : Nat) :
    Value.AllAlike l ((h.array? ref).getD #[]) ((h'.array? ref).getD #[]) :=
  (hheap.array ref).getD .empty

/-- Alike heaps have alike elements at every slot. -/
theorem element (hheap : h.Alike l h') (slot : Slot) : (h.element slot).Alike l (h'.element slot) :=
  ((hheap.getD slot.ref).getElem? slot.position).getD .null

/-- Alike values stored at one slot leave heaps alike. -/
theorem store (hheap : h.Alike l h') (slot : Slot) (hvalue : v.Alike l w) :
    (h.store slot v).Alike l (h'.store slot w) := by
  refine ⟨fun ref => ?_, hheap.functions⟩
  rw [Heap.store, Heap.store, array?_setElement, array?_setElement]
  split
  · exact (hheap.array ref).map fun helements => helements.setIfInBounds slot.position hvalue
  · exact hheap.array ref

/-- Alike values are indexed at the same slot, or with the same fault. -/
theorem slot_eq (hheap : h.Alike l h') (hobject : v.Alike l w) (hindex : v'.Alike l w') :
    h.slot v v' = h'.slot w w' := by
  cases hobject with
  | array ref =>
    rw [Heap.slot, Heap.slot, hindex.number?_eq, (hheap.getD ref).size_eq]
  | _ => rfl

/-! ### What tells values apart -/

mutual

/-- Alike values are equal to alike values, within the same pairs of arrays. -/
theorem equalWithin_eq (hheap : h.Alike l h') (pending : List (Nat × Nat)) {a b a' b' : Value}
    (ha : a.Alike l a') (hb : b.Alike l b') :
    h.equalWithin pending a b = h'.equalWithin pending a' b' := by
  cases ha with
  | @function f f' hid hf =>
    cases hb with
    | @function g g' hid' hg =>
      -- Functions are compared by their numbers, which go together.
      simp only [equalWithin, beq_eq_beq]
      exact hid.eq_iff hid'
    | _ => simp only [equalWithin]
  | array i =>
    cases hb with
    | array j =>
      have hleft := hheap.array i
      have hright := hheap.array j
      by_cases hij : i = j
      · rw [hij, equalWithin_self, equalWithin_self]
      by_cases hfresh : pending.contains (i, j) = false
      · -- Both runs look at the same pair of arrays, and one pair less is left to look at.
        cases hi : h.array? i with
        | none =>
          have hi' := hleft.eq_none_iff.1 hi
          rw [equalWithin_dangling hij hfresh (.inl hi), equalWithin_dangling hij hfresh (.inl hi')]
        | some xs =>
          cases hj : h.array? j with
          | none =>
            have hj' := hright.eq_none_iff.1 hj
            rw [equalWithin_dangling hij hfresh (.inr hj),
              equalWithin_dangling hij hfresh (.inr hj')]
          | some ys =>
            rw [hi] at hleft
            rw [hj] at hright
            obtain ⟨xs', hi', hxs⟩ := hleft.exists_of_some
            obtain ⟨ys', hj', hys⟩ := hright.exists_of_some
            have hlt : unseen h.arrayPairs ((i, j) :: pending) < unseen h.arrayPairs pending :=
              unseen_cons_lt (mem_arrayPairs.2 ⟨lt_size_of_array? hi, lt_size_of_array? hj⟩) hfresh
            rw [equalWithin_fresh hij hfresh hi hj, equalWithin_fresh hij hfresh hi' hj',
              hxs.size_eq, hys.size_eq, equalAllWithin_eq hheap ((i, j) :: pending) hxs hys]
      · -- Both runs are inside of this pair already.
        have hmem := eq_true_of_ne_false hfresh
        rw [equalWithin_pending h hmem, equalWithin_pending h' hmem]
    | _ => simp only [equalWithin]
  | _ => cases hb <;> simp only [equalWithin]
termination_by (unseen h.arrayPairs pending, 0)

/-- Alike lists are compared with the same result. -/
theorem equalAllWithin_eq (hheap : h.Alike l h') (pending : List (Nat × Nat))
    {xs ys xs' ys' : List Value}
    (hxs : List.Forall₂ (Value.Alike l) xs xs') (hys : List.Forall₂ (Value.Alike l) ys ys') :
    h.equalAllWithin pending xs ys = h'.equalAllWithin pending xs' ys' := by
  cases hxs with
  | nil => simp only [equalAllWithin]
  | @cons x x' xs xs' hx hxs =>
    cases hys with
    | nil => simp only [equalAllWithin]
    | cons hy hys =>
      simp only [equalAllWithin]
      rw [equalWithin_eq hheap pending hx hy, equalAllWithin_eq hheap pending hxs hys]
termination_by (unseen h.arrayPairs pending, xs.length + 1)

end

/-- Alike values are equal on both heaps or on neither. -/
theorem equal_eq (hheap : h.Alike l h') (hv : v.Alike l w) (hv' : v'.Alike l w') :
    h.equal v v' = h'.equal w w' := hheap.equalWithin_eq [] hv hv'

mutual

/-- Alike values show as the same text, within the same arrays. -/
theorem render_eq (hheap : h.Alike l h') (style : StringStyle) (opened : List Nat) {a b : Value}
    (hab : a.Alike l b) : h.render style opened a = h'.render style opened b := by
  cases hab with
  | function hid hf =>
    -- What shows of a function is its name, and not its number.
    rw [render, render, l.trees.lexeme_eq hf.name]
  | array i =>
    have harray := hheap.array i
    by_cases hfresh : opened.contains i = false
    · cases hi : h.array? i with
      | none => rw [render_dangling hfresh hi, render_dangling hfresh (harray.eq_none_iff.1 hi)]
      | some xs =>
        rw [hi] at harray
        obtain ⟨xs', hi', hxs⟩ := harray.exists_of_some
        have hlt : unseen h.refs (i :: opened) < unseen h.refs opened :=
          unseen_cons_lt (List.mem_range.2 (lt_size_of_array? hi)) hfresh
        rw [render_fresh hfresh hi, render_fresh hfresh hi',
          renderAll_eq hheap style (i :: opened) hxs]
    · have hmem := eq_true_of_ne_false hfresh
      rw [render_open h hmem, render_open h' hmem]
  | bool value => cases value <;> rw [render, render]
  | _ => rw [render, render]
termination_by (unseen h.refs opened, 0)

/-- Alike lists have the same texts. -/
theorem renderAll_eq (hheap : h.Alike l h') (style : StringStyle) (opened : List Nat)
    {xs ys : List Value} (hxs : List.Forall₂ (Value.Alike l) xs ys) :
    h.renderAll style opened xs = h'.renderAll style opened ys := by
  cases hxs with
  | nil => rw [renderAll, renderAll]
  | cons hx hxs =>
    rw [renderAll, renderAll, render_eq hheap style opened hx, renderAll_eq hheap style opened hxs]
termination_by (unseen h.refs opened, xs.length + 1)

end

/-- Alike values are displayed in the same way. -/
theorem display_eq (hheap : h.Alike l h') (hv : v.Alike l w) : h.display v = h'.display w :=
  hheap.render_eq .plain [] hv

end Heap.Alike

/-! ## Operators -/

variable {l : Link} {h h' : Heap} {v w v' w' : Value}

/-- A unary operator does the same with alike values. -/
theorem UnaryOp.apply_alike (op : UnaryOp) (hv : v.Alike l w) :
    Except.Rel (Value.Alike l) (op.apply v) (op.apply w) := by
  cases op with
  | not =>
    rw [UnaryOp.apply, UnaryOp.apply, hv.isTruthy_eq]
    exact .ok (.bool _)
  | neg =>
    cases hv with
    | number x => exact .ok (.number (-x))
    | _ => exact .error _

/-- What two numbers give is alike to itself. -/
theorem BinaryOp.onNumbers_alike (l : Link) (op : BinaryOp) (x y : Float) :
    (op.onNumbers x y).Alike l (op.onNumbers x y) := by
  cases op <;> constructor

/-- A binary operator does the same with alike values. -/
theorem BinaryOp.apply_alike (op : BinaryOp) (hheap : h.Alike l h') (hv : v.Alike l w)
    (hv' : v'.Alike l w') : Except.Rel (Value.Alike l) (op.apply h v v') (op.apply h' w w') := by
  cases op with
  | eq =>
    rw [BinaryOp.apply, BinaryOp.apply, hheap.equal_eq hv hv']
    exact .ok (.bool _)
  | ne =>
    rw [BinaryOp.apply, BinaryOp.apply, hheap.equal_eq hv hv']
    exact .ok (.bool _)
  -- Only addition is for texts as well as for numbers. All other operators look at no more than the
  -- numbers.
  | add =>
    cases hv with
    | number x =>
      cases hv' with
      | number y => exact .ok (onNumbers_alike l .add x y)
      | _ => exact .error _
    | string s =>
      cases hv' with
      | string t => exact .ok (.string (s ++ t))
      | _ => exact .error _
    | _ => exact .error _
  | _ =>
    cases hv with
    | number x =>
      cases hv' with
      | number y => exact .ok (onNumbers_alike l _ x y)
      | _ => exact .error _
    | _ => exact .error _

/-- A logical operator is decided by alike values in the same way. -/
theorem LogicalOp.decidedBy_eq (op : LogicalOp) (hv : v.Alike l w) :
    op.decidedBy v = op.decidedBy w := by
  cases op <;> rw [decidedBy, decidedBy, hv.isTruthy_eq]

/-- What a line is read as is alike to itself. -/
theorem Input.valueOfLine_alike (l : Link) (kind : ReadKind) (line : List UInt8) :
    Except.Rel (Value.Alike l) (valueOfLine kind line) (valueOfLine kind line) := by
  -- What is read is no function and no array, so it is alike to itself under any link.
  have hvalue (content : List Char) :
      Except.Rel (Value.Alike l) (Input.value kind content) (Input.value kind content) := by
    cases kind with
    | string => exact .ok (.string _)
    | number =>
      rw [Input.value]
      split
      · exact .ok (.number _)
      · exact .error _
    | boolean =>
      rw [Input.value]
      split
      · exact .ok (.bool true)
      · split
        · exact .ok (.bool false)
        · exact .error _
  rw [valueOfLine]
  split
  · exact .error _
  · split
    · exact .error _
    · exact hvalue _

end Treewalk
