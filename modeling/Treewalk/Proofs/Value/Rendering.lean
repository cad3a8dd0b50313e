import Treewalk.Proofs.ForStd.Rel
import Treewalk.Proofs.Value.Stack
import Treewalk.Proofs.Value.Walks

/-!
# Values that hold themselves, and all others

Values are shown with a stack of the arrays that are being written (`Heap.renderByStack`). Only
arrays that are not on it are put there, so it never has more of them than the heap. An array that
is on it is not shown again. This comes up only with an array that is reached from one of its own
elements (`Heap.HoldsItself`).

Without any stack (`Heap.renderPlainly`), an array that holds itself cannot be shown at all. All
values that do not lead to such an array can, and then the stack makes no difference: an array that
is there more than once is shown in full each time. The main statement is `Heap.rendering_ends`.
-/

namespace Treewalk

/-- Shows a value, given how arrays are shown. -/
def Value.showWith {m : Type → Type} [Monad m] (style : StringStyle) (showArray : Nat → m String) :
    Value → m String
  | .null => return "null"
  | .bool true => return "true"
  | .bool false => return "false"
  | .number value => return Number.text value
  | .string text => return style.show text
  | .array ref => showArray ref
  | .function closure => return "<function " ++ closure.name.lexeme ++ ">"

namespace Heap

/-- Shows an array by what its elements show as. -/
def listed (texts : List String) : String := "[" ++ ", ".intercalate texts ++ "]"

/-- The text of a value in a style. -/
def textIn (h : Heap) (style : StringStyle) (v : Value) : String :=
  match style with
  | .plain => h.display v
  | .quoted => h.inspect v

/-- Shows a value with a stack of the arrays that are being written. The fuel is the number of
    values that may be under way inside of each other. -/
def renderByStack (h : Heap) (style : StringStyle) (fuel : Nat) (v : Value) : Walk Nat String :=
  match fuel with
  | 0 => failure
  | fuel + 1 =>
    v.showWith style fun ref => do
      if ← Walk.turnsBack ref then return "[...]"
      match h.array? ref with
      | some elements =>
        Walk.enter ref
        let texts ← elements.toList.mapM (h.renderByStack style fuel)
        Walk.leave
        return listed texts
      | none => return listed []

/-- Shows a value by showing the elements of all arrays, wherever this leads. -/
def renderPlainly (h : Heap) (style : StringStyle) (fuel : Nat) (v : Value) : Option String :=
  match fuel with
  | 0 => none
  | fuel + 1 =>
    v.showWith style fun ref => do
      match h.array? ref with
      | some elements => return listed (← elements.toList.mapM (h.renderPlainly style fuel))
      | none => return listed []

/-- An array is what a value is, or is reached from an element of the array that it is. -/
inductive Reaches (h : Heap) : Value → Nat → Prop where
  | here (ref : Nat) : Reaches h (.array ref) ref
  | element {ref : Nat} {elements : Array Value} {v : Value} {i : Nat}
      (harray : h.array? ref = some elements)
      (hv : v ∈ elements.toList) (hreaches : Reaches h v i) : Reaches h (.array ref) i

/-- An array is reached from one of its own elements. -/
def HoldsItself (h : Heap) (i : Nat) : Prop :=
  ∃ elements, h.array? i = some elements ∧ ∃ v ∈ elements.toList, h.Reaches v i

/-- No array that is reached from a value holds itself. -/
def Acyclic (h : Heap) (v : Value) : Prop := ∀ i, h.Reaches v i → ¬ h.HoldsItself i

variable {h : Heap} {style : StringStyle} {v w : Value} {i ref fuel : Nat} {elements : Array Value}

/-- A text is what is rendered outside of any array. -/
theorem textIn_eq (h : Heap) (style : StringStyle) (v : Value) :
    h.textIn style v = h.render style [] v := by
  cases style <;> rfl

/-- What an array reaches is reached by all that reaches the array. -/
theorem Reaches.trans {j : Nat} (hv : h.Reaches v i) (hi : h.Reaches (.array i) j) :
    h.Reaches v j := by
  induction hv with
  | here ref => exact hi
  | element harray hv _ ih => exact .element harray hv (ih hi)

/-! ## What is not an array -/

/-- What is no array shows as the same text wherever it is. -/
theorem showWith_of_ne_array {m : Type → Type} [Monad m] {showArray : Nat → m String}
    (hv : ∀ ref, v ≠ .array ref)
    (h : Heap) (opened : List Nat) :
    v.showWith style showArray = pure (h.render style opened v) := by
  cases v with
  | array ref => exact absurd rfl (hv ref)
  | bool value => cases value <;> rw [Value.showWith, render]
  | _ => rw [Value.showWith, render]

/-- Lists are rendered one value after the other. -/
theorem renderAll_eq_map (h : Heap) (opened : List Nat) (vs : List Value) :
    h.renderAll style opened vs = vs.map (h.render style opened) := by
  induction vs with
  | nil => rw [renderAll, List.map_nil]
  | cons v vs ih => rw [renderAll, List.map_cons, ih]

/-! ## Without a stack -/

/-- A value that leads to no array that holds itself, and to none that is being written, shows as it
    does without a stack. -/
theorem renderPlainly_of_acyclic {opened : List Nat} (hv : h.Acyclic v)
    (hopened : ∀ r ∈ opened, ¬ h.Reaches v r)
    (hfuel : unseen h.refs opened < fuel) :
    h.renderPlainly style fuel v = some (h.render style opened v) := by
  induction fuel generalizing v opened with
  | zero => exact absurd hfuel (Nat.not_lt_zero _)
  | succ fuel ih =>
    by_cases hne : ∀ ref, v ≠ .array ref
    · exact showWith_of_ne_array hne h opened
    · push Not at hne
      obtain ⟨ref, rfl⟩ := hne
      rw [renderPlainly, Value.showWith]
      have hfresh : opened.contains ref = false := by
        rw [List.contains_eq_mem, decide_eq_false_iff_not]
        exact fun hmem => hopened ref hmem (.here ref)
      cases harray : h.array? ref with
      | none =>
        rw [render_dangling hfresh harray]
        rfl
      | some elements =>
        have hmem : ref ∈ h.refs := List.mem_range.2 (lt_size_of_array? harray)
        have hfewer : unseen h.refs (ref :: opened) < fuel :=
          unseen_cons_lt_of_lt_succ hmem hfresh hfuel
        have helements (e : Value) (he : e ∈ elements.toList) :
            h.renderPlainly style fuel e = some (h.render style (ref :: opened) e) := by
          refine ih (fun i hi => hv i (.element harray he hi)) ?_ hfewer
          -- The element leads neither back to the array nor to one that the array does not lead to.
          refine List.forall_mem_cons.2 ⟨fun hback => ?_, fun r hr hreaches => ?_⟩
          · exact hv ref (.here ref) ⟨elements, harray, e, he, hback⟩
          · exact hopened r hr (.element harray he hreaches)
        dsimp only
        rw [render_fresh hfresh harray, renderAll_eq_map, List.mapM_eq_some_map helements]
        rfl

/-- What an array leads to is shown with less fuel than the array. -/
theorem exists_lt_renderPlainly (harray : h.array? ref = some elements) (hv : v ∈ elements.toList)
    (hshown : (h.renderPlainly style fuel (.array ref)).isSome) :
    ∃ fuel' < fuel, (h.renderPlainly style fuel' v).isSome := by
  cases fuel with
  | zero => exact nomatch hshown
  | succ fuel =>
    rw [renderPlainly, Value.showWith, harray, Option.bind_eq_bind, Option.isSome_bind,
      Option.any_eq_true] at hshown
    obtain ⟨texts, htexts, -⟩ := hshown
    refine ⟨fuel, Nat.lt_succ_self fuel, List.isSome_of_isSome_mapM ?_ hv⟩
    exact Option.isSome_iff_exists.2 ⟨texts, htexts⟩

/-- An array reached by what has a plain text has one as well, and with no more fuel. -/
theorem exists_le_renderPlainly (hreaches : h.Reaches v i)
    (hshown : (h.renderPlainly style fuel v).isSome) :
    ∃ fuel' ≤ fuel, (h.renderPlainly style fuel' (.array i)).isSome := by
  induction hreaches generalizing fuel with
  | here ref => exact ⟨fuel, Nat.le_refl _, hshown⟩
  | element harray hv _ ih =>
    obtain ⟨fuel₁, hlt, hshown₁⟩ := exists_lt_renderPlainly harray hv hshown
    obtain ⟨fuel₂, hle, hshown₂⟩ := ih hshown₁
    exact ⟨fuel₂, Nat.le_trans hle (Nat.le_of_lt hlt), hshown₂⟩

/-- An array that holds itself cannot be shown without a stack: showing it would take less fuel than
    showing it. -/
theorem not_holdsItself (hshown : (h.renderPlainly style fuel (.array i)).isSome) :
    ¬ h.HoldsItself i := by
  rintro ⟨elements, harray, v, hv, hback⟩
  induction fuel using Nat.strongRecOn with
  | ind fuel ih =>
    -- Less fuel from the array to its element, and no more from there back to the array.
    obtain ⟨fuel₁, hlt, hshown₁⟩ := exists_lt_renderPlainly harray hv hshown
    obtain ⟨fuel₂, hle, hshown₂⟩ := exists_le_renderPlainly hback hshown₁
    exact ih fuel₂ (Nat.lt_of_le_of_lt hle hlt) hshown₂

/-- What has a plain text reaches no array that holds itself. -/
theorem acyclic_of_renderPlainly (hshown : (h.renderPlainly style fuel v).isSome) :
    h.Acyclic v := by
  intro i hi
  obtain ⟨fuel', -, hshown'⟩ := exists_le_renderPlainly hi hshown
  exact not_holdsItself hshown'

/-! ## With a stack -/

/-- A value that is an array is reached from one of the elements of another array. -/
def LeadsTo (h : Heap) (r : Nat) (v : Value) : Prop :=
  ∀ i, v = .array i → ∃ elements, h.array? r = some elements ∧ ∃ e ∈ elements.toList, h.Reaches e i

/-- Whatever leads to an array leads to its elements, and the array does so too. -/
theorem leadsTo_element {opened : List Nat} (hopened : ∀ r ∈ opened, h.LeadsTo r (.array ref))
    (harray : h.array? ref = some elements) (hv : v ∈ elements.toList) :
    ∀ r ∈ ref :: opened, h.LeadsTo r v := by
  refine List.forall_mem_cons.2 ⟨?_, fun r hr => ?_⟩
  · rintro i rfl
    exact ⟨elements, harray, _, hv, .here i⟩
  · rintro i rfl
    obtain ⟨elements', harray', e, he, hreaches⟩ := hopened r hr ref rfl
    exact ⟨elements', harray', e, he, hreaches.trans (.element harray hv (.here i))⟩

open Walk

variable {P : List Nat → Prop} {Q : Nat → Prop} {t : Track Nat}

/-- Writing comes to the end inside of any arrays that lead to the value, if the fuel is more than
    the number of arrays that are not yet on the stack. Of the arrays that are reached from the
    value, it turns back only at those that hold themselves. -/
theorem returns_renderByStack (hP : Stacking h.refs P) (v : Value) (ht : P t.inside)
    (hQ : ∀ i, h.Reaches v i → h.HoldsItself i → Q i) (hlead : ∀ r ∈ t.inside, h.LeadsTo r v)
    (hfuel : unseen h.refs t.inside < fuel) :
    Returns P Q (h.renderByStack style fuel v) t (h.render style t.inside v) := by
  induction fuel generalizing v t with
  | zero => exact absurd hfuel (Nat.not_lt_zero _)
  | succ fuel ih =>
    rw [renderByStack]
    by_cases hne : ∀ ref, v ≠ .array ref
    · rw [showWith_of_ne_array hne h t.inside]
      exact returns_pure P _ t _
    · push Not at hne
      obtain ⟨ref, rfl⟩ := hne
      rw [Value.showWith]
      -- An array on the stack leads to the value. If it is the value, it leads to itself.
      have hturn (hmem : t.inside.contains ref = true) : Q ref :=
        hQ ref (.here ref) (hlead ref (List.contains_iff_mem.1 hmem) ref rfl)
      refine returns_bind (returns_turnsBack P hturn) fun t₁ ht₁ => ?_
      cases hfresh : t.inside.contains ref with
      | true =>
        -- The array is met again inside of itself, and is not shown there.
        rw [if_pos rfl, render_open h hfresh]
        exact returns_pure P _ t₁ _
      | false =>
        rw [if_neg Bool.false_ne_true]
        cases harray : h.array? ref with
        | none =>
          rw [render_dangling hfresh harray]
          exact returns_pure P _ t₁ _
        | some elements =>
          have hmem : ref ∈ h.refs := List.mem_range.2 (lt_size_of_array? harray)
          have hfewer : unseen h.refs (ref :: t.inside) < fuel :=
            unseen_cons_lt_of_lt_succ hmem hfresh hfuel
          have hin : P (ref :: t.inside) := hP.of_new hmem hfresh ht
          rw [render_fresh hfresh harray, renderAll_eq_map]
          dsimp only
          rw [← ht₁] at ht hin hfewer hlead ⊢
          refine returns_within hin ht (fun t₂ ht₂ =>
            returns_mapM fun e he t₃ ht₃ => ?_) fun t₂ _ =>
            returns_pure P _ t₂ _
          rw [ht₂] at ht₃
          rw [← ht₃] at hin hfewer ⊢
          exact ih e hin (fun i hi => hQ i (.element harray he hi))
            (ht₃ ▸ leadsTo_element hlead harray he) hfewer

/-- There are as many references as arrays. -/
theorem length_refs (h : Heap) : h.refs.length = h.arrays.size := List.length_range

/-- **Rendering ends on every heap, and is plain where nothing holds itself.** Both texts of a value
    come to the end if as many values may be under way inside of each other as there are arrays, and
    one more. No array is ever being written twice at once, and of the arrays that are reached from
    the value only those that hold themselves are not shown again. Exactly if no array that is
    reached from the value holds itself, its text is what comes out without a stack. -/
theorem rendering_ends (h : Heap) (style : StringStyle) (v : Value) (fuel : Nat)
    (hfuel : h.arrays.size + 1 ≤ fuel) :
    (∃ t : Track Nat, (h.renderByStack style fuel v).run .start = some (h.textIn style v, t) ∧
      t.inside = [] ∧
      (∀ opened ∈ t.history, Track.Orderly h.refs opened ∧ opened.length ≤ h.arrays.size) ∧
        ∀ ref ∈ t.turns, h.Reaches v ref ∧ h.HoldsItself ref) ∧
    (h.Acyclic v ↔ h.renderPlainly style fuel v = some (h.textIn style v)) := by
  have hunseen : unseen h.refs [] < fuel := by
    rw [unseen_nil, length_refs]
    exact hfuel
  rw [textIn_eq]
  constructor
  · -- The stack starts empty, and fuel for each array and one value more is enough.
    have hreturns : Returns (Track.Orderly h.refs) (fun ref => h.Reaches v ref ∧ h.HoldsItself ref)
        (h.renderByStack style fuel v) .start (h.render style [] v) :=
      returns_renderByStack Track.Orderly.stacking v .nil (fun i hi hself => ⟨hi, hself⟩)
        (List.forall_mem_nil _)
        hunseen
    rw [← length_refs]
    exact hreturns.from_start
  · constructor
    · intro hv
      exact renderPlainly_of_acyclic hv (List.forall_mem_nil _) hunseen
    · intro hshown
      exact acyclic_of_renderPlainly (by rw [hshown, Option.isSome_some])

/-- An array with an element that holds itself and one that is there twice, though it holds nothing
    that is being written. -/
theorem rendering_ends_with_shared_array :
    2 + 1 ≤ 3 ∧
      ∃ t : Track Nat,
        (renderByStack ⟨#[#[.array 0, .array 1, .array 1], #[.string "a"]], 0⟩ .quoted 3
          (.array 0)).run .start =
            some ("[[...], [\"a\"], [\"a\"]]", t) ∧
          t.inside = [] ∧
          (∀ opened ∈ t.history,
            Track.Orderly (refs ⟨#[#[.array 0, .array 1, .array 1], #[.string "a"]], 0⟩) opened ∧
              opened.length ≤ 2) ∧
          ∀ ref ∈ t.turns,
            Reaches ⟨#[#[.array 0, .array 1, .array 1], #[.string "a"]], 0⟩ (.array 0) ref ∧
              HoldsItself ⟨#[#[.array 0, .array 1, .array 1], #[.string "a"]], 0⟩ ref := by
  obtain ⟨⟨t, hrun, hrest⟩, -⟩ :=
    rendering_ends ⟨#[#[.array 0, .array 1, .array 1], #[.string "a"]], 0⟩ .quoted (.array 0) 3
      (by decide)
  have htext :
      textIn ⟨#[#[.array 0, .array 1, .array 1], #[.string "a"]], 0⟩ .quoted (.array 0) =
        "[[...], [\"a\"], [\"a\"]]" := by
    cbv
  exact ⟨by decide, t, by rw [hrun, htext], hrest⟩

end Heap

end Treewalk
