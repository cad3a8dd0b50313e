import Treewalk.Proofs.Session.Serving
import Treewalk.Proofs.Value.Slots

/-!
# Array accesses are in bounds

The slot of an element is looked for once, before the value that is to be stored there is evaluated.
This may call functions and assign to elements of the same array, but no array ever changes its size
(`Machine.evolution_sizes`), so the slot is still there when the value is stored.

To say that nothing depends on what an access does at a slot that is not there, there are accesses
that look whether it is and may do anything if it is not (`Run.fetchOr`, `Run.storeOr`). Evaluation
is the same with these. What it does at a slot that is there is said by the machine that it ends on:
an assignment leaves the heap that its value left, with the one element changed
(`Machine.outcome_evaluate_indexAssign_iff`). All of this together is `Machine.accesses_in_bounds`.
-/

namespace Treewalk

namespace Run

variable {α β : Type}

/-- The element at a slot. If the slot is not there, something else is done. -/
def fetchOr (missing : Run Value) (slot : Slot) : Run Value := do
  match ← query (·.heap.element? slot) with
  | some value => pure value
  | none => missing

/-- Changes the element at a slot. If the slot is not there, something else is done. -/
def storeOr (missing : Run Unit) (slot : Slot) (value : Value) : Run Unit := do
  match ← query (·.heap.element? slot) with
  | some _ => store slot value
  | none => missing

/-- What follows a run matters only for the values and on the machines that the run ends with. -/
theorem bind_congr {run : Run α} {next next' : α → Run β} {m : Machine}
    (h : ∀ a m', run.outcome m = (.done a, m') → next a m' = next' a m') :
    (run >>= next) m = (run >>= next') m := by
  show EStateM.bind run next m = EStateM.bind run next' m
  unfold EStateM.bind
  cases hrun : run m with
  | ok a m' =>
    have hout : run.outcome m = (.done a, m') := by rw [outcome, hrun]
    exact h a m' hout
  | error stop m' => rfl

/-- Of two runs that do the same on a machine, each may stand in front of what follows. -/
theorem bind_congr_run {run run' : Run α} (next : α → Run β) {m : Machine} (h : run m = run' m) :
    (run >>= next) m = (run' >>= next) m := by
  show EStateM.bind run next m = EStateM.bind run' next m
  rw [EStateM.bind, EStateM.bind, h]

/-- A slot that has been looked for is there, on the machine as it is. -/
theorem element?_of_outcome_onHeap {span : Span} {object index : Value} {slot : Slot}
    {m m' : Machine} (h : (onHeap span (·.slot object index)).outcome m = (.done slot, m')) :
    m' = m ∧ (m.heap.element? slot).isSome := by
  obtain ⟨hslot, rfl⟩ := outcome_onHeap_eq_done_iff.1 h
  exact ⟨rfl, Heap.isSome_element?_of_slot hslot⟩

/-- At a slot of the heap, the fallback of a fetch is not used. -/
theorem fetchOr_eq {missing : Run Value} {slot : Slot} {m : Machine}
    (h : (m.heap.element? slot).isSome) :
    fetchOr missing slot m = query (·.heap.element slot) m := by
  obtain ⟨value, hvalue⟩ := Option.isSome_iff_exists.1 h
  have hfound : fetchOr missing slot m = .ok value m := by
    show (match m.heap.element? slot with
      | some value => Pure.pure value
      | none => missing : Run Value) m = _
    rw [hvalue]
    rfl
  rw [hfound, query, Heap.element_of_element? hvalue]

/-- At a slot of the heap, the fallback of a store is not used. -/
theorem storeOr_eq {missing : Run Unit} {slot : Slot} {value : Value} {m : Machine}
    (h : (m.heap.element? slot).isSome) : storeOr missing slot value m = store slot value m := by
  obtain ⟨old, hold⟩ := Option.isSome_iff_exists.1 h
  show (match m.heap.element? slot with
    | some _ => store slot value
    | none => missing : Run Unit) m = _
  rw [hold]

end Run

namespace Machine

/-- Whatever a program does, it makes arrays behind those that are there and leaves these their
    sizes. -/
theorem evolution_sizes : Evolution fun m m' => m.heap.sizes <+: m'.heap.sizes where
  refl _ := List.prefix_refl _
  trans := List.IsPrefix.trans
  newArray m elements := by
    rw [Heap.sizes_newArray]
    exact List.prefix_append ..
  newFunction _ _ _ _ := List.prefix_refl _
  -- Storing is the only primitive that touches an array, and it does not change how long this is.
  store m slot value := by
    rw [Heap.sizes_store]
  declare _ _ _ := List.prefix_refl _
  assign _ _ _ _ _ := List.prefix_refl _
  scope _ h := h
  printed m line := by
    unfold printed
    split <;> exact List.prefix_refl _
  readLine _ := List.prefix_refl _

/-- What a host does leaves the arrays their sizes, too. -/
theorem kept_sizes (sizes : List Nat) : Kept fun m => sizes <+: m.heap.sizes where
  run hrun hm := hm.trans (evolution_sizes.outcome_of_offers (fun h => h) hrun)
  data items hm := hm.trans (Heap.sizes_prefix_ofData _ items)
  openScope _ hm := hm
  declare _ _ hm := hm
  clear hm := hm

/-- In whatever scope statements run, no array gets shorter. -/
theorem sizes_prefix_executeIn (fuel scope : Nat) (body : List Stmt) (m : Machine) :
    m.heap.sizes <+: (m.executeIn fuel scope body).2.heap.sizes := by
  rw [executeIn, Run.outcome_inScope]
  exact evolution_sizes.inOrder fuel body { m with current := scope }

/-! ## Accesses -/

/-- Reading an element is reading at a slot that is there. -/
theorem evaluate_index_eq (missing : Run Value) (fuel : Nat) (object position : Expr)
    (bracket : Token) :
    evaluate (fuel + 1) (.index object position bracket) = (do
      let object ← evaluate fuel object
      let position ← evaluate fuel position
      let slot ← Run.onHeap bracket.span (·.slot object position)
      Run.fetchOr missing slot) := by
  rw [evaluate]
  funext m
  apply Run.bind_congr
  intro objectValue m₁ _
  apply Run.bind_congr
  intro positionValue m₂ _
  apply Run.bind_congr
  intro slot m₃ hslot
  obtain ⟨rfl, hthere⟩ := Run.element?_of_outcome_onHeap hslot
  exact (Run.fetchOr_eq hthere).symm

/-- Assigning to an element is storing at a slot that is there, also after the value has been
    evaluated. -/
theorem evaluate_indexAssign_eq (missing : Run Unit) (fuel : Nat) (object position value : Expr)
    (bracket : Token) :
    evaluate (fuel + 1) (.indexAssign object position value bracket) = (do
      let object ← evaluate fuel object
      let position ← evaluate fuel position
      let slot ← Run.onHeap bracket.span (·.slot object position)
      let value ← evaluate fuel value
      Run.storeOr missing slot value
      pure value) := by
  rw [evaluate]
  funext m
  apply Run.bind_congr
  intro objectValue m₁ _
  apply Run.bind_congr
  intro positionValue m₂ _
  apply Run.bind_congr
  intro slot m₃ hslot
  obtain ⟨rfl, hthere⟩ := Run.element?_of_outcome_onHeap hslot
  apply Run.bind_congr
  intro v m₄ hvalue
  -- The value may have been anything, but the sizes are those from before, with more of them
  -- behind.
  have hsizes := evolution_sizes.evaluate fuel value m₃
  rw [hvalue] at hsizes
  have hstill := Heap.isSome_element?_of_prefix hsizes hthere
  exact Run.bind_congr_run _ (Run.storeOr_eq hstill).symm

/-- The object and the position of an element have been evaluated, one after the other, and on the
    machine `m'` that they leave they lead to the slot `s`. -/
def FindsSlot (fuel : Nat) (object position : Expr) (m : Machine) (s : Slot) (m' : Machine) :
    Prop :=
  ∃ array m₁ index, (evaluate fuel object).outcome m = (.done array, m₁) ∧
    (evaluate fuel position).outcome m₁ = (.done index, m') ∧ m'.heap.slot array index = .ok s

/-- Reading an element ends with what is at the slot that was found, and changes nothing more. -/
theorem outcome_evaluate_index_iff {fuel : Nat} {object position : Expr} {bracket : Token}
    {m m' : Machine} {v : Value} :
    (evaluate (fuel + 1) (.index object position bracket)).outcome m = (.done v, m') ↔
      ∃ s, FindsSlot fuel object position m s m' ∧ m'.heap.element? s = some v := by
  simp only [evaluate, Run.outcome_bind_eq_done_iff, Run.outcome_onHeap_eq_done_iff]
  constructor
  · rintro ⟨array, m₁, hobject, index, m₂, hposition, s, _, ⟨hslot, rfl⟩, hread⟩
    obtain ⟨v', hthere⟩ := Option.isSome_iff_exists.1 (Heap.isSome_element?_of_slot hslot)
    rw [Run.outcome_query, Heap.element_of_element? hthere] at hread
    cases hread
    exact ⟨s, ⟨array, m₁, index, hobject, hposition, hslot⟩, hthere⟩
  · rintro ⟨s, ⟨array, m₁, index, hobject, hposition, hslot⟩, hthere⟩
    refine ⟨array, m₁, hobject, index, m', hposition, s, m', ⟨hslot, rfl⟩, ?_⟩
    rw [Run.outcome_query, Heap.element_of_element? hthere]

/-- Assigning to an element ends with the value, which has been evaluated on the machine on which
    the slot was found. The slot is still there then, and the machine is as the value left it but
    for the element in the slot. -/
theorem outcome_evaluate_indexAssign_iff {fuel : Nat} {object position value : Expr}
    {bracket : Token} {m m' : Machine} {v : Value} :
    (evaluate (fuel + 1) (.indexAssign object position value bracket)).outcome m = (.done v, m') ↔
      ∃ s m₁ m₂, FindsSlot fuel object position m s m₁ ∧
        (evaluate fuel value).outcome m₁ = (.done v, m₂) ∧
        (m₂.heap.element? s).isSome ∧ m' = { m₂ with heap := m₂.heap.store s v } := by
  simp only [evaluate, Run.outcome_bind_eq_done_iff, Run.outcome_onHeap_eq_done_iff,
    Run.outcome_store]
  constructor
  · -- The only way to a value is through all five computations, each of which has come to its own.
    rintro ⟨array, m₁, hobject, index, _, hposition, s, m₂, ⟨hslot, rfl⟩, v', m₃, hvalue, _, _,
      hstore, hpure⟩
    cases hstore
    cases hpure
    refine ⟨s, m₂, m₃, ⟨array, m₁, index, hobject, hposition, hslot⟩, hvalue, ?_, rfl⟩
    -- The value is evaluated after the slot is found, but arrays do not get shorter meanwhile.
    have hsizes := evolution_sizes.evaluate fuel value m₂
    rw [hvalue] at hsizes
    exact Heap.isSome_element?_of_prefix hsizes (Heap.isSome_element?_of_slot hslot)
  · rintro ⟨s, m₁, m₂, ⟨array, m₀, index, hobject, hposition, hslot⟩, hvalue, -, rfl⟩
    exact ⟨array, m₀, hobject, index, m₁, hposition, s, m₁, ⟨hslot, rfl⟩, v, m₂, hvalue, (), _, rfl,
      rfl⟩

/-- **Array accesses are in bounds.** No expression, statement, call or request changes the size of
    an array; new arrays come behind those that are there. A slot is found exactly if an array is
    indexed at a number whose value is a whole one, not negative and below the size of the array,
    and then it is the slot at this position; negative zero is at the first one. Reading an element
    finds its slot, and so does assigning to one, after the value has been evaluated: whatever else
    would be done without the slot, it is not done. What is read is the element at the slot, and
    what is assigned is stored at the slot on the machine that the value leaves; this changes the
    one element and nothing else on the heap. -/
theorem accesses_in_bounds :
    (∀ fuel e (m : Machine), m.heap.sizes <+: ((evaluate fuel e).outcome m).2.heap.sizes) ∧
    (∀ fuel s (m : Machine), m.heap.sizes <+: ((execute fuel s).outcome m).2.heap.sizes) ∧
    (∀ fuel scope body (m : Machine), m.heap.sizes <+: (m.executeIn fuel scope body).2.heap.sizes) ∧
    (∀ fuel f args (m : Machine), m.heap.sizes <+: (m.callFunction fuel f args).2.heap.sizes) ∧
    (∀ requests (m : Machine), m.heap.sizes <+: (m.serveAll requests).heap.sizes) ∧
    (∀ (h : Heap) object index s, h.slot object index = .ok s ↔
      ∃ x elements, object = .array s.ref ∧ index = .number x ∧ Number.HasValue x s.position ∧
        h.array? s.ref = some elements ∧ s.position < elements.size) ∧
    Number.HasValue (Number.ofMagnitude true 0) 0 ∧
    (∀ missing fuel object position bracket,
      evaluate (fuel + 1) (.index object position bracket) = do
        let object ← evaluate fuel object
        let position ← evaluate fuel position
        let slot ← Run.onHeap bracket.span (·.slot object position)
        Run.fetchOr missing slot) ∧
    (∀ missing fuel object position value bracket,
      evaluate (fuel + 1) (.indexAssign object position value bracket) = do
        let object ← evaluate fuel object
        let position ← evaluate fuel position
        let slot ← Run.onHeap bracket.span (·.slot object position)
        let value ← evaluate fuel value
        Run.storeOr missing slot value
        pure value) ∧
    (∀ fuel object position bracket (m : Machine) v m',
      (evaluate (fuel + 1) (.index object position bracket)).outcome m = (.done v, m') ↔
        ∃ s, FindsSlot fuel object position m s m' ∧ m'.heap.element? s = some v) ∧
    (∀ fuel object position value bracket (m : Machine) v m',
      (evaluate (fuel + 1) (.indexAssign object position value bracket)).outcome m = (.done v, m') ↔
        ∃ s m₁ m₂, FindsSlot fuel object position m s m₁ ∧
          (evaluate fuel value).outcome m₁ = (.done v, m₂) ∧
          (m₂.heap.element? s).isSome ∧ m' = { m₂ with heap := m₂.heap.store s v }) ∧
    (∀ s value (m : Machine),
      (Run.store s value).outcome m = (.done (), { m with heap := m.heap.store s value })) ∧
    ∀ (h : Heap) s value, (h.store s value).functions = h.functions ∧
      (h.store s value).sizes = h.sizes ∧
      ∀ t, (h.store s value).element? t = if t = s then (h.element? t).map fun _ => value
        else h.element? t :=
  -- The parts in order: sizes along every kind of run, what a slot is, both accesses without a
  -- fallback, what they leave, and what a store changes.
  ⟨evolution_sizes.evaluate, evolution_sizes.execute, sizes_prefix_executeIn,
    evolution_sizes.callFunction, fun requests m =>
      (kept_sizes m.heap.sizes).serveAll requests (List.prefix_refl _),
    fun _ _ _ _ => Heap.slot_eq_ok_iff, Number.hasValue_zero true, evaluate_index_eq,
      evaluate_indexAssign_eq,
    fun _ _ _ _ _ _ _ => outcome_evaluate_index_iff, fun _ _ _ _ _ _ _ _ =>
      outcome_evaluate_indexAssign_iff,
    Run.outcome_store, fun h s value => ⟨rfl, h.sizes_store s value, fun t =>
      h.element?_store s t value⟩⟩

/-- In `[null, null][-0] = []` the element at the position zero becomes the new array, and the other
    one stays. -/
theorem accesses_in_bounds_at_negative_zero :
    let bracket : Token := .plain .lBracket "[" (.point 12 1)
    let pair : Expr := .array [.literal .null, .literal .null]
    let zero : Expr := .literal (.number (Number.ofMagnitude true 0))
    ∃ m', (evaluate 3 (.indexAssign pair zero (.array []) bracket)).outcome (start [] .unlimited) =
        (.done (.array 1), m') ∧
      m'.heap.element? ⟨0, 0⟩ = some (.array 1) ∧ m'.heap.element? ⟨0, 1⟩ = some .null := by
  intro bracket pair zero
  obtain ⟨-, -, -, -, -, hslot, hzero, -, -, -, hassign, -, hstore⟩ := accesses_in_bounds
  let m : Machine := start [] .unlimited
  let before : Machine := { m with heap := ⟨#[#[.null, .null]], 0⟩ }
  let after : Machine := { m with heap := ⟨#[#[.null, .null], #[]], 0⟩ }
  -- Negative zero is the position zero, so the first element is found.
  have hfound : FindsSlot 2 pair zero m ⟨0, 0⟩ before :=
    ⟨.array 0, before, _, rfl, rfl, (hslot ..).2 ⟨_, _, rfl, rfl, hzero, rfl, by decide⟩⟩
  have hvalue : (evaluate 2 (.array [])).outcome before = (.done (.array 1), after) := rfl
  refine ⟨_, (hassign ..).2 ⟨⟨0, 0⟩, before, after, hfound, hvalue, rfl, rfl⟩, ?_, ?_⟩
  · rw [(hstore ..).2.2]
    rfl
  · rw [(hstore ..).2.2]
    rfl

end Machine

end Treewalk
