import Mathlib.Data.List.Perm.Subperm
import Treewalk.Value.Unseen

/-!
# Walks with a stack

A walk that may be led back to a place that it is inside of keeps these places on a stack. It puts a
place on top when it goes in and takes the top off when it comes out, and nothing but this keeps the
stack in order. Here the stack is part of a state, together with all that it has been so far
(`Track`).

A walk that says with `Walk.Returns` what it does has its stack as before when it comes back, and
all stacks on the way are as they should be. They are so if a place is only put on a stack that does
not have it yet (`Track.Orderly`).
-/

namespace Treewalk

/-- Where a walk is: the places that it is inside of, the innermost first. Then all stacks that
    there have been, from one change to the next, and the places that the walk has met again inside
    of themselves. -/
structure Track (α : Type) where
  inside : List α
  history : List (List α)
  turns : List α

/-- Outside of all places. -/
def Track.start {α : Type} : Track α := ⟨[], [[]], []⟩

/-- What a walk does with its track, unless it runs out of fuel. -/
abbrev Walk (α : Type) := StateT (Track α) Option

namespace Walk

variable {α β γ : Type}

/-- Puts a place on top of the stack. -/
def enter (a : α) : Walk α Unit :=
  modify fun t => { t with inside := a :: t.inside, history := t.history ++ [a :: t.inside] }

/-- Takes the top off the stack. -/
def leave : Walk α Unit :=
  modify fun t => { t with inside := t.inside.tail, history := t.history ++ [t.inside.tail] }

/-- Entering puts the element on the stack, and the new stack behind the history. -/
theorem run_enter (a : α) (t : Track α) :
    (enter a).run t = some ((), ⟨a :: t.inside, t.history ++ [a :: t.inside], t.turns⟩) := rfl

/-- Leaving takes the top off the stack, and puts the new stack behind the history. -/
theorem run_leave (t : Track α) :
    (leave : Walk α Unit).run t =
      some ((), ⟨t.inside.tail, t.history ++ [t.inside.tail], t.turns⟩) := rfl

/-- Is the walk inside of this place? If it is, it turns back here. -/
def turnsBack [BEq α] (a : α) : Walk α Bool := do
  if (← get).inside.contains a then
    modify fun t => { t with turns := t.turns ++ [a] }
    return true
  return false

/-! ## What a walk comes back with -/

/-- A walk comes back with a value, and its stack is then as before. All stacks on the way are as
    the first predicate says, and all places where it turns back are as the second one says. -/
def Returns (P : List α → Prop) (Q : α → Prop) (walk : Walk α β) (t : Track α) (b : β) : Prop :=
  ∃ history turns, walk.run t = some (b, ⟨t.inside, t.history ++ history, t.turns ++ turns⟩) ∧
    (∀ stack ∈ history, P stack) ∧ ∀ a ∈ turns, Q a

variable {P : List α → Prop} {Q : α → Prop} {t : Track α} {a : α} {b : β} {c : γ}

/-- A walk that is over at once returns its value. -/
theorem returns_pure (P : List α → Prop) (Q : α → Prop) (t : Track α) (b : β) :
    Returns P Q (pure b) t b := by
  refine ⟨[], [], ?_, List.forall_mem_nil _, List.forall_mem_nil _⟩
  rw [List.append_nil, List.append_nil]
  rfl

/-- Walks return one after the other, the second one from the same stack. -/
theorem returns_bind {walk : Walk α β} {next : β → Walk α γ} (hfirst : Returns P Q walk t b)
    (hnext : ∀ t' : Track α, t'.inside = t.inside → Returns P Q (next b) t' c) :
    Returns P Q (walk >>= next) t c := by
  obtain ⟨history, turns, hrun, hhistory, hturns⟩ := hfirst
  obtain ⟨history', turns', hrun', hhistory', hturns'⟩ :=
    hnext ⟨t.inside, t.history ++ history, t.turns ++ turns⟩ rfl
  refine ⟨history ++ history', turns ++ turns', ?_, List.forall_mem_append.2 ⟨hhistory, hhistory'⟩,
    List.forall_mem_append.2 ⟨hturns, hturns'⟩⟩
  rw [StateT.run_bind, hrun, ← List.append_assoc, ← List.append_assoc]
  exact hrun'

/-- What is between going in and coming out is done with one more place on the stack, and what
    follows is done with the stack as it was. -/
theorem returns_within {walk : Walk α β} {next : β → Walk α γ} (hin : P (a :: t.inside))
    (hout : P t.inside) (hwalk : ∀ t' : Track α, t'.inside = a :: t.inside → Returns P Q walk t' b)
    (hnext : ∀ t' : Track α, t'.inside = t.inside → Returns P Q (next b) t' c) :
    Returns P Q (do enter a; let b ← walk; leave; next b) t c := by
  obtain ⟨history, turns, hrun, hhistory, hturns⟩ :=
    hwalk ⟨a :: t.inside, t.history ++ [a :: t.inside], t.turns⟩ rfl
  obtain ⟨history', turns', hrun', hhistory', hturns'⟩ :=
    hnext ⟨t.inside, t.history ++ [a :: t.inside] ++ history ++ [t.inside], t.turns ++ turns⟩ rfl
  -- The stack changes when the walk goes in, then on the way, when it comes out, and in what
  -- follows.
  refine ⟨[a :: t.inside] ++ history ++ [t.inside] ++ history', turns ++ turns', ?_, ?_,
    List.forall_mem_append.2 ⟨hturns, hturns'⟩⟩
  · rw [StateT.run_bind, run_enter, Option.bind_eq_bind, Option.bind_some, StateT.run_bind, hrun,
      Option.bind_eq_bind, Option.bind_some, StateT.run_bind, run_leave, Option.bind_eq_bind,
      Option.bind_some]
    simp only [List.append_assoc] at hrun' ⊢
    exact hrun'
  · simp only [List.forall_mem_append, List.forall_mem_singleton]
    exact ⟨⟨⟨hin, hhistory⟩, hout⟩, hhistory'⟩

/-- A walk turns back at the places that it is inside of. -/
theorem returns_turnsBack [BEq α] (P : List α → Prop) (hturn : t.inside.contains a = true → Q a) :
    Returns P Q (turnsBack a) t (t.inside.contains a) := by
  have hrun : (turnsBack a).run t =
      if t.inside.contains a then some (true, { t with turns := t.turns ++ [a] })
        else some (false, t) := by
    unfold turnsBack
    rw [StateT.run_bind]
    show StateT.run (if t.inside.contains a then _ else _) t = _
    split <;> rfl
  -- Turning back is noted where it happens, and neither case touches the stack.
  cases hmem : t.inside.contains a with
  | true =>
    refine ⟨[], [a], ?_, List.forall_mem_nil _, List.forall_mem_singleton.2 (hturn hmem)⟩
    rw [hrun, if_pos hmem, List.append_nil]
  | false =>
    refine ⟨[], [], ?_, List.forall_mem_nil _, List.forall_mem_nil _⟩
    rw [hrun, if_neg (ne_true_of_eq_false hmem), List.append_nil, List.append_nil]

/-- Walking along a list returns the list of what the walks return. -/
theorem returns_mapM {δ : Type} {f : δ → Walk α β} {g : δ → β} {xs : List δ}
    (hall : ∀ x ∈ xs, ∀ t' : Track α, t'.inside = t.inside → Returns P Q (f x) t' (g x)) :
    Returns P Q (xs.mapM f) t (xs.map g) := by
  induction xs generalizing t with
  | nil => exact returns_pure P Q t []
  | cons x xs ih =>
    rw [List.mapM_cons]
    obtain ⟨hfirst, hothers⟩ := List.forall_mem_cons.1 hall
    -- The first element leaves the stack as it was, so the others are on the stack that the list
    -- started with.
    refine returns_bind (hfirst t rfl) fun t₁ h₁ => ?_
    refine returns_bind (ih fun x hx t' ht' => hothers x hx t' (ht'.trans h₁)) fun t₂ _ => ?_
    exact returns_pure P Q t₂ _

end Walk

/-! ## Orderly stacks -/

/-- All places on a stack are among those that there are, and none is there twice. -/
structure Track.Orderly {α : Type} (all stack : List α) : Prop where
  nodup : stack.Nodup
  subset : stack ⊆ all

/-- A predicate is kept when a place is put on a stack that does not have it. -/
def Walk.Stacking {α : Type} (all : List α) (P : List α → Prop) : Prop :=
  ∀ a ∈ all, ∀ stack, a ∉ stack → P stack → P (a :: stack)

namespace Track.Orderly

variable {α : Type} {all stack : List α}

/-- The empty stack is in order. -/
theorem nil : Orderly all [] := ⟨List.nodup_nil, List.nil_subset all⟩

/-- Putting a new element on a stack in order leaves it in order. -/
theorem stacking : Walk.Stacking all (Orderly all) := fun _ ha _ hnew h =>
  ⟨List.nodup_cons.2 ⟨hnew, h.nodup⟩, List.cons_subset.2 ⟨ha, h.subset⟩⟩

/-- A stack is no higher than there are places. -/
theorem length_le (h : Orderly all stack) : stack.length ≤ all.length :=
  (List.subperm_of_subset h.nodup h.subset).length_le

end Track.Orderly

/-- A place that is not on the stack yet may be put there. -/
theorem Walk.Stacking.of_new {α : Type} [BEq α] [LawfulBEq α] {all stack : List α}
    {P : List α → Prop} {a : α}
    (hP : Stacking all P) (hmem : a ∈ all) (hnew : stack.contains a = false) (hstack : P stack) :
    P (a :: stack) := by
  refine hP a hmem stack (fun hin => ?_) hstack
  rw [List.contains_iff_mem.2 hin] at hnew
  cases hnew

/-- Fuel that is enough for a walk is enough for what it does inside of one place more, though this
    has one level of it less. -/
theorem unseen_cons_lt_of_lt_succ {α : Type} [BEq α] [LawfulBEq α] {all stack : List α} {a : α}
    {fuel : Nat}
    (hmem : a ∈ all) (hnew : stack.contains a = false) (hfuel : unseen all stack < fuel + 1) :
    unseen all (a :: stack) < fuel := by
  have hfewer := unseen_cons_lt hmem hnew
  omega

/-- Nothing has been seen by a walk that is outside of all places. -/
theorem unseen_nil {α : Type} [BEq α] (all : List α) : unseen all [] = all.length :=
  List.countP_eq_length.2 fun _ _ => rfl

/-- A walk that starts outside of all places comes out of all of them, and its stacks are orderly
    from the start. -/
theorem Walk.Returns.from_start {α β : Type} {all : List α} {Q : α → Prop} {walk : Walk α β} {b : β}
    (h : Returns (Track.Orderly all) Q walk .start b) :
    ∃ t, walk.run .start = some (b, t) ∧ t.inside = [] ∧
      (∀ stack ∈ t.history, Track.Orderly all stack ∧ stack.length ≤ all.length) ∧
        ∀ a ∈ t.turns, Q a := by
  obtain ⟨history, turns, hrun, hhistory, hturns⟩ := h
  refine ⟨_, hrun, rfl, fun stack hstack => ?_, hturns⟩
  have horderly : Track.Orderly all stack := by
    -- The first stack of all is the empty one, which no step has made.
    obtain rfl | hstack := List.mem_cons.1 hstack
    · exact .nil
    · exact hhistory stack hstack
  exact ⟨horderly, horderly.length_le⟩

end Treewalk
