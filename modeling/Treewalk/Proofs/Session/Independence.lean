import Treewalk.Proofs.Evaluation.Simulation
import Treewalk.Session

/-!
# Calls do not see their callers

A function runs in a scope of its own inside of the global one. So a call does the same on all
machines that agree on the globals, the arrays, the input, the sink and the log, whatever the
current scope is and whatever all other scopes are and bind (`Machine.callFunction_independent`).

The functions that a call makes get the next numbers that are free. Where two machines have made
equally many functions before, these are the same numbers, and then results are equal. Where they
have not, results are equal but for the numbers of the functions that the call has made
(`Value.Renumbered`).
-/

namespace Treewalk

/-! ## Values up to the numbers of functions -/

/-- Values that are equal but for the numbers of functions, which go together. -/
def Value.Renumbered (s : Shift) : Value → Value → Prop
  | .function f, .function g =>
    s.Rel f.id g.id ∧ f.name = g.name ∧ f.params = g.params ∧ f.body = g.body
  | v, w => v = w

/-- Endings that are equal but for the numbers of functions. -/
def Outcome.Renumbered (s : Shift) : Outcome Value → Outcome Value → Prop
  | .done v, .done w => v.Renumbered s w
  | .failed error, .failed error' => error = error'
  | .unfinished, .unfinished => True
  | _, _ => False

/-- If equal numbers go together, then such values are equal. -/
theorem Value.renumbered_same {n : Nat} {v w : Value} : v.Renumbered (.same n) w ↔ v = w := by
  cases v with
  | function f =>
    cases w with
    | function g =>
      obtain ⟨id, name, params, body⟩ := f
      obtain ⟨id', name', params', body'⟩ := g
      simp only [Renumbered, Shift.rel_same, function.injEq, Closure.mk.injEq]
    | _ => exact Iff.rfl
  | _ => exact Iff.rfl

/-- Outcomes that are renumbered by no shift at all are equal. -/
theorem Outcome.Renumbered.eq {n : Nat} {a b : Outcome Value} (h : a.Renumbered (.same n) b) :
    a = b := by
  -- Only values have numbers in them, so faults are equal as they are.
  cases a with
  | done v =>
    cases b with
    | done w => rw [Value.renumbered_same.1 h]
    | _ => exact nomatch h
  | failed error =>
    cases b with
    | failed error' => rw [show error = error' from h]
    | _ => exact nomatch h
  | unfinished =>
    cases b with
    | unfinished => rfl
    | _ => exact nomatch h

/-! ## What two calls have in common -/

/-- Between two runs that only have the global scope in common. Only equal trees count as the
    same. -/
def Link.globals (s : Shift) {left right : Nat} (hleft : 0 < left) (hright : 0 < right) : Link where
  scopes := ⟨1, left, right, hleft, hright⟩
  functions := s
  trees := .same
  shared_pos := Nat.one_pos

section

variable {s : Shift} {left right : Nat} {hleft : 0 < left} {hright : 0 < right}

/-- Functions are alike here if their names, parameters and bodies are equal. -/
theorem Closure.alike_globals {f g : Closure} :
    f.Alike (.globals s hleft hright) g ↔
      f.name = g.name ∧ f.params = g.params ∧ f.body = g.body := by
  constructor
  · rintro ⟨hname, hparams, hbody⟩
    exact ⟨hname, List.forall₂_eq_eq_eq ▸ hparams, hbody⟩
  · rintro ⟨hname, hparams, hbody⟩
    refine ⟨hname, ?_, hbody⟩
    rw [← hparams]
    exact List.forall₂_same.2 fun _ _ => rfl

/-- Values are alike here if the numbers of functions in them are shifted. -/
theorem Value.alike_globals {v w : Value} :
    v.Alike (.globals s hleft hright) w ↔ v.Renumbered s w := by
  constructor
  · intro h
    cases h with
    | function hid hf => exact ⟨hid, Closure.alike_globals.1 hf⟩
    | _ => rfl
  · intro h
    -- Functions have numbers, and all other values have to be equal.
    cases v with
    | function f =>
      cases w with
      | function g => exact .function h.1 (Closure.alike_globals.2 h.2)
      | _ => exact nomatch h
    | _ =>
      obtain rfl : _ = w := h
      constructor

/-- Outcomes that are alike here have shifted numbers in them. -/
theorem Outcome.Alike.renumbered {a b : Outcome Value}
    (h : a.Alike (.globals s hleft hright) (Value.Alike (.globals s hleft hright)) b) :
    a.Renumbered s b := by
  cases h with
  | done h => exact Value.alike_globals.1 h
  | failed fault h => exact congrArg (RuntimeError.mk fault) h
  | unfinished => exact trivial

end

namespace Machine

/-- Machines on which calls do the same: they agree on the globals, the arrays, the input, the sink
    and the log, but for the numbers of functions. -/
structure SameGlobally (s : Shift) (m m' : Machine) : Prop where
  hasGlobals : 0 < m.scopes.size
  hasGlobals' : 0 < m'.scopes.size
  global (name : String) : Option.Rel (Value.Renumbered s) (m.global? name) (m'.global? name)
  array (ref : Nat) :
    Option.Rel (fun xs ys => List.Forall₂ (Value.Renumbered s) xs.toList ys.toList)
    (m.heap.array? ref) (m'.heap.array? ref)
  functions : ∃ d, m.heap.functions = s.left + d ∧ m'.heap.functions = s.right + d
  input : m.input = m'.input
  sink : m.sink = m'.sink
  log : m.log = m'.log

/-- A global is a name that the oldest scope binds. -/
theorem global?_eq_findIn? {m : Machine} (h : 0 < m.scopes.size) (name : String) :
    m.global? name = m.scopes.findIn? name 0 := by
  rw [global?, globals, Forest.get?, Forest.chain_zero h, List.findSome?_singleton]

variable {s : Shift} {m m' : Machine}

/-- Whatever else they have, such machines are alike. -/
theorem SameGlobally.alike (h : m.SameGlobally s m') :
    m.Alike (.globals s h.hasGlobals h.hasGlobals') m' := by
  have hvalue : Value.Alike (.globals s h.hasGlobals h.hasGlobals') = Value.Renumbered s := by
    funext v w
    exact propext Value.alike_globals
  refine ⟨⟨⟨0, rfl, rfl⟩, ?_, ?_⟩, ⟨?_, h.functions⟩, h.input, h.sink, h.log⟩
  -- Scopes that belong together are the global ones, or there are none with these numbers.
  · rintro i j (⟨rfl, hlt⟩ | ⟨d, hi, hj⟩)
    · obtain rfl : i = 0 := Nat.lt_one_iff.1 hlt
      rw [Forest.chain_zero h.hasGlobals, Forest.chain_zero h.hasGlobals']
      exact .cons (.inl ⟨rfl, hlt⟩) .nil
    · rw [Forest.chain_of_size_le (hi ▸ Nat.le_add_right _ d),
        Forest.chain_of_size_le (hj ▸ Nat.le_add_right _ d)]
      exact .nil
  · rintro i j (⟨rfl, hlt⟩ | ⟨d, hi, hj⟩) name
    · obtain rfl : i = 0 := Nat.lt_one_iff.1 hlt
      rw [← global?_eq_findIn? h.hasGlobals, ← global?_eq_findIn? h.hasGlobals', hvalue]
      exact h.global name
    · rw [Forest.findIn?_of_size_le name (hi ▸ Nat.le_add_right _ d),
        Forest.findIn?_of_size_le name (hj ▸ Nat.le_add_right _ d)]
      exact .none
  · intro ref
    unfold Value.AllAlike
    rw [hvalue]
    exact h.array ref

/-- Machines that are alike as far as the global scope goes are such machines. -/
theorem Alike.sameGlobally {left right : Nat} {hleft : 0 < left} {hright : 0 < right}
    (h : m.Alike (.globals s hleft hright) m') : m.SameGlobally s m' := by
  have hvalue : Value.Alike (.globals s hleft hright) = Value.Renumbered s := by
    funext v w
    exact propext Value.alike_globals
  -- Both forests have grown by the same scopes, so both still have a global one.
  obtain ⟨d, hsize, hsize'⟩ := h.scopes.size
  have hglobals : 0 < m.scopes.size := by rw [hsize]; exact Nat.add_pos_left hleft d
  have hglobals' : 0 < m'.scopes.size := by rw [hsize']; exact Nat.add_pos_left hright d
  refine ⟨hglobals, hglobals', fun name => ?_, fun ref => ?_, h.heap.functions, h.input, h.sink,
    h.log⟩
  · have hglobal := h.scopes.get? (i := 0) (j := 0) (.inl ⟨rfl, Nat.one_pos⟩) name
    rw [hvalue] at hglobal
    exact hglobal
  · have harray := h.heap.array ref
    unfold Value.AllAlike at harray
    rw [hvalue] at harray
    exact harray

/-- A call does the same on all such machines, but for the numbers of functions. -/
theorem callFunction_renumbered (h : m.SameGlobally s m') (fuel : Nat) (f : Closure)
    {args args' : List Value} (hargs : List.Forall₂ (Value.Renumbered s) args args') :
    (m.callFunction fuel f args).1.Renumbered s (m'.callFunction fuel f args').1 ∧
      (m.callFunction fuel f args).2.SameGlobally s (m'.callFunction fuel f args').2 := by
  have hargsAlike : List.Forall₂ (Value.Alike (.globals s h.hasGlobals h.hasGlobals')) args args' :=
    hargs.imp fun _ _ hvalue => Value.alike_globals.2 hvalue
  obtain ⟨houtcome, hmachine⟩ :=
    callFunction_alike fuel (Closure.alike_globals.2 ⟨rfl, rfl, rfl⟩) hargsAlike h.alike
  exact ⟨houtcome.renumbered, hmachine.sameGlobally⟩

/-! ## Machines with the same globals -/

/-- Machines that agree on all that is not local: the globals, the arrays, the input, the sink and
    the log. The current scope and all scopes but the global one may be any. -/
structure AgreeGlobally (m m' : Machine) : Prop where
  hasGlobals : 0 < m.scopes.size
  hasGlobals' : 0 < m'.scopes.size
  global (name : String) : m.global? name = m'.global? name
  arrays : m.heap.arrays = m'.heap.arrays
  input : m.input = m'.input
  sink : m.sink = m'.sink
  log : m.log = m'.log

/-- The values that a call with these arguments can start from. -/
inductive Within (m : Machine) (args : List Value) : Value → Prop where
  | arg {v : Value} (h : v ∈ args) : Within m args v
  | global {v : Value} {name : String} (h : m.global? name = some v) : Within m args v
  | element {v : Value} {ref : Nat} {elements : Array Value} (h : m.heap.array? ref = some elements)
      (hmem : v ∈ elements.toList) : Within m args v

/-- Machines that agree are the same but for the functions made from now on, if the values that
    there are mean the same in both. -/
theorem AgreeGlobally.sameGlobally (h : m.AgreeGlobally m') (args : List Value)
    (hleft : s.left = m.heap.functions) (hright : s.right = m'.heap.functions)
    (hvalues : ∀ v, m.Within args v → v.Renumbered s v) : m.SameGlobally s m' := by
  -- What is in a global variable or an array is within reach of the call, so the hypothesis on
  -- values is for it as well.
  refine ⟨h.hasGlobals, h.hasGlobals', fun name => ?_, fun ref => ?_,
    ⟨0, hleft.symm, hright.symm⟩, h.input, h.sink, h.log⟩
  · rw [← h.global name]
    cases hglobal : m.global? name with
    | none => exact .none
    | some v => exact .some (hvalues v (.global hglobal))
  · have hsame : m'.heap.array? ref =
      m.heap.array? ref := by rw [Heap.array?, Heap.array?, h.arrays]
    rw [hsame]
    cases helements : m.heap.array? ref with
    | none => exact .none
    | some elements =>
      exact .some (List.forall₂_same.2 fun v hmem => hvalues v (.element helements hmem))

/-- Machines that have made equally many functions and are the same but for their numbers agree. -/
theorem SameGlobally.agreeGlobally {n : Nat} (h : m.SameGlobally (.same n) m') :
    m.AgreeGlobally m' ∧ m.heap.functions = m'.heap.functions := by
  -- Where nothing is shifted, all that is related is equal.
  have hvalue : Value.Renumbered (.same n) = Eq := by
    funext v w
    exact propext Value.renumbered_same
  obtain ⟨d, hleft, hright⟩ := h.functions
  refine ⟨⟨h.hasGlobals, h.hasGlobals', fun name => ?_, ?_, h.input, h.sink, h.log⟩,
    hleft.trans hright.symm⟩
  · have hglobal := h.global name
    rw [hvalue] at hglobal
    exact hglobal.eq
  · apply Array.ext_getElem?
    intro ref
    have harray := h.array ref
    rw [hvalue] at harray
    exact (harray.imp fun _ _ hlist => Array.ext' (List.forall₂_eq_eq_eq ▸ hlist)).eq

/-- **Calls do not see their callers.** On machines that agree on the globals, the arrays, the
    input, the sink and the log, a call of any function with any arguments ends the same way, with
    equal results or equal faults, and the machines agree again. If the machines have not made
    equally many functions before, this holds but for the numbers of the functions that the call
    makes. -/
theorem callFunction_independent (h : m.AgreeGlobally m') (fuel : Nat) (f : Closure)
    (args : List Value) :
    (m.heap.functions = m'.heap.functions →
      (m.callFunction fuel f args).1 = (m'.callFunction fuel f args).1 ∧
      AgreeGlobally (m.callFunction fuel f args).2 (m'.callFunction fuel f args).2 ∧
      (m.callFunction fuel f args).2.heap.functions =
        (m'.callFunction fuel f args).2.heap.functions) ∧
    ∀ s : Shift, s.left = m.heap.functions → s.right = m'.heap.functions →
      (∀ g : Closure, m.Within args (.function g) → g.id < s.shared) →
      (m.callFunction fuel f args).1.Renumbered s (m'.callFunction fuel f args).1 ∧
      SameGlobally s (m.callFunction fuel f args).2 (m'.callFunction fuel f args).2 := by
  -- With equal counters nothing is shifted. With different ones the functions in reach keep their
  -- numbers, and only new ones are shifted.
  constructor
  · intro hfunctions
    have hsame : m.SameGlobally (.same m.heap.functions) m' :=
      h.sameGlobally args rfl hfunctions fun v _ => Value.renumbered_same.2 rfl
    have hargs : List.Forall₂ (Value.Renumbered (.same m.heap.functions)) args args :=
      List.forall₂_same.2 fun v _ => Value.renumbered_same.2 rfl
    obtain ⟨houtcome, hmachine⟩ := callFunction_renumbered hsame fuel f hargs
    exact ⟨houtcome.eq, hmachine.agreeGlobally⟩
  · intro s hleft hright hknown
    have hvalues (v : Value) (hwithin : m.Within args v) : v.Renumbered s v := by
      cases v with
      | function g => exact ⟨Shift.rel_of_lt (hknown g hwithin), rfl, rfl, rfl⟩
      | _ => rfl
    exact callFunction_renumbered (h.sameGlobally args hleft hright hvalues) fuel f
      (List.forall₂_same.2 fun v hmem => hvalues v (.arg hmem))

/-- A call that makes a function and gives it back does not notice a local scope, nor that three
    functions have been made before. -/
theorem callFunction_independent_of_local_scope :
    let here : Machine := start [] .unlimited
    let there : Machine :=
      { (here.openScope [("x", .bool true)]).2 with current := 1, heap := ⟨#[], 3⟩ }
    let name : Token := .plain .identifier "g" (.point 0 1)
    let f : Closure := ⟨0, name, [name], [.function name [] [], .result name (some (.name name))]⟩
    (here.callFunction 3 f [.null]).1 =
        (Machine.callFunction 3 f [.null] { there with heap := here.heap }).1 ∧
      (here.callFunction 3 f [.null]).1.Renumbered ⟨0, 0, 3, by decide, by decide⟩
        (there.callFunction 3 f [.null]).1 := by
  intro here there name f
  have hsize : 0 < here.scopes.size := by decide
  have hsize' : 0 < there.scopes.size := by decide
  -- The machines differ in a local scope that the call does not see, and in the counter if it is
  -- not set to the same.
  have hagree (functions : Nat) : here.AgreeGlobally { there with heap := ⟨#[], functions⟩ } := by
    refine ⟨hsize, hsize', fun key => ?_, rfl, rfl, rfl, rfl⟩
    exact (global?_eq_findIn? hsize key).trans (global?_eq_findIn? hsize' key).symm
  have hknown (g : Closure) (hwithin : here.Within [.null] (.function g)) : g.id < 0 := by
    cases hwithin with
    | arg h => simp at h
    | global h =>
      rw [global?_eq_findIn? hsize] at h
      exact nomatch h
    | element h => exact nomatch h
  exact ⟨((callFunction_independent (hagree 0) 3 f [.null]).1 rfl).1,
    ((callFunction_independent (hagree 3) 3 f [.null]).2 ⟨0, 0, 3, by decide, by decide⟩ rfl rfl
      hknown).1⟩

end Machine

end Treewalk
