import Mathlib.Data.List.Chain
import Treewalk.Proofs.Evaluation.Composition
import Treewalk.Proofs.Machine.Outcome

/-!
# What happens while a run goes on

The outcome of a run shows a machine at the end. A *trace* of a run has all the machines that there
are from the start to the end, in order: one behind the other for runs that follow each other, and
for a run in another scope also those at which the current scope changes, the scope is made and the
scope is given up.

All evaluation has a trace, on every machine (`Run.exists_trace_evaluate` and so on), so what is
shown of all traces is so at every moment of evaluation.
-/

namespace Treewalk

namespace Run

/-- The runs that do a single thing, which has nothing to do with what scopes there are. -/
inductive Primitive : {α : Type} → Run α → Prop where
  | pure {α : Type} (a : α) : Primitive (Pure.pure a : Run α)
  | stop {α : Type} (reason : Stop) : Primitive (throw reason : Run α)
  | query {α : Type} (f : Machine → α) : Primitive (Run.query f)
  | onHeap {α : Type} (span : Span) (f : Heap → Except RuntimeFault α) :
      Primitive (Run.onHeap span f)
  | allocate {α : Type} (f : Heap → α × Heap) : Primitive (Run.allocate f)
  | store (slot : Slot) (value : Value) : Primitive (Run.store slot value)
  | lookup (name : Token) : Primitive (Run.lookup name)
  | declare (name : String) (value : Value) : Primitive (Run.declare name value)
  | assign (name : Token) (value : Value) : Primitive (Run.assign name value)
  | print (keyword : Token) (line : String) : Primitive (Run.print keyword line)
  | readLine : Primitive Run.readLine

/-- The run goes through these machines when it starts on the given one, the machines at the start
    and at the end included. -/
inductive Trace : {α : Type} → Run α → Machine → List Machine → Prop where
  | primitive {α : Type} {run : Run α} (hrun : run.Primitive) (m : Machine) :
      Trace run m [m, (run.outcome m).2]
  | next {α β : Type} {run : Run α} {next : α → Run β} {m m' : Machine} {a : α}
      {states later : List Machine}
      (hrun : Trace run m states) (hdone : run.outcome m = (.done a, m'))
      (hnext : Trace (next a) m' later) :
      Trace (run >>= next) m (states ++ later)
  | stopped {α β : Type} {run : Run α} {next : α → Run β} {m : Machine} {states : List Machine}
      (hrun : Trace run m states) (hstopped : ∀ a, (run.outcome m).1 ≠ .done a) :
      Trace (run >>= next) m states
  | inScope {α : Type} {run : Run α} {m : Machine} {scope : Nat} {states : List Machine}
      (hscope : scope < m.scopes.size) (hrun : Trace run { m with current := scope } states) :
      Trace (inScope scope run) m (m :: states ++ [((inScope scope run).outcome m).2])
  | inNewScope {α : Type} {run : Run α} {m : Machine} {enclosing : Nat} {states : List Machine}
      (henclosing : enclosing = m.current ∨ enclosing = Machine.globals)
      (hrun : Trace (inScope m.scopes.size run) { m with scopes := m.scopes.push (some enclosing) }
        states) :
      Trace (inNewScope enclosing run) m (m :: states ++ [((inNewScope enclosing run).outcome m).2])

variable {α β : Type}

/-- What follows a run is run behind it, if there is a trace of it on whatever machine. -/
theorem exists_trace_bind {run : Run α} {next : α → Run β}
    (hrun : ∀ m, ∃ states, Trace run m states)
    (hnext : ∀ a m, ∃ states, Trace (next a) m states) (m : Machine) :
    ∃ states, Trace (run >>= next) m states := by
  obtain ⟨states, hstates⟩ := hrun m
  cases hout : run.outcome m with
  | mk outcome m' =>
    cases outcome with
    | done a =>
      obtain ⟨later, hlater⟩ := hnext a m'
      exact ⟨_, .next hstates hout hlater⟩
    | failed error => exact ⟨_, .stopped hstates fun a h => by rw [hout] at h; cases h⟩
    | unfinished => exact ⟨_, .stopped hstates fun a h => by rw [hout] at h; cases h⟩

/-- A run in a new scope has a trace if the run itself has one on every machine. -/
theorem exists_trace_inNewScope {run : Run α} (hrun : ∀ m, ∃ states, Trace run m states)
    {m : Machine}
    {enclosing : Nat} (henclosing : enclosing = m.current ∨ enclosing = Machine.globals) :
    ∃ states, Trace (inNewScope enclosing run) m states := by
  obtain ⟨states, hstates⟩ := hrun (m.enter enclosing)
  have hsize : m.scopes.size < (m.scopes.push (some enclosing)).size := by
    rw [Forest.size_push]
    exact Nat.lt_succ_self _
  exact ⟨_, .inNewScope henclosing (.inScope hsize hstates)⟩

/-- What expressions are put together from has a trace. -/
theorem expressive_trace : Expressive fun _ run => ∀ m, ∃ states, Trace run m states where
  pure a m := ⟨_, .primitive (.pure a) m⟩
  bind := exists_trace_bind
  stop reason _ m := ⟨_, .primitive (.stop reason) m⟩
  query f m := ⟨_, .primitive (.query f) m⟩
  onHeap span f _ m := ⟨_, .primitive (.onHeap span f) m⟩
  newArray _ m := ⟨_, .primitive (.allocate _) m⟩
  store slot value m := ⟨_, .primitive (.store slot value) m⟩
  lookup name m := ⟨_, .primitive (.lookup name) m⟩
  assign name value m := ⟨_, .primitive (.assign name value) m⟩

/-- All evaluation has a trace, whatever the machine. -/
theorem compositional_trace : Compositional fun _ run => ∀ m, ∃ states, Trace run m states where
  toExpressive := expressive_trace
  newFunction name params body m := ⟨_, .primitive (.allocate _) m⟩
  declare name value m := ⟨_, .primitive (.declare name value) m⟩
  inBlock {_ run} hrun m := by
    -- The current scope is asked for first, and it is still the current one when the new one is
    -- made.
    obtain ⟨later, hlater⟩ := exists_trace_inNewScope hrun (m := m) (.inl rfl)
    exact ⟨_, .next (.primitive (.query _) m) (outcome_query _ m) hlater⟩
  inFrame hrun m := exists_trace_inNewScope hrun (.inr rfl)
  print {fuel} keyword {e} he m := by
    rw [Treewalk.execute]
    refine exists_trace_bind he (fun v => ?_) m
    refine exists_trace_bind (fun m => ⟨_, .primitive (.query _) m⟩) fun line => ?_
    exact exists_trace_bind (fun m => ⟨_, .primitive (.print keyword line) m⟩) fun _ m =>
      ⟨_, .primitive (.pure _) m⟩
  read := expressive_trace.read fun m => ⟨_, .primitive .readLine m⟩

namespace Trace

variable {run : Run α} {m : Machine} {states : List Machine}

/-- A trace starts at the machine that the run starts on. -/
theorem head? (h : Trace run m states) : states.head? = some m := by
  induction h with
  | primitive _ m => rfl
  | next _ _ _ ih _ => rw [List.head?_append, ih, Option.some_or]
  | stopped _ _ ih => exact ih
  | inScope _ _ _ => rfl
  | inNewScope _ _ _ => rfl

/-- A trace ends at the machine that the run leaves. -/
theorem getLast? (h : Trace run m states) : states.getLast? = some (run.outcome m).2 := by
  induction h with
  | primitive _ m => rfl
  | next _ hdone _ _ ih =>
    rw [List.getLast?_append, ih, Option.some_or, outcome_bind, hdone]
  | stopped _ hstopped ih => rw [ih, outcome_bind_of_stopped hstopped]
  | inScope _ _ _ => rw [List.getLast?_concat]
  | inNewScope _ _ _ => rw [List.getLast?_concat]

end Trace

end Run

end Treewalk
