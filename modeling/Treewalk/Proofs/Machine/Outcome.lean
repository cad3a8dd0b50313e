import Treewalk.Session

/-!
# How runs end

`Run.outcome` shows a run from outside: how it ended, and the machine afterwards. Every primitive
run, and every way in which runs are put together, has an equation for its outcome here, so that
proofs about runs are about machines only.
-/

namespace Treewalk

namespace Machine

/-- The machine at the start of a run in a new scope. -/
def enter (m : Machine) (enclosing : Nat) : Machine :=
  { m with scopes := m.scopes.push (some enclosing), current := m.scopes.size }

/-- The machine at the end of a run in a new scope that was made on the machine `m`. -/
def leave (m' m : Machine) : Machine :=
  { m' with scopes := m'.scopes.keep m.scopes.size, current := m.current }

/-- The machine after a line was written, or only a part of it. -/
def printed (m : Machine) (line : String) : Machine :=
  match m.sink.writeLine line with
  | (sink, none) => { m with sink, log := m.log.push line }
  | (sink, some _) => { m with sink }

end Machine

namespace Run

variable {α β : Type}

/-- A run that ends at once has its value and changes nothing. -/
theorem outcome_pure (a : α) (m : Machine) : (pure a : Run α).outcome m = (.done a, m) := rfl

/-- What follows a run is run if the run ends with a value, on the machine that it leaves. -/
theorem outcome_bind (run : Run α) (next : α → Run β) (m : Machine) :
    (run >>= next).outcome m =
      match run.outcome m with
      | (.done a, m') => (next a).outcome m'
      | (.failed error, m') => (.failed error, m')
      | (.unfinished, m') => (.unfinished, m') := by
  simp only [outcome, bind, EStateM.bind]
  cases run m with
  | ok a m' => rfl
  | error stop m' => cases stop <;> rfl

/-- A run and what follows it end with a value if both do, one on the machine that the other
    leaves. -/
theorem outcome_bind_eq_done_iff {run : Run α} {next : α → Run β} {m m' : Machine} {b : β} :
    (run >>= next).outcome m = (.done b, m') ↔
      ∃ a m₁, run.outcome m = (.done a, m₁) ∧ (next a).outcome m₁ = (.done b, m') := by
  rw [outcome_bind]
  constructor
  · intro h
    split at h
    · next a m₁ hrun => exact ⟨a, m₁, hrun, h⟩
    · cases h
    · cases h
  · rintro ⟨a, m₁, hrun, hnext⟩
    rw [hrun]
    exact hnext

/-- A run without a value leaves the machine to nothing that follows it. -/
theorem outcome_bind_of_stopped {run : Run α} {next : α → Run β} {m : Machine}
    (h : ∀ a, (run.outcome m).1 ≠ .done a) : ((run >>= next).outcome m).2 = (run.outcome m).2 := by
  rw [outcome_bind]
  cases hout : run.outcome m with
  | mk outcome m' =>
    cases outcome with
    | done a => exact absurd (congrArg Prod.fst hout) (h a)
    | failed error => rfl
    | unfinished => rfl

/-- A run that fails at once changes nothing. -/
theorem outcome_fail (error : RuntimeError) (m : Machine) :
    (fail error : Run α).outcome m = (.failed error, m) := rfl

/-- A run without fuel is unfinished and changes nothing. -/
theorem outcome_outOfFuel (m : Machine) :
    (throw .outOfFuel : Run α).outcome m = (.unfinished, m) := rfl

/-- Asking for something of the machine changes nothing. -/
theorem outcome_query (f : Machine → α) (m : Machine) : (query f).outcome m = (.done (f m), m) :=
  rfl

/-- Looking at the heap changes nothing, whether something is found or not. -/
theorem outcome_onHeap (span : Span) (f : Heap → Except RuntimeFault α) (m : Machine) :
    (onHeap span f).outcome m =
      match f m.heap with
      | .ok a => (.done a, m)
      | .error fault => (.failed ⟨fault, span⟩, m) := by
  unfold outcome onHeap
  cases f m.heap <;> rfl

/-- A computation on the heap that ends with a value has changed nothing. -/
theorem outcome_onHeap_eq_done_iff {span : Span} {f : Heap → Except RuntimeFault α} {m m' : Machine}
    {a : α} : (onHeap span f).outcome m = (.done a, m') ↔ f m.heap = .ok a ∧ m' = m := by
  rw [outcome_onHeap]
  cases f m.heap with
  | error fault => simp
  | ok b => simp [eq_comm]

/-- Allocating changes the heap and nothing else. -/
theorem outcome_allocate (f : Heap → α × Heap) (m : Machine) :
    (allocate f).outcome m = (.done (f m.heap).1, { m with heap := (f m.heap).2 }) := rfl

/-- Storing at a slot changes the heap and nothing else. -/
theorem outcome_store (slot : Slot) (value : Value) (m : Machine) :
    (store slot value).outcome m = (.done (), { m with heap := m.heap.store slot value }) := rfl

/-- Looking up a name changes nothing, whether it is found or not. -/
theorem outcome_lookup (name : Token) (m : Machine) :
    (lookup name).outcome m =
      match m.scopes.get? m.current name.lexeme with
      | some value => (.done value, m)
      | none => (.failed (Forest.undefinedName name), m) := by
  unfold outcome lookup Forest.lookup
  cases m.scopes.get? m.current name.lexeme <;> rfl

/-- Declaring a variable changes the current scope and nothing else. -/
theorem outcome_declare (name : String) (value : Value) (m : Machine) :
    (declare name value).outcome m =
      (.done (), { m with scopes := m.scopes.declare m.current name value }) := rfl

/-- Assigning to a name changes the nearest scope that binds it, or nothing if none does. -/
theorem outcome_assign (name : Token) (value : Value) (m : Machine) :
    (assign name value).outcome m =
      match m.scopes.owner? m.current name.lexeme with
      | some owner => (.done (), { m with scopes := m.scopes.declare owner name.lexeme value })
      | none => (.failed (Forest.undefinedName name), m) := by
  unfold outcome assign Forest.assign
  cases m.scopes.owner? m.current name.lexeme <;> rfl

/-- However a run in another scope ends, the current scope is then the old one. -/
theorem outcome_inScope (scope : Nat) (run : Run α) (m : Machine) :
    (inScope scope run).outcome m =
      ((run.outcome { m with current := scope }).1,
        { (run.outcome { m with current := scope }).2 with current := m.current }) := by
  unfold outcome inScope
  cases run { m with current := scope } with
  | ok a m' => rfl
  | error stop m' => cases stop <;> rfl

/-- However a run in a new scope ends, the machine is then left to the scopes that it had before. -/
theorem outcome_inNewScope (enclosing : Nat) (run : Run α) (m : Machine) :
    (inNewScope enclosing run).outcome m =
      ((run.outcome (m.enter enclosing)).1, (run.outcome (m.enter enclosing)).2.leave m) := by
  unfold outcome inNewScope inScope Machine.leave
  dsimp only
  cases hrun : run (m.enter enclosing) with
  | ok a m' =>
    rw [Machine.enter] at hrun
    simp only [hrun]
  | error stop m' =>
    rw [Machine.enter] at hrun
    simp only [hrun]
    cases stop <;> rfl

/-- Printing leaves the line in the log and on the sink, also if the sink then fails. -/
theorem outcome_print (keyword : Token) (line : String) (m : Machine) :
    (print keyword line).outcome m =
      (match (m.sink.writeLine line).2 with
        | none => .done ()
        | some reason =>
          .failed (.atToken keyword (.unwritableOutput reason)), m.printed line) := by
  obtain ⟨scopes, current, heap, input, sink, log⟩ := m
  simp only [outcome, print, Machine.printed]
  cases sink.writeLine line with
  | mk sink reason => cases reason <;> rfl

/-- Reading a line takes it from the input. -/
theorem outcome_readLine (m : Machine) :
    readLine.outcome m = (.done (Input.nextLine m.input).1,
      { m with input := (Input.nextLine m.input).2 }) :=
  rfl

end Run

/-! ## Sources -/

/-- What a run's outcome is for the host. -/
def Outcome.ending {α : Type} : Outcome α → Ending
  | done _ => .completed
  | failed error => .stopped error
  | unfinished => .unfinished

/-- Running a source that is accepted is running its program. -/
theorem Machine.runSource_of_ok {source : String} {p : Program}
    (hp : Program.ofSource source = .ok p) (fuel : Nat) (m : Machine) :
    m.runSource fuel source = (((p.run fuel).outcome m).1.ending, ((p.run fuel).outcome m).2) := by
  simp only [Machine.runSource, hp]
  generalize (p.run fuel).outcome m = outcome
  obtain ⟨outcome, m'⟩ := outcome
  cases outcome <;> rfl

end Treewalk
