import Treewalk.Proofs.Evaluation.Trace

/-!
# Single steps, and read statements among them

The *steps* of a run are the single things that it does, in order, each from a machine to the next
one. A read statement is one step, although it takes a line, makes a value of it and assigns that.
No other step takes anything from the input.

All evaluation has steps, on every machine (`Run.compositional_steps`).
-/

namespace Treewalk

namespace Run

variable {α β : Type}

/-- A read statement that has been carried out, and how it has ended. -/
structure Reading where
  kind : ReadKind
  keyword : Token
  target : Expr
  outcome : Outcome Flow

/-- A single thing that has been done to a machine, and the read statement that it was, if it was
    one. -/
structure Step where
  before : Machine
  reading? : Option Reading
  after : Machine

/-- Does the run take nothing from the input, whatever the machine? -/
def KeepsInput (run : Run α) : Prop := ∀ m, (run.outcome m).2.input = m.input

/-- What the run does when it starts on a machine. Runs in other scopes begin and end with a
    step. -/
inductive Steps : {α : Type} → Run α → Machine → List Step → Prop where
  | single {α : Type} {run : Run α} (hrun : run.Primitive) (hinput : run.KeepsInput) (m : Machine) :
      Steps run m [⟨m, none, (run.outcome m).2⟩]
  | read {fuel : Nat} (kind : ReadKind) (keyword : Token) (target : Expr) {m m' : Machine}
      {outcome : Outcome Flow}
      (hread : (execute (fuel + 1) (.read kind keyword target)).outcome m = (outcome, m')) :
      Steps (execute (fuel + 1) (.read kind keyword target)) m
        [⟨m, some ⟨kind, keyword, target, outcome⟩, m'⟩]
  | next {α β : Type} {run : Run α} {next : α → Run β} {m m' : Machine} {a : α}
      {steps later : List Step}
      (hrun : Steps run m steps) (hdone : run.outcome m = (.done a, m'))
      (hnext : Steps (next a) m' later) :
      Steps (run >>= next) m (steps ++ later)
  | stopped {α β : Type} {run : Run α} {next : α → Run β} {m : Machine} {steps : List Step}
      (hrun : Steps run m steps) (hstopped : ∀ a, (run.outcome m).1 ≠ .done a) :
      Steps (run >>= next) m steps
  | inScope {α : Type} {run : Run α} {m : Machine} {scope : Nat} {steps : List Step}
      (hrun : Steps run { m with current := scope } steps) :
      Steps (inScope scope run) m
        (⟨m, none, { m with current := scope }⟩ :: steps ++
          [⟨(run.outcome { m with current := scope }).2, none, ((inScope scope run).outcome m).2⟩])
  | inNewScope {α : Type} {run : Run α} {m : Machine} {enclosing : Nat} {steps : List Step}
      (hrun : Steps run (m.enter enclosing) steps) :
      Steps (inNewScope enclosing run) m
        (⟨m, none, m.enter enclosing⟩ :: steps ++
          [⟨(run.outcome (m.enter enclosing)).2, none, ((inNewScope enclosing run).outcome m).2⟩])

/-- What is said about a step is so: a read statement has been carried out that has ended like this,
    or nothing has been taken from the input. -/
inductive Step.Sound : Step → Prop where
  | read {fuel : Nat} {kind : ReadKind} {keyword : Token} {target : Expr} {m m' : Machine}
      {outcome : Outcome Flow}
      (hread : (execute (fuel + 1) (.read kind keyword target)).outcome m = (outcome, m')) :
      Sound ⟨m, some ⟨kind, keyword, target, outcome⟩, m'⟩
  | other {m m' : Machine} (hinput : m'.input = m.input) : Sound ⟨m, none, m'⟩

/-! ## All evaluation has steps -/

/-- A run has its steps if both parts of it have theirs on every machine. -/
theorem exists_steps_bind {run : Run α} {next : α → Run β} (hrun : ∀ m, ∃ steps, Steps run m steps)
    (hnext : ∀ a m, ∃ steps, Steps (next a) m steps) (m : Machine) :
    ∃ steps, Steps (run >>= next) m steps := by
  obtain ⟨steps, hsteps⟩ := hrun m
  cases hout : run.outcome m with
  | mk outcome m' =>
    cases outcome with
    | done a =>
      obtain ⟨later, hlater⟩ := hnext a m'
      exact ⟨_, .next hsteps hout hlater⟩
    | failed error => exact ⟨_, .stopped hsteps fun a h => by rw [hout] at h; cases h⟩
    | unfinished => exact ⟨_, .stopped hsteps fun a h => by rw [hout] at h; cases h⟩

/-- What expressions are put together from has steps. -/
theorem expressive_steps : Expressive fun _ run => ∀ m, ∃ steps, Steps run m steps where
  -- Every run that expressions are put together from is a single step, and none takes from the
  -- input.
  pure a m := ⟨_, .single (.pure a) (fun _ => rfl) m⟩
  bind := exists_steps_bind
  stop reason _ m := by
    refine ⟨_, .single (.stop reason) (fun m => ?_) m⟩
    cases reason <;> rfl
  query f m := ⟨_, .single (.query f) (fun _ => rfl) m⟩
  onHeap span f _ m := by
    refine ⟨_, .single (.onHeap span f) (fun m => ?_) m⟩
    rw [outcome_onHeap]
    split <;> rfl
  newArray _ m := ⟨_, .single (.allocate _) (fun _ => rfl) m⟩
  store slot value m := ⟨_, .single (.store slot value) (fun _ => rfl) m⟩
  lookup name m := by
    refine ⟨_, .single (.lookup name) (fun m => ?_) m⟩
    rw [outcome_lookup]
    split <;> rfl
  assign name value m := by
    refine ⟨_, .single (.assign name value) (fun m => ?_) m⟩
    rw [outcome_assign]
    split <;> rfl

/-- Printing takes nothing from the input. -/
theorem keepsInput_print (keyword : Token) (line : String) : (print keyword line).KeepsInput :=
  fun m => by
  rw [outcome_print, Machine.printed]
  dsimp only
  split <;> rfl

/-- All evaluation has steps, whatever the machine. -/
theorem compositional_steps : Compositional fun _ run => ∀ m, ∃ steps, Steps run m steps where
  toExpressive := expressive_steps
  newFunction name params body m := ⟨_, .single (.allocate _) (fun _ => rfl) m⟩
  declare name value m := ⟨_, .single (.declare name value) (fun _ => rfl) m⟩
  inBlock {_ run} hrun m := by
    -- The current scope is asked for first, and it is still the current one when the new one is
    -- made.
    obtain ⟨later, hlater⟩ := hrun (m.enter m.current)
    exact ⟨_, .next (.single (.query _) (fun _ => rfl) m) (outcome_query _ m) (.inNewScope hlater)⟩
  inFrame hrun m := by
    obtain ⟨steps, hsteps⟩ := hrun (m.enter Machine.globals)
    exact ⟨_, .inNewScope hsteps⟩
  print {fuel} keyword {e} he m := by
    rw [Treewalk.execute]
    refine exists_steps_bind he (fun v => ?_) m
    refine exists_steps_bind (expressive_steps.query _) fun line => ?_
    exact exists_steps_bind (fun m => ⟨_,
      .single (.print keyword line) (keepsInput_print keyword line) m⟩)
      fun _ => expressive_steps.pure _
  read kind keyword target _ := ⟨_, .read kind keyword target rfl⟩

/-! ## From the first machine to the last -/

/-- The steps lead from one machine to another, each on from where the one before it ends. -/
def Linked : List Step → Machine → Machine → Prop
  | [], m, m' => m = m'
  | step :: steps, m, m' => step.before = m ∧ Linked steps step.after m'

/-- Steps that lead to a machine can be followed by steps that start there. -/
theorem Linked.append {steps later : List Step} {m m' m'' : Machine} (h : Linked steps m m')
    (hlater : Linked later m' m'') : Linked (steps ++ later) m m'' := by
  induction steps generalizing m with
  | nil =>
    obtain rfl : m = m' := h
    exact hlater
  | cons step steps ih => exact ⟨h.1, ih h.2⟩

/-- A relation that holds across each step holds across all of them, and up to each of them. -/
theorem Linked.across {R : Machine → Machine → Prop} (hrefl : ∀ m, R m m)
    (htrans : ∀ {m₁ m₂ m₃}, R m₁ m₂ → R m₂ m₃ → R m₁ m₃) {steps : List Step} {m m' : Machine}
    (h : Linked steps m m') (hsteps : ∀ step ∈ steps, R step.before step.after) :
    R m m' ∧ ∀ step ∈ steps, R m step.before ∧ R step.after m' := by
  induction steps generalizing m with
  | nil =>
    obtain rfl : m = m' := h
    exact ⟨hrefl m, fun _ h => nomatch h⟩
  | cons step steps ih =>
    obtain ⟨rfl, hlinked⟩ := h
    obtain ⟨hstep, hothers⟩ := List.forall_mem_cons.1 hsteps
    obtain ⟨hlast, hlater⟩ := ih hlinked hothers
    refine ⟨htrans hstep hlast, List.forall_mem_cons.2 ⟨⟨hrefl _, hlast⟩, fun s hs => ?_⟩⟩
    exact ⟨htrans hstep (hlater s hs).1, (hlater s hs).2⟩

namespace Steps

variable {run : Run α} {m : Machine} {steps : List Step}

/-- The steps of a run lead from the machine that it starts on to the one that it leaves. -/
theorem linked (h : Steps run m steps) : Linked steps m (run.outcome m).2 := by
  -- The machine at the end of the steps is the one that the outcome of the run has.
  induction h with
  | single _ _ m => exact ⟨rfl, rfl⟩
  | read kind keyword target hread =>
    rw [hread]
    exact ⟨rfl, rfl⟩
  | next _ hdone _ ihrun ihnext =>
    rw [hdone] at ihrun
    rw [outcome_bind, hdone]
    exact ihrun.append ihnext
  | stopped _ hstopped ih =>
    rw [outcome_bind_of_stopped hstopped]
    exact ih
  | inScope _ ih => exact ⟨rfl, ih.append ⟨rfl, rfl⟩⟩
  | inNewScope _ ih => exact ⟨rfl, ih.append ⟨rfl, rfl⟩⟩

/-- Each of the steps is sound. -/
theorem sound (h : Steps run m steps) : ∀ step ∈ steps, step.Sound := by
  induction h with
  | single _ hinput m => exact List.forall_mem_singleton.2 (.other (hinput m))
  | read kind keyword target hread => exact List.forall_mem_singleton.2 (.read hread)
  | next _ _ _ ihrun ihnext => exact List.forall_mem_append.2 ⟨ihrun, ihnext⟩
  | stopped _ _ ih => exact ih
  | @inScope _ run m scope _ _ ih =>
    -- Leaving a scope is a step as well, and it leaves the input as the run inside has left it.
    have hlast : ((Run.inScope scope run).outcome m).2.input =
        (run.outcome { m with current := scope }).2.input := by
      rw [outcome_inScope]
    exact List.forall_mem_append.2 ⟨List.forall_mem_cons.2 ⟨.other rfl, ih⟩,
      List.forall_mem_singleton.2 (.other hlast)⟩
  | @inNewScope _ run m enclosing _ _ ih =>
    have hlast : ((Run.inNewScope enclosing run).outcome m).2.input =
        (run.outcome (m.enter enclosing)).2.input := by
      rw [outcome_inNewScope]
      rfl
    exact List.forall_mem_append.2 ⟨List.forall_mem_cons.2 ⟨.other rfl, ih⟩,
      List.forall_mem_singleton.2 (.other hlast)⟩

end Steps

end Run

end Treewalk
