import Treewalk.Proofs.Machine.Outcome
import Treewalk.Proofs.Scope.Alike

/-!
# Machines and runs side by side

Two machines are *alike* if what belongs together in them is alike; the current scopes are not part
of that. Two runs are alike if from alike machines, with current scopes that belong together, they
end the same way and leave alike machines. Every primitive run is alike to itself, and runs that are
put together from alike runs are alike.

A run in a new scope does not depend on the current scope, but only on the scope that the new one is
put into (`Run.Alike.enter`).
-/

namespace Treewalk

/-- Machines on which what belongs together is alike, wherever they are. -/
structure Machine.Alike (l : Link) (m m' : Machine) : Prop where
  scopes : m.scopes.Alike l m'.scopes
  heap : m.heap.Alike l m'.heap
  input : m.input = m'.input
  sink : m.sink = m'.sink
  log : m.log = m'.log

/-- Endings with related values or with the same fault at places that count as the same. -/
inductive Outcome.Alike {α β : Type} (l : Link) (r : α → β → Prop) :
    Outcome α → Outcome β → Prop where
  | done {a : α} {b : β} (h : r a b) : Alike l r (.done a) (.done b)
  | failed (fault : RuntimeFault) {span span' : Span} (h : l.trees.span span span') :
      Alike l r (.failed ⟨fault, span⟩) (.failed ⟨fault, span'⟩)
  | unfinished : Alike l r .unfinished .unfinished

/-- Runs that do the same on alike machines. -/
def Run.Alike {α β : Type} (l : Link) (r : α → β → Prop) (run : Run α) (run' : Run β) : Prop :=
  ∀ m m' : Machine, m.Alike l m' → l.scopes.Rel m.current m'.current →
    (run.outcome m).1.Alike l r (run'.outcome m').1 ∧
      (run.outcome m).2.Alike l (run'.outcome m').2 ∧
      l.scopes.Rel (run.outcome m).2.current (run'.outcome m').2.current

namespace Machine.Alike

variable {l : Link} {m m' : Machine}

/-- Other scopes that are alike keep machines alike. -/
theorem withScopes (h : m.Alike l m') {scopes scopes' : Forest} (hscopes : scopes.Alike l scopes') :
    Alike l { m with scopes } { m' with scopes := scopes' } :=
  ⟨hscopes, h.heap, h.input, h.sink, h.log⟩

/-- Other heaps that are alike keep machines alike. -/
theorem withHeap (h : m.Alike l m') {heap heap' : Heap} (hheap : heap.Alike l heap') :
    Alike l { m with heap } { m' with heap := heap' } :=
  ⟨h.scopes, hheap, h.input, h.sink, h.log⟩

/-- The same line printed keeps machines alike. -/
theorem printed (h : m.Alike l m') (line : String) :
    (m.printed line).Alike l (m'.printed line) := by
  rw [Machine.printed, Machine.printed, h.sink, h.log]
  split
  · exact ⟨h.scopes, h.heap, h.input, rfl, rfl⟩
  · exact ⟨h.scopes, h.heap, h.input, rfl, rfl⟩

/-- A machine is alike to itself if both runs count on from where it is, and its functions are the
    same ones. -/
theorem refl {m : Machine} (hscopes : l.scopes = .same m.scopes.size)
    (hfunctions : l.functions = .same m.heap.functions)
    (hclosure : ∀ f : Closure, f.Alike l f) : m.Alike l m := by
  -- The link relates every scope and every function to itself, so each value is alike to itself.
  have hvalue (v : Value) : v.Alike l v := by
    cases v with
    | function f => exact .function (hfunctions ▸ Shift.rel_same.2 rfl) (hclosure f)
    | _ => constructor
  have hvalue? (v? : Option Value) : Option.Rel (Value.Alike l) v? v? := by
    cases v? with
    | none => exact .none
    | some v => exact .some (hvalue v)
  have hscope {i j : Nat} : l.scopes.Rel i j ↔ i = j := hscopes ▸ Shift.rel_same
  have hsize : l.scopes.left = m.scopes.size ∧ l.scopes.right = m.scopes.size := by
    rw [hscopes]
    exact ⟨rfl, rfl⟩
  have hcount : l.functions.left = m.heap.functions ∧ l.functions.right = m.heap.functions := by
    rw [hfunctions]
    exact ⟨rfl, rfl⟩
  refine ⟨⟨⟨0, hsize.1.symm, hsize.2.symm⟩, ?_, ?_⟩, ⟨?_, 0, hcount.1.symm, hcount.2.symm⟩, rfl,
    rfl, rfl⟩
  · intro i j hij
    obtain rfl := hscope.1 hij
    exact List.forall₂_same.2 fun scope _ => hscope.2 rfl
  · intro i j hij name
    obtain rfl := hscope.1 hij
    exact hvalue? _
  · intro ref
    cases m.heap.array? ref with
    | none => exact .none
    | some elements => exact .some (List.forall₂_same.2 fun v _ => hvalue v)

end Machine.Alike

namespace Run.Alike

variable {α β γ δ : Type} {l : Link} {r : α → β → Prop} {q : γ → δ → Prop}

/-- Runs that end at once are alike if their values are. -/
theorem pure {a : α} {b : β} (h : r a b) : Run.Alike l r (pure a) (pure b) := by
  intro m m' hm hcurrent
  rw [outcome_pure, outcome_pure]
  exact ⟨.done h, hm, hcurrent⟩

/-- Runs that fail at once are alike if they have the same fault, at places that count as the
    same. -/
theorem fail (fault : RuntimeFault) {span span' : Span} (h : l.trees.span span span') :
    Run.Alike l r (Run.fail ⟨fault, span⟩) (Run.fail ⟨fault, span'⟩) := by
  intro m m' hm hcurrent
  rw [outcome_fail, outcome_fail]
  exact ⟨.failed fault h, hm, hcurrent⟩

/-- Runs that fail at tokens are alike if the tokens count as the same. -/
theorem failAt (fault : RuntimeFault) {t t' : Token} (h : l.trees.token t t') :
    Run.Alike l r (Run.fail (.atToken t fault)) (Run.fail (.atToken t' fault)) :=
  fail fault (l.trees.span_of_token h)

/-- Running out of fuel is alike wherever it happens. -/
theorem outOfFuel : Run.Alike l r (throw .outOfFuel) (throw .outOfFuel) := by
  intro m m' hm hcurrent
  rw [outcome_outOfFuel, outcome_outOfFuel]
  exact ⟨.unfinished, hm, hcurrent⟩

/-- Alike runs that are followed by alike runs are alike. -/
theorem bind {run : Run α} {run' : Run β} {next : α → Run γ} {next' : β → Run δ}
    (hrun : Run.Alike l r run run') (hnext : ∀ {a b}, r a b → Run.Alike l q (next a) (next' b)) :
    Run.Alike l q (run >>= next) (run' >>= next') := by
  intro m m' hm hcurrent
  obtain ⟨houtcome, hmachine, hcurrent'⟩ := hrun m m' hm hcurrent
  rw [outcome_bind, outcome_bind]
  generalize run.outcome m = ending, run'.outcome m' = ending' at *
  obtain ⟨outcome, n⟩ := ending
  obtain ⟨outcome', n'⟩ := ending'
  cases houtcome with
  | done h => exact hnext h n n' hmachine hcurrent'
  | failed fault h => exact ⟨.failed fault h, hmachine, hcurrent'⟩
  | unfinished => exact ⟨.unfinished, hmachine, hcurrent'⟩

/-- Results that may be a fault make alike runs of it. -/
theorem orFail {a : Except RuntimeFault α} {b : Except RuntimeFault β} (h : Except.Rel r a b)
    {span span' : Span} (hspan : l.trees.span span span') :
    Run.Alike l r (Run.orFail span a) (Run.orFail span' b) := by
  cases h with
  | ok h => exact pure h
  | error fault => exact fail fault hspan

/-- What holds of every value that the one run ends with holds of it in both runs. -/
theorem and {run : Run α} {run' : Run β} {p : α → Prop} (h : Run.Alike l r run run')
    (hp : ∀ {m m' : Machine} {a : α}, run.outcome m = (.done a, m') → p a) :
    Run.Alike l (fun a b => r a b ∧ p a) run run' := by
  intro m m' hm hcurrent
  obtain ⟨houtcome, hmachine, hcurrent'⟩ := h m m' hm hcurrent
  refine ⟨?_, hmachine, hcurrent'⟩
  generalize hout : run.outcome m = ending, run'.outcome m' = ending' at *
  obtain ⟨outcome, n⟩ := ending
  obtain ⟨outcome', n'⟩ := ending'
  cases houtcome with
  | done h => exact .done ⟨h, hp hout⟩
  | failed fault h => exact .failed fault h
  | unfinished => exact .unfinished

/-! ## Primitive runs -/

/-- Runs that only ask for something are alike if the answers are. -/
theorem query {f : Machine → α} {g : Machine → β}
    (h : ∀ {m m'}, m.Alike l m' → l.scopes.Rel m.current m'.current → r (f m) (g m')) :
    Run.Alike l r (Run.query f) (Run.query g) := by
  intro m m' hm hcurrent
  rw [outcome_query, outcome_query]
  exact ⟨.done (h hm hcurrent), hm, hcurrent⟩

/-- Runs that only look at the heap are alike if what they find there is. -/
theorem onHeap {f : Heap → Except RuntimeFault α} {g : Heap → Except RuntimeFault β}
    {span span' : Span}
    (hspan : l.trees.span span span') (h : ∀ {h h' : Heap}, h.Alike l h' →
      Except.Rel r (f h) (g h')) : Run.Alike l r (Run.onHeap span f) (Run.onHeap span' g) := by
  intro m m' hm hcurrent
  rw [outcome_onHeap, outcome_onHeap]
  have hvalue := h hm.heap
  generalize f m.heap = a, g m'.heap = b at hvalue
  cases hvalue with
  | ok h => exact ⟨.done h, hm, hcurrent⟩
  | error fault => exact ⟨.failed fault hspan, hm, hcurrent⟩

/-- Runs that allocate are alike if the new values are, and the heaps with them. -/
theorem allocate {f : Heap → α × Heap} {g : Heap → β × Heap}
    (h : ∀ {h h' : Heap}, h.Alike l h' → r (f h).1 (g h').1 ∧ (f h).2.Alike l (g h').2) :
    Run.Alike l r (Run.allocate f) (Run.allocate g) := by
  intro m m' hm hcurrent
  obtain ⟨hvalue, hheap⟩ := h hm.heap
  rw [outcome_allocate, outcome_allocate]
  exact ⟨.done hvalue, hm.withHeap hheap, hcurrent⟩

/-- Alike values stored at one slot leave alike heaps. -/
theorem store (slot : Slot) {v w : Value} (h : v.Alike l w) :
    Run.Alike l (fun _ _ => True) (Run.store slot v) (Run.store slot w) := by
  intro m m' hm hcurrent
  rw [outcome_store, outcome_store]
  exact ⟨.done trivial, hm.withHeap (hm.heap.store slot h), hcurrent⟩

/-- A name is looked up with alike values, or fails in both runs. -/
theorem lookup {t t' : Token} (h : l.trees.token t t') :
    Run.Alike l (Value.Alike l) (Run.lookup t) (Run.lookup t') := by
  intro m m' hm hcurrent
  have hvalue := hm.scopes.get? hcurrent t.lexeme
  rw [outcome_lookup, outcome_lookup, Forest.undefinedName, Forest.undefinedName,
    ← l.trees.lexeme_eq h]
  generalize m.scopes.get? m.current t.lexeme = v?, m'.scopes.get? m'.current t.lexeme =
    w? at hvalue
  cases hvalue with
  | some h => exact ⟨.done h, hm, hcurrent⟩
  | none => exact ⟨.failed _ (l.trees.span_of_token h), hm, hcurrent⟩

/-- A variable declared in scopes that belong together keeps machines alike. -/
theorem declare (name : String) {v w : Value} (h : v.Alike l w) :
    Run.Alike l (fun _ _ => True) (Run.declare name v) (Run.declare name w) := by
  intro m m' hm hcurrent
  rw [outcome_declare, outcome_declare]
  exact ⟨.done trivial, hm.withScopes (hm.scopes.declare hcurrent name h), hcurrent⟩

/-- A name is assigned to in scopes that belong together, or in none on either side. -/
theorem assign {t t' : Token} (h : l.trees.token t t') {v w : Value} (hvalue : v.Alike l w) :
    Run.Alike l (fun _ _ => True) (Run.assign t v) (Run.assign t' w) := by
  intro m m' hm hcurrent
  have howner := hm.scopes.owner? hcurrent t.lexeme
  rw [outcome_assign, outcome_assign, Forest.undefinedName, Forest.undefinedName,
    ← l.trees.lexeme_eq h]
  generalize m.scopes.owner? m.current t.lexeme = i?, m'.scopes.owner? m'.current t.lexeme =
    j? at howner
  cases howner with
  | some hscope =>
    exact ⟨.done trivial, hm.withScopes (hm.scopes.declare hscope t.lexeme hvalue), hcurrent⟩
  | none => exact ⟨.failed _ (l.trees.span_of_token h), hm, hcurrent⟩

/-- The same line is written to the same sink, with the same end. -/
theorem print {t t' : Token} (h : l.trees.token t t') (line : String) :
    Run.Alike l (fun _ _ => True) (Run.print t line) (Run.print t' line) := by
  intro m m' hm hcurrent
  have hplace (m : Machine) : (m.printed line).current = m.current := by
    rw [Machine.printed]
    split <;> rfl
  rw [outcome_print, outcome_print, hplace, hplace, hm.sink]
  refine ⟨?_, hm.printed line, hcurrent⟩
  cases (m'.sink.writeLine line).2 with
  | none => exact .done trivial
  | some reason => exact .failed _ (l.trees.span_of_token h)

/-- The same line is read from the same input. -/
theorem readLine : Run.Alike l Eq Run.readLine Run.readLine := by
  intro m m' hm hcurrent
  rw [outcome_readLine, outcome_readLine, hm.input]
  exact ⟨.done rfl, ⟨hm.scopes, hm.heap, rfl, hm.sink, hm.log⟩, hcurrent⟩

/-! ## New scopes -/

/-- In new scopes inside of scopes that belong together, alike runs do the same, whatever the
    current scopes are. -/
theorem enter {run : Run α} {run' : Run β} (hrun : Run.Alike l r run run') {i j : Nat}
    (hij : l.scopes.Rel i j) {m m' : Machine} (hm : m.Alike l m') :
    ((inNewScope i run).outcome m).1.Alike l r ((inNewScope j run').outcome m').1 ∧
      ((inNewScope i run).outcome m).2.Alike l ((inNewScope j run').outcome m').2 := by
  have hentered : (m.enter i).Alike l (m'.enter j) :=
    ⟨hm.scopes.push hij, hm.heap, hm.input, hm.sink, hm.log⟩
  obtain ⟨houtcome, hleft, -⟩ := hrun _ _ hentered hm.scopes.rel_size
  rw [outcome_inNewScope, outcome_inNewScope]
  -- What either run has made meanwhile is given up again.
  exact ⟨houtcome, hleft.scopes.keep hm.scopes, hleft.heap, hleft.input, hleft.sink, hleft.log⟩

/-- Alike runs in new scopes are alike, if the scopes around them belong together. -/
theorem inNewScope {run : Run α} {run' : Run β} (hrun : Run.Alike l r run run') {i j : Nat}
    (hij : l.scopes.Rel i j) : Run.Alike l r (Run.inNewScope i run) (Run.inNewScope j run') := by
  intro m m' hm hcurrent
  obtain ⟨houtcome, hleft⟩ := hrun.enter hij hm
  refine ⟨houtcome, hleft, ?_⟩
  rw [outcome_inNewScope, outcome_inNewScope]
  exact hcurrent

end Run.Alike

end Treewalk
