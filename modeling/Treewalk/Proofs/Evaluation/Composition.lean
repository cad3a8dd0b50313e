import Treewalk.Evaluation

/-!
# What holds of everything that a program does

Evaluation is put together from a few runs that touch a machine. A property of runs is
*compositional* if these have it and if whatever is put together from runs that have it has it too.
Then every expression and every statement has it, and every call (`Compositional.evaluate`,
`Compositional.execute`, `Compositional.invoke`). The induction over the fuel and the cases of the
trees are here, once for all properties.

Expressions declare nothing, print nothing and open no scope but by calling functions. So a property
that calls have is *expressive* if it only has what the other expressions are put together from, and
all expressions have it (`Expressive.evaluate`).

That the sink refuses a line is a fault of printing alone. No other run has a fault of this kind,
and a property need not hold of runs that have (`RuntimeFault.ofSink`).
-/

namespace Treewalk

/-! ## Faults of the sink -/

/-- Is it the sink that has failed? -/
def RuntimeFault.ofSink : RuntimeFault → Bool
  | unwritableOutput _ => true
  | _ => false

/-- Does a run end early because the sink has failed? -/
def Stop.ofSink : Stop → Bool
  | fault error => error.fault.ofSink
  | outOfFuel => false

/-- Operators have nothing to do with the sink. -/
theorem UnaryOp.ofSink_apply {op : UnaryOp} {v : Value} {fault : RuntimeFault}
    (h : op.apply v = .error fault) : fault.ofSink = false := by
  unfold UnaryOp.apply at h
  split at h <;> cases h
  rfl

/-- An operator between two values has no fault of the sink. -/
theorem BinaryOp.ofSink_apply {op : BinaryOp} {heap : Heap} {v w : Value} {fault : RuntimeFault}
    (h : op.apply heap v w = .error fault) : fault.ofSink = false := by
  unfold BinaryOp.apply at h
  split at h <;> cases h <;> rfl

/-- Looking for the slot of an element has no fault of the sink. -/
theorem Heap.ofSink_slot {heap : Heap} {object index : Value} {fault : RuntimeFault}
    (h : heap.slot object index = .error fault) : fault.ofSink = false := by
  unfold Heap.slot at h
  split at h
  · split at h
    · split at h <;> cases h
      rfl
    · cases h
      rfl
  · cases h
    rfl

/-- What the content of a line stands for is no matter of the sink. -/
theorem Input.ofSink_value {kind : ReadKind} {content : List Char} {fault : RuntimeFault}
    (h : Input.value kind content = .error fault) : fault.ofSink = false := by
  unfold Input.value at h
  split at h
  · cases h
  · split at h <;> cases h
    rfl
  · dsimp only at h
    split at h
    · cases h
    · split at h <;> cases h
      rfl

/-- What a line stands for is no matter of the sink, not even at the end of the input. -/
theorem Input.ofSink_valueOfLine {kind : ReadKind} {line : List UInt8} {fault : RuntimeFault}
    (h : Input.valueOfLine kind line = .error fault) : fault.ofSink = false := by
  unfold Input.valueOfLine at h
  split at h
  · cases h
    rfl
  · split at h
    · cases h
      rfl
    · exact ofSink_value h

/-! ## Parts of evaluation -/

/-- What a function does in the scope that is made for a call. -/
def Closure.frame (step : Stmt → Run Flow) (f : Closure) (args : List Value) : Run Value := do
  bindAll f.params args
  match ← inOrder step f.body with
  | .normal => pure .null
  | .result value => pure value

/-- A call is a run of the frame of the function in a new scope, which the global one encloses. -/
theorem Closure.invoke_eq (step : Stmt → Run Flow) (f : Closure) (args : List Value) :
    f.invoke step args = Run.inNewScope Machine.globals (f.frame step args) := rfl

namespace Run

/-- Runs in a new scope inside of the current one. -/
def inBlock {α : Type} (run : Run α) : Run α := do
  let current ← query Machine.current
  inNewScope current run

/-- A property that all runs have which expressions are put together from, calls of functions
    aside. -/
structure Expressive (Q : (α : Type) → Run α → Prop) : Prop where
  pure {α : Type} (a : α) : Q α (Pure.pure a)
  bind {α β : Type} {run : Run α} {next : α → Run β} (hrun : Q α run) (hnext : ∀ a, Q β (next a)) :
    Q β (run >>= next)
  stop {α : Type} (reason : Stop) (hreason : reason.ofSink = false) : Q α (throw reason)
  query {α : Type} (f : Machine → α) : Q α (Run.query f)
  onHeap {α : Type} (span : Span) {f : Heap → Except RuntimeFault α}
    (hf : ∀ {h fault}, f h = .error fault → fault.ofSink = false) : Q α (Run.onHeap span f)
  newArray (elements : Array Value) : Q Value (allocate (·.newArray elements))
  store (slot : Slot) (value : Value) : Q Unit (Run.store slot value)
  lookup (name : Token) : Q Value (Run.lookup name)
  assign (name : Token) (value : Value) : Q Unit (Run.assign name value)

/-- A property that all runs have which evaluation is put together from. -/
structure Compositional (Q : (α : Type) → Run α → Prop) : Prop extends Expressive Q where
  newFunction (name : Token) (params : List Token) (body : List Stmt) :
    Q Value (allocate (·.newFunction name params body))
  declare (name : String) (value : Value) : Q Unit (Run.declare name value)
  inBlock {α : Type} {run : Run α} (hrun : Q α run) : Q α run.inBlock
  inFrame {α : Type} {run : Run α} (hrun : Q α run) : Q α (inNewScope Machine.globals run)
  print {fuel : Nat} (keyword : Token) {e : Expr} (he : Q Value (evaluate fuel e)) :
    Q Flow (execute (fuel + 1) (.print keyword e))
  read {fuel : Nat} (kind : ReadKind) (keyword : Token) (target : Expr) :
    Q Flow (execute (fuel + 1) (.read kind keyword target))

namespace Expressive

variable {Q : (α : Type) → Run α → Prop} {α β : Type}

/-- A fault that is not one of the sink may stop the run. -/
theorem fail (h : Expressive Q) (error : RuntimeError) (herror : error.fault.ofSink = false) :
    Q α (Run.fail error) := h.stop _ herror

/-- A run may be stopped by a computation whose faults are none of the sink. -/
theorem orFail (h : Expressive Q) (span : Span) {outcome : Except RuntimeFault α}
    (houtcome : ∀ {fault}, outcome = .error fault → fault.ofSink = false) :
    Q α (Run.orFail span outcome) := by
  cases outcome with
  | ok a => exact h.pure a
  | error fault => exact h.fail ⟨fault, span⟩ (houtcome rfl)

/-- What each of some runs has, the runs one behind the other have. -/
theorem mapM (h : Expressive Q) {step : α → Run β} (hstep : ∀ a, Q β (step a)) (as : List α) :
    Q (List β) (as.mapM step) := by
  induction as with
  | nil =>
    rw [List.mapM_nil]
    exact h.pure []
  | cons a as ih =>
    rw [List.mapM_cons]
    exact h.bind (hstep a) fun b => h.bind ih fun bs => h.pure (b :: bs)

/-- Whatever is called, the call has the property if all functions do. -/
theorem call (h : Expressive Q) {step : Stmt → Run Flow}
    (hinvoke : ∀ (f : Closure) args, Q Value (f.invoke step args))
    (callee : Value) (args : List Value) (paren : Token) :
    Q Value (call step callee args paren) := by
  cases callee with
  | function f =>
    rw [Treewalk.call]
    split
    · exact hinvoke f args
    · exact h.fail _ rfl
  | _ => exact h.fail _ rfl

/-- A read statement has what taking a line has. -/
theorem read (h : Expressive Q) (hline : Q (List UInt8) Run.readLine) {fuel : Nat} (kind : ReadKind)
    (keyword : Token) (target : Expr) :
    Q Flow (execute (fuel + 1) (.read kind keyword target)) := by
  have hread : Q Unit (readInto kind keyword target) := by
    cases target with
    | name token =>
      apply h.bind hline
      intro line
      exact h.bind (h.orFail keyword.span Input.ofSink_valueOfLine) fun value =>
        h.assign token value
    | _ => exact h.fail _ rfl
  rw [execute]
  exact h.bind hread fun _ => h.pure Flow.normal

/-- With fuel for one more level, an expression has what expressions and calls have with less. -/
theorem evaluate_succ (h : Expressive Q) {fuel : Nat} (hevaluate : ∀ e, Q Value (evaluate fuel e))
    (hinvoke : ∀ (f : Closure) args, Q Value (f.invoke (execute fuel) args)) (e : Expr) :
    Q Value (evaluate (fuel + 1) e) := by
  -- Each form of expression is put together from the runs that its equation names, in the order in
  -- which they are evaluated there.
  cases e with
  | literal value =>
    rw [Treewalk.evaluate]
    exact h.pure _
  | group inner =>
    rw [Treewalk.evaluate]
    exact hevaluate inner
  | unary op operand span =>
    rw [Treewalk.evaluate]
    exact h.bind (hevaluate operand) fun value => h.orFail span op.ofSink_apply
  | binary op left right span =>
    rw [Treewalk.evaluate]
    exact h.bind (hevaluate left) fun _ => h.bind (hevaluate right) fun _ =>
      h.onHeap span op.ofSink_apply
  | logical op left right =>
    rw [Treewalk.evaluate]
    apply h.bind (hevaluate left)
    intro value
    -- Whether the right operand is evaluated depends on the left one, so both ways have to have it.
    split
    · exact h.pure value
    · exact hevaluate right
  | assign token value =>
    rw [Treewalk.evaluate]
    exact h.bind (hevaluate value) fun v => h.bind (h.assign token v) fun _ => h.pure v
  | name token =>
    rw [Treewalk.evaluate]
    exact h.lookup token
  | call callee args paren =>
    rw [Treewalk.evaluate]
    apply h.bind (hevaluate callee)
    intro f
    apply h.bind (h.mapM hevaluate args)
    intro values
    exact h.call hinvoke f values paren
  | array elements =>
    rw [Treewalk.evaluate]
    exact h.bind (h.mapM hevaluate elements) fun values => h.newArray values.toArray
  | index object position bracket =>
    rw [Treewalk.evaluate]
    apply h.bind (hevaluate object)
    intro _
    apply h.bind (hevaluate position)
    intro _
    exact h.bind (h.onHeap bracket.span Heap.ofSink_slot) fun slot => h.query _
  | indexAssign object position value bracket =>
    rw [Treewalk.evaluate]
    apply h.bind (hevaluate object)
    intro _
    apply h.bind (hevaluate position)
    intro _
    -- The slot is looked for before the value is evaluated, and stored at only after.
    apply h.bind (h.onHeap bracket.span Heap.ofSink_slot)
    intro slot
    apply h.bind (hevaluate value)
    intro v
    exact h.bind (h.store slot v) fun _ => h.pure v

/-- Expressions have what the runs have that they are put together from, if calls have it. -/
theorem evaluate (h : Expressive Q)
    (hinvoke : ∀ fuel (f : Closure) args, Q Value (f.invoke (execute fuel) args)) (fuel : Nat) :
    ∀ e, Q Value (evaluate fuel e) := by
  induction fuel with
  | zero =>
    intro e
    rw [Treewalk.evaluate]
    exact h.stop .outOfFuel rfl
  | succ fuel ih => exact h.evaluate_succ ih (hinvoke fuel)

end Expressive

namespace Compositional

variable {Q : (α : Type) → Run α → Prop}

/-- Binding parameters is declaring them one after the other. -/
theorem bindAll (h : Compositional Q) (params : List Token) (args : List Value) :
    Q Unit (bindAll params args) := by
  induction params generalizing args with
  | nil => exact h.pure ()
  | cons param params ih =>
    cases args with
    | nil => exact h.pure ()
    | cons arg args => exact h.bind (h.declare param.lexeme arg) fun _ => ih args

/-- A list of statements has the property if all of its statements do. -/
theorem inOrder (h : Compositional Q) {step : Stmt → Run Flow} (hstep : ∀ s, Q Flow (step s))
    (body : List Stmt) : Q Flow (inOrder step body) := by
  induction body with
  | nil => exact h.pure Flow.normal
  | cons s body ih =>
    apply h.bind (hstep s)
    intro flow
    cases flow with
    | normal => exact ih
    | result value => exact h.pure (Flow.result value)

/-- What happens inside of a call has the property if all statements do. -/
theorem frame (h : Compositional Q) {step : Stmt → Run Flow} (hstep : ∀ s, Q Flow (step s))
    (f : Closure) (args : List Value) : Q Value (f.frame step args) := by
  apply h.bind (h.bindAll f.params args)
  intro _
  apply h.bind (h.inOrder hstep f.body)
  intro flow
  cases flow with
  | normal => exact h.pure Value.null
  | result value => exact h.pure value

/-- A call has what the statements of the body have. -/
theorem invoke (h : Compositional Q) {step : Stmt → Run Flow} (hstep : ∀ s, Q Flow (step s))
    (f : Closure) (args : List Value) : Q Value (f.invoke step args) := by
  rw [Closure.invoke_eq]
  exact h.inFrame (h.frame hstep f args)

/-- An expression that may be missing has the property if expressions do. -/
theorem evaluateOr (h : Compositional Q) {step : Expr → Run Value} (hstep : ∀ e, Q Value (step e))
    (e? : Option Expr) : Q Value (evaluateOr step e?) := by
  cases e? with
  | none => exact h.pure Value.null
  | some e => exact hstep e

/-- With fuel for one more level, a statement has what expressions and statements have with less. -/
theorem execute_succ (h : Compositional Q) {fuel : Nat} (hevaluate : ∀ e, Q Value (evaluate fuel e))
    (hexecute : ∀ s, Q Flow (execute fuel s)) (s : Stmt) : Q Flow (execute (fuel + 1) s) := by
  -- As for expressions, there is one case for each equation. Only these declare, print and open
  -- scopes.
  cases s with
  | expression value =>
    rw [Treewalk.execute]
    exact h.bind (hevaluate value) fun _ => h.pure Flow.normal
  | print keyword value => exact h.print keyword (hevaluate value)
  | declare token init =>
    rw [Treewalk.execute]
    apply h.bind (h.evaluateOr hevaluate init)
    intro value
    exact h.bind (h.declare token.lexeme value) fun _ => h.pure Flow.normal
  | block body =>
    rw [Treewalk.execute]
    exact h.inBlock (h.inOrder hexecute body)
  | ifThen condition consequent =>
    rw [Treewalk.execute]
    apply h.bind (hevaluate condition)
    intro value
    split
    · exact hexecute consequent
    · exact h.pure Flow.normal
  | ifThenElse condition consequent alternative =>
    rw [Treewalk.execute]
    apply h.bind (hevaluate condition)
    intro value
    split
    · exact hexecute consequent
    · exact hexecute alternative
  | loop condition body =>
    rw [Treewalk.execute]
    apply h.bind (hevaluate condition)
    intro value
    split
    · apply h.bind (hexecute body)
      intro flow
      -- After a turn that ends normally, the next one is the same statement with less fuel.
      cases flow with
      | normal => exact hexecute (.loop condition body)
      | result value => exact h.pure (Flow.result value)
    · exact h.pure Flow.normal
  | function token params body =>
    rw [Treewalk.execute]
    apply h.bind (h.newFunction token params body)
    intro value
    exact h.bind (h.declare token.lexeme value) fun _ => h.pure Flow.normal
  | result keyword value =>
    rw [Treewalk.execute]
    exact h.bind (h.evaluateOr hevaluate value) fun v => h.pure (Flow.result v)
  | read kind keyword target => exact h.read kind keyword target

/-- Whatever evaluation is put together from has, all evaluation has. -/
theorem evaluate_execute (h : Compositional Q) (fuel : Nat) :
    (∀ e, Q Value (evaluate fuel e)) ∧ ∀ s, Q Flow (execute fuel s) := by
  induction fuel with
  | zero =>
    constructor
    · intro e
      rw [Treewalk.evaluate]
      exact h.stop .outOfFuel rfl
    · intro s
      rw [Treewalk.execute]
      exact h.stop .outOfFuel rfl
  | succ fuel ih => exact ⟨h.evaluate_succ ih.1 (h.invoke ih.2), h.execute_succ ih.1 ih.2⟩

/-- All expressions have a compositional property. -/
theorem evaluate (h : Compositional Q) (fuel : Nat) (e : Expr) : Q Value (evaluate fuel e) :=
  (h.evaluate_execute fuel).1 e

/-- All statements have a compositional property. -/
theorem execute (h : Compositional Q) (fuel : Nat) (s : Stmt) : Q Flow (execute fuel s) :=
  (h.evaluate_execute fuel).2 s

end Compositional

end Run

end Treewalk
