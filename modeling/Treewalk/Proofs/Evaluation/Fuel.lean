import Treewalk.Proofs.Machine.Outcome

/-!
# More fuel changes nothing else

A run *refines to* another one if the other one does the same whenever the first one comes to an
end. With more fuel every evaluation refines to itself (`evaluate_mono`, `execute_mono`): fuel only
decides whether a run comes to an end, and not to which. So a source ends in one way at most, with
any fuel that suffices (`Machine.Ends.unique`), or it diverges.
-/

namespace Treewalk

namespace Run

variable {α β : Type}

/-- If the first run comes to an end, the second one comes to the same end. -/
def RefinesTo (run run' : Run α) : Prop :=
  ∀ m, (run.outcome m).1 ≠ .unfinished → run'.outcome m = run.outcome m

namespace RefinesTo

/-- Every run refines to itself. -/
theorem refl (run : Run α) : run.RefinesTo run := fun _ _ => rfl

/-- A run that never comes to an end refines to any other one. -/
theorem outOfFuel (run : Run α) : RefinesTo (throw .outOfFuel) run := by
  intro m hfinished
  rw [outcome_outOfFuel] at hfinished
  exact absurd rfl hfinished

/-- A run refines to another one if its first part and what follows the first part do. -/
theorem bind {run run' : Run α} {next next' : α → Run β} (hrun : run.RefinesTo run')
    (hnext : ∀ a, (next a).RefinesTo (next' a)) : (run >>= next).RefinesTo (run' >>= next') := by
  intro m hfinished
  have hfirst := hrun m
  rw [outcome_bind] at hfinished ⊢
  rw [outcome_bind]
  cases hout : run.outcome m with
  | mk outcome m' =>
    rw [hout] at hfinished hfirst
    -- If the first part has a value, it has the same with more fuel, and so what follows is
    -- compared on the same machine.
    cases outcome with
    | done a =>
      rw [hfirst nofun]
      exact hnext a m' hfinished
    | failed error => rw [hfirst nofun]
    | unfinished => exact absurd rfl hfinished

/-- Runs in new scopes refine as the runs themselves do. -/
theorem inNewScope {run run' : Run α} (hrun : run.RefinesTo run') (enclosing : Nat) :
    (Run.inNewScope enclosing run).RefinesTo (Run.inNewScope enclosing run') := by
  intro m hfinished
  rw [outcome_inNewScope] at hfinished ⊢
  rw [outcome_inNewScope, hrun _ hfinished]

/-! ## Parts of evaluation -/

/-- Steps that refine one by one do so when they are taken for each element of a list. -/
theorem mapM {step step' : α → Run β} (hstep : ∀ a, (step a).RefinesTo (step' a)) (as : List α) :
    (as.mapM step).RefinesTo (as.mapM step') := by
  induction as with
  | nil =>
    rw [List.mapM_nil, List.mapM_nil]
    exact .refl _
  | cons a as ih =>
    rw [List.mapM_cons, List.mapM_cons]
    exact (hstep a).bind fun _ => ih.bind fun _ => .refl _

variable {step step' : Stmt → Run Flow}

/-- Lists of statements refine if their statements do. -/
theorem inOrder (hstep : ∀ s, (step s).RefinesTo (step' s)) (body : List Stmt) :
    (Treewalk.inOrder step body).RefinesTo (Treewalk.inOrder step' body) := by
  induction body with
  | nil => exact .refl _
  | cons s body ih =>
    apply bind (hstep s)
    intro flow
    cases flow with
    | normal => exact ih
    | result value => exact .refl _

/-- Calls refine if the statements of the function that is called do. -/
theorem call (hstep : ∀ s, (step s).RefinesTo (step' s)) (callee : Value) (args : List Value)
    (paren : Token) :
    (Treewalk.call step callee args paren).RefinesTo (Treewalk.call step' callee args paren) := by
  cases callee with
  | function f =>
    rw [Treewalk.call, Treewalk.call]
    split
    · refine inNewScope (bind (.refl _) fun _ => bind (inOrder hstep f.body) fun flow => ?_) _
      cases flow <;> exact .refl _
    · exact .refl _
  | _ => exact .refl _

/-- Expressions that may be missing refine if expressions do. -/
theorem evaluateOr {step step' : Expr → Run Value} (hstep : ∀ e, (step e).RefinesTo (step' e))
    (e? : Option Expr) :
    (Treewalk.evaluateOr step e?).RefinesTo (Treewalk.evaluateOr step' e?) := by
  cases e? with
  | none => exact .refl _
  | some e => exact hstep e

end RefinesTo

end Run

/-! ## Trees -/

section

variable {fuel fuel' : Nat} (hevaluate : ∀ e, (evaluate fuel e).RefinesTo (evaluate fuel' e))
  (hexecute : ∀ s, (execute fuel s).RefinesTo (execute fuel' s))

include hevaluate hexecute

open Run.RefinesTo in
/-- Expressions with fuel for one more level, if expressions and statements do with less. -/
theorem evaluate_succ_refinesTo (e : Expr) :
    (evaluate (fuel + 1) e).RefinesTo (evaluate (fuel' + 1) e) := by
  -- Both sides have one more level of fuel, so both take the same step of the same equation.
  cases e with
  | literal | name =>
    rw [evaluate, evaluate]
    exact refl _
  | group inner =>
    rw [evaluate, evaluate]
    exact hevaluate inner
  | unary op operand span =>
    rw [evaluate, evaluate]
    exact bind (hevaluate operand) fun _ => refl _
  | binary op left right span =>
    rw [evaluate, evaluate]
    exact bind (hevaluate left) fun _ => bind (hevaluate right) fun _ => refl _
  | logical op left right =>
    rw [evaluate, evaluate]
    apply bind (hevaluate left)
    intro value
    split
    · exact refl _
    · exact hevaluate right
  | assign token value =>
    rw [evaluate, evaluate]
    -- From here on there is only one change to the machine left.
    exact bind (hevaluate value) fun _ => refl _
  | call callee args paren =>
    rw [evaluate, evaluate]
    apply bind (hevaluate callee)
    intro f
    apply bind (mapM hevaluate args)
    intro values
    exact Run.RefinesTo.call hexecute f values paren
  | array elements =>
    rw [evaluate, evaluate]
    exact bind (mapM hevaluate elements) fun _ => refl _
  | index object position bracket =>
    rw [evaluate, evaluate]
    exact bind (hevaluate object) fun _ => bind (hevaluate position) fun _ => refl _
  | indexAssign object position value bracket =>
    rw [evaluate, evaluate]
    apply bind (hevaluate object)
    intro _
    apply bind (hevaluate position)
    intro _
    apply bind (refl _)
    intro slot
    exact bind (hevaluate value) fun _ => refl _

open Run.RefinesTo in
/-- Statements with fuel for one more level, if expressions and statements do with less. -/
theorem execute_succ_refinesTo (s : Stmt) :
    (execute (fuel + 1) s).RefinesTo (execute (fuel' + 1) s) := by
  cases s with
  | read | function =>
    rw [execute, execute]
    exact refl _
  | expression value | print keyword value =>
    rw [execute, execute]
    exact bind (hevaluate value) fun _ => refl _
  | declare token init =>
    rw [execute, execute]
    exact bind (Run.RefinesTo.evaluateOr hevaluate init) fun _ => refl _
  | block body =>
    rw [execute, execute]
    exact bind (refl _) fun current => inNewScope (Run.RefinesTo.inOrder hexecute body) current
  | ifThen condition consequent =>
    rw [execute, execute]
    apply bind (hevaluate condition)
    intro value
    split
    · exact hexecute consequent
    · exact refl _
  | ifThenElse condition consequent alternative =>
    rw [execute, execute]
    apply bind (hevaluate condition)
    intro value
    split
    · exact hexecute consequent
    · exact hexecute alternative
  -- A turn of a loop that ends normally goes on with the loop itself at the smaller fuel, so the
  -- hypothesis about statements is used for it as well as for the body.
  | loop condition body =>
    rw [execute, execute]
    apply bind (hevaluate condition)
    intro value
    split
    · apply bind (hexecute body)
      intro flow
      cases flow with
      | normal => exact hexecute (.loop condition body)
      | result value => exact refl _
    · exact refl _
  | result keyword value =>
    rw [execute, execute]
    exact bind (Run.RefinesTo.evaluateOr hevaluate value) fun _ => refl _

end

/-- What comes to an end comes to the same end with more fuel. -/
theorem evaluate_execute_mono {fuel fuel' : Nat} (h : fuel ≤ fuel') :
    (∀ e, (evaluate fuel e).RefinesTo (evaluate fuel' e)) ∧
      ∀ s, (execute fuel s).RefinesTo (execute fuel' s) := by
  -- The induction is on the smaller amount. The larger one has to be general, since both fall
  -- together.
  induction fuel generalizing fuel' with
  | zero =>
    constructor
    · intro e
      rw [evaluate]
      exact .outOfFuel _
    · intro s
      rw [execute]
      exact .outOfFuel _
  | succ fuel ih =>
    obtain ⟨fuel', rfl⟩ := Nat.exists_eq_succ_of_ne_zero (Nat.ne_zero_of_lt h)
    obtain ⟨hevaluate, hexecute⟩ := ih (Nat.le_of_succ_le_succ h)
    exact ⟨evaluate_succ_refinesTo hevaluate hexecute, execute_succ_refinesTo hevaluate hexecute⟩

/-- More fuel changes nothing about an expression whose evaluation comes to an end. -/
theorem evaluate_mono {fuel fuel' : Nat} (h : fuel ≤ fuel') (e : Expr) :
    (evaluate fuel e).RefinesTo (evaluate fuel' e) := (evaluate_execute_mono h).1 e

/-- More fuel changes nothing about a statement whose execution comes to an end. -/
theorem execute_mono {fuel fuel' : Nat} (h : fuel ≤ fuel') (s : Stmt) :
    (execute fuel s).RefinesTo (execute fuel' s) := (evaluate_execute_mono h).2 s

/-- More fuel changes nothing about a program that comes to an end. -/
theorem Program.run_mono {fuel fuel' : Nat} (h : fuel ≤ fuel') (p : Program) :
    (p.run fuel).RefinesTo (p.run fuel') :=
  (Run.RefinesTo.inOrder (execute_mono h) p.statements).bind fun _ => .refl _

/-! ## Sources -/

namespace Machine

/-- With enough fuel, the source comes to this end and leaves this machine. -/
def Ends (m : Machine) (source : String) (ending : Ending) (m' : Machine) : Prop :=
  ending ≠ .unfinished ∧ ∃ fuel, m.runSource fuel source = (ending, m')

/-- The source does not come to an end with any fuel. -/
def Diverges (m : Machine) (source : String) : Prop :=
  ∀ fuel, (m.runSource fuel source).1 = .unfinished

variable {m m₁ m₂ : Machine} {source : String} {ending₁ ending₂ : Ending} {fuel fuel' : Nat}

/-- More fuel changes nothing about a source whose run comes to an end. -/
theorem runSource_mono (h : fuel ≤ fuel') (hfinished : (m.runSource fuel source).1 ≠ .unfinished) :
    m.runSource fuel' source = m.runSource fuel source := by
  cases hp : Program.ofSource source with
  | error ds => rw [runSource, runSource, hp]
  | ok p =>
    rw [runSource_of_ok hp] at hfinished ⊢
    rw [runSource_of_ok hp, p.run_mono h m fun hunfinished => hfinished (by rw [hunfinished]; rfl)]

/-- A source comes to one end only. -/
theorem Ends.unique (h₁ : m.Ends source ending₁ m₁) (h₂ : m.Ends source ending₂ m₂) :
    ending₁ = ending₂ ∧ m₁ = m₂ := by
  obtain ⟨hne₁, fuel₁, hrun₁⟩ := h₁
  obtain ⟨hne₂, fuel₂, hrun₂⟩ := h₂
  have hmax₁ := runSource_mono (Nat.le_max_left fuel₁ fuel₂) (by rw [hrun₁]; exact hne₁)
  have hmax₂ := runSource_mono (Nat.le_max_right fuel₁ fuel₂) (by rw [hrun₂]; exact hne₂)
  exact Prod.mk.inj (hrun₁.symm.trans (hmax₁.symm.trans (hmax₂.trans hrun₂)))

end Machine

end Treewalk
