import Treewalk.Proofs.Evaluation.Composition
import Treewalk.Proofs.Machine.Outcome
import Treewalk.Session

/-!
# How a program changes a machine

A relation between machines is an *evolution* if it holds between a machine before and after each
change that a program can make, and through any number of changes. Then it holds between the machine
before and after all evaluation, however the evaluation ends (`Evolution.evaluate`,
`Evolution.execute` and so on).

A scope is the only thing that a program makes and gives up again. So what an evolution has to say
about scopes is about all that happens from the one to the other. For a relation that expressions
keep but not all statements, there is the part of this that is about expressions
(`ExpressionEvolution`).
-/

namespace Treewalk

namespace Machine

/-- A relation that holds across all that expressions can do to a machine, calls of functions
    aside. -/
structure ExpressionEvolution (R : Machine → Machine → Prop) : Prop where
  refl (m : Machine) : R m m
  trans {m₁ m₂ m₃ : Machine} (h₁ : R m₁ m₂) (h₂ : R m₂ m₃) : R m₁ m₃
  newArray (m : Machine) (elements : Array Value) :
    R m { m with heap := (m.heap.newArray elements).2 }
  store (m : Machine) (slot : Slot) (value : Value) : R m { m with heap := m.heap.store slot value }
  assign (m : Machine) (name : String) (value : Value) {owner : Nat}
    (howner : m.scopes.owner? m.current name = some owner) :
    R m { m with scopes := m.scopes.declare owner name value }

/-- A relation that holds across all that a program can do to a machine. -/
structure Evolution (R : Machine → Machine → Prop) : Prop extends ExpressionEvolution R where
  newFunction (m : Machine) (name : Token) (params : List Token) (body : List Stmt) :
    R m { m with heap := (m.heap.newFunction name params body).2 }
  declare (m : Machine) (name : String) (value : Value) :
    R m { m with scopes := m.scopes.declare m.current name value }
  scope {m m' : Machine} {enclosing : Nat}
    (henclosing : enclosing = m.current ∨ enclosing = globals)
    (h : R (m.enter enclosing) m') : R m (m'.leave m)
  printed (m : Machine) (line : String) : R m (m.printed line)
  readLine (m : Machine) : R m { m with input := (Input.nextLine m.input).2 }

/-- An evolution of expressions is a property of the runs that they are put together from. -/
theorem ExpressionEvolution.expressive {R : Machine → Machine → Prop} (h : ExpressionEvolution R) :
    Run.Expressive fun _ run => ∀ m, R m (run.outcome m).2 where
  pure a m := by
    rw [Run.outcome_pure]
    exact h.refl m
  bind {_ _ run next} hrun hnext m := by
    have hfirst := hrun m
    rw [Run.outcome_bind]
    cases hout : run.outcome m with
    | mk outcome m' =>
      rw [hout] at hfirst
      -- Only a value lets the run go on. After any other outcome the machine stays as it is.
      cases outcome with
      | done a => exact h.trans hfirst (hnext a m')
      | failed error => exact hfirst
      | unfinished => exact hfirst
  stop reason _ m := by cases reason <;> exact h.refl m
  query f m := by
    rw [Run.outcome_query]
    exact h.refl m
  onHeap span f _ m := by
    rw [Run.outcome_onHeap]
    split <;> exact h.refl m
  newArray elements m := by
    rw [Run.outcome_allocate]
    exact h.newArray m elements
  store slot value m := by
    rw [Run.outcome_store]
    exact h.store m slot value
  lookup name m := by
    rw [Run.outcome_lookup]
    split <;> exact h.refl m
  assign name value m := by
    rw [Run.outcome_assign]
    split
    · -- The name has an owner, or else nothing is assigned and the run fails where it is.
      next owner howner => exact h.assign m name.lexeme value howner
    · exact h.refl m

namespace Evolution

variable {R : Machine → Machine → Prop}

/-- An evolution is a property of runs that all evaluation has. -/
theorem compositional (h : Evolution R) :
    Run.Compositional fun _ run => ∀ m, R m (run.outcome m).2 where
  toExpressive := h.toExpressionEvolution.expressive
  newFunction name params body m := by
    rw [Run.outcome_allocate]
    exact h.newFunction m name params body
  declare name value m := by
    rw [Run.outcome_declare]
    exact h.declare m name value
  inBlock {_ run} hrun m := by
    -- The current scope is asked for first, and the new one is put into it.
    rw [Run.inBlock, Run.outcome_bind, Run.outcome_query]
    dsimp only
    rw [Run.outcome_inNewScope]
    exact h.scope (.inl rfl) (hrun _)
  inFrame hrun m := by
    rw [Run.outcome_inNewScope]
    exact h.scope (.inr rfl) (hrun _)
  print {fuel} keyword {e} he m := by
    have hexpressive := h.toExpressionEvolution.expressive
    have hline (line : String) (m : Machine) : R m ((Run.print keyword line).outcome m).2 := by
      rw [Run.outcome_print]
      exact h.printed m line
    rw [Treewalk.execute]
    exact hexpressive.bind he (fun v => hexpressive.bind (hexpressive.query _) fun line =>
      hexpressive.bind (hline line) fun _ => hexpressive.pure Flow.normal) m
  read := h.toExpressionEvolution.expressive.read fun m => by
    rw [Run.outcome_readLine]
    exact h.readLine m

/-- The machines before and after an expression are related by every evolution. -/
theorem evaluate (h : Evolution R) (fuel : Nat) (e : Expr) (m : Machine) :
    R m ((evaluate fuel e).outcome m).2 := h.compositional.evaluate fuel e m

/-- The machines before and after a statement are related by every evolution. -/
theorem execute (h : Evolution R) (fuel : Nat) (s : Stmt) (m : Machine) :
    R m ((execute fuel s).outcome m).2 := h.compositional.execute fuel s m

/-- The machines before and after a list of statements are related by every evolution. -/
theorem inOrder (h : Evolution R) (fuel : Nat) (body : List Stmt) (m : Machine) :
    R m ((inOrder (Treewalk.execute fuel) body).outcome m).2 :=
  h.compositional.inOrder (h.compositional.execute fuel) body m

/-- The machines before and after a call from the host are related by every evolution. -/
theorem callFunction (h : Evolution R) (fuel : Nat) (f : Closure) (args : List Value)
    (m : Machine) : R m (m.callFunction fuel f args).2 :=
  h.compositional.invoke (h.compositional.execute fuel) f args m

end Evolution

end Machine

end Treewalk
