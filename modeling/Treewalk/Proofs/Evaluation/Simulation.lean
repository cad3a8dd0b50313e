import Treewalk.Proofs.Evaluation.Composition
import Treewalk.Proofs.Machine.Alike

/-!
# The same trees do the same

Trees that count as the same do the same on alike machines (`evaluate_alike`, `execute_alike`), and
so do calls of alike functions, wherever they are made (`invoke_alike`). Both runs take the same
steps, so the induction is on the fuel, and with it each form of tree is one case.
-/

namespace Treewalk

variable {l : Link}

/-- Flows that are both normal, or have alike results. -/
inductive Flow.Alike (l : Link) : Flow → Flow → Prop where
  | normal : Alike l .normal .normal
  | result {v w : Value} (h : v.Alike l w) : Alike l (.result v) (.result w)

/-! ## Parts of evaluation -/

/-- Steps that are alike one by one are alike when they are taken for related lists. -/
theorem mapM_alike {α β : Type} {r : α → α → Prop} {q : β → β → Prop} {step step' : α → Run β}
    (hstep : ∀ {a b}, r a b → Run.Alike l q (step a) (step' b)) {as bs : List α}
    (h : List.Forall₂ r as bs) : Run.Alike l (List.Forall₂ q) (as.mapM step) (bs.mapM step') := by
  induction h with
  | nil =>
    rw [List.mapM_nil, List.mapM_nil]
    exact .pure .nil
  | cons hfirst _ ih =>
    rw [List.mapM_cons, List.mapM_cons]
    exact (hstep hfirst).bind fun h => ih.bind fun hs => .pure (.cons h hs)

/-- Binding alike parameters to alike arguments is alike. -/
theorem bindAll_alike {params params' : List Token} {args args' : List Value}
    (hparams : List.Forall₂ l.trees.token params params')
    (hargs : List.Forall₂ (Value.Alike l) args args') :
    Run.Alike l (fun _ _ => True) (bindAll params args) (bindAll params' args') := by
  induction hparams generalizing args args' with
  | nil => exact .pure trivial
  | cons hparam _ ih =>
    cases hargs with
    | nil => exact .pure trivial
    | cons harg hargs =>
      rw [bindAll, bindAll, l.trees.lexeme_eq hparam]
      exact (Run.Alike.declare _ harg).bind fun _ => ih hargs

/-- A statement that leaves the function around it does not end normally. -/
theorem execute_result_ne_normal {fuel : Nat} (t : Token) (e : Option Expr) {m m' : Machine}
    {flow : Flow}
    (h : (execute fuel (.result t e)).outcome m = (.done flow, m')) : flow ≠ .normal := by
  cases fuel with
  | zero =>
    rw [execute] at h
    cases h
  | succ fuel =>
    rw [execute, Run.outcome_bind] at h
    -- A result is left with as soon as its value has been evaluated, and all other outcomes are no
    -- flow at all.
    cases hvalue : (evaluateOr (evaluate fuel) e).outcome m with
    | mk outcome m₁ =>
      rw [hvalue] at h
      cases outcome with
      | done value =>
        cases h
        exact Flow.noConfusion
      | failed error => cases h
      | unfinished => cases h

section

variable {fuel : Nat} (hexecute : ∀ {s s'}, l.trees.stmt s s' →
  Run.Alike l (Flow.Alike l) (execute fuel s) (execute fuel s'))

include hexecute

/-- Statements that leave the function around them leave it, whatever stands behind them. -/
theorem inOrder_result_alike {t t' : Token} {e e' : Option Expr}
    (h : l.trees.stmt (.result t e) (.result t' e')) (ss ss' : List Stmt) :
    Run.Alike l (Flow.Alike l) (inOrder (execute fuel) (.result t e :: ss))
      (inOrder (execute fuel) (.result t' e' :: ss')) := by
  rw [inOrder, inOrder]
  apply Run.Alike.bind ((hexecute h).and (execute_result_ne_normal t e))
  rintro flow flow' ⟨hflow, hne⟩
  cases hflow with
  | normal => exact absurd rfl hne
  | result h => exact .pure (.result h)

/-- Lists of statements that match one by one run alike. -/
theorem inOrder_alike {body body' : List Stmt} (h : l.trees.body body body') :
    Run.Alike l (Flow.Alike l) (inOrder (execute fuel) body) (inOrder (execute fuel) body') := by
  -- What counts as the same body is known of its first statement and of the rest, unless the first
  -- one is a result.
  induction body generalizing body' with
  | nil =>
    cases l.trees.body_layer h
    exact .pure .normal
  | cons s body ih =>
    cases l.trees.body_layer h with
    | cons hfirst hothers =>
      rw [inOrder, inOrder]
      apply Run.Alike.bind (hexecute hfirst)
      intro flow flow' hflow
      cases hflow with
      | normal => exact ih hothers
      | result h => exact .pure (.result h)
    | result hfirst _ ss' => exact inOrder_result_alike hexecute hfirst body ss'

/-- What a function does in its own scope. -/
theorem frame_alike {f g : Closure} (hf : f.Alike l g) {args args' : List Value}
    (hargs : List.Forall₂ (Value.Alike l) args args') :
    Run.Alike l (Value.Alike l) (f.frame (execute fuel) args) (g.frame (execute fuel) args') := by
  apply Run.Alike.bind (bindAll_alike hf.params hargs)
  intro _ _ _
  apply Run.Alike.bind (inOrder_alike hexecute hf.body)
  intro flow flow' hflow
  cases hflow with
  | normal => exact .pure .null
  | result h => exact .pure h

/-- Calls of alike functions do the same, whatever the scopes are that they are made in. -/
theorem invoke_alike {f g : Closure} (hf : f.Alike l g) {args args' : List Value}
    (hargs : List.Forall₂ (Value.Alike l) args args') {m m' : Machine} (hm : m.Alike l m') :
    ((f.invoke (execute fuel) args).outcome m).1.Alike l (Value.Alike l)
      ((g.invoke (execute fuel) args').outcome m').1 ∧
      ((f.invoke (execute fuel) args).outcome m).2.Alike l
        ((g.invoke (execute fuel) args').outcome m').2 := by
  rw [Closure.invoke_eq, Closure.invoke_eq]
  -- The scope of the frame is put into the global one, which both machines share.
  exact (frame_alike hexecute hf hargs).enter (l.scopes.rel_of_lt l.shared_pos) hm

/-- Calls of alike values with alike arguments are alike. -/
theorem call_alike {v w : Value} (h : v.Alike l w) {args args' : List Value}
    (hargs : List.Forall₂ (Value.Alike l) args args') {t t' : Token} (ht : l.trees.token t t') :
    Run.Alike l (Value.Alike l) (call (execute fuel) v args t)
      (call (execute fuel) w args' t') := by
  cases h with
  | @function f g hid hf =>
    rw [call, call, hf.params.length_eq, hargs.length_eq]
    split
    · rw [Closure.invoke_eq, Closure.invoke_eq]
      exact (frame_alike hexecute hf hargs).inNewScope (l.scopes.rel_of_lt l.shared_pos)
    · exact .failAt _ ht
  | _ => exact .failAt _ ht

end

/-- Expressions that may be missing are alike if expressions are. -/
theorem evaluateOr_alike {step step' : Expr → Run Value}
    (hstep : ∀ {e e'}, l.trees.expr e e' → Run.Alike l (Value.Alike l) (step e) (step' e'))
    {e e' : Option Expr} (h : Option.Rel l.trees.expr e e') :
    Run.Alike l (Value.Alike l) (evaluateOr step e) (evaluateOr step' e') := by
  cases h with
  | some h => exact hstep h
  | none => exact .pure .null

/-- Reading a line into alike targets is alike. -/
theorem readInto_alike (kind : ReadKind) {t t' : Token} (ht : l.trees.token t t') {e e' : Expr}
    (h : l.trees.expr e e') :
    Run.Alike l (fun _ _ => True) (readInto kind t e) (readInto kind t' e') := by
  cases l.trees.expr_layer h with
  | name hname =>
    rw [readInto, readInto]
    apply Run.Alike.bind Run.Alike.readLine
    intro line line' hline
    subst hline
    have hvalue := Input.valueOfLine_alike l kind line
    exact (Run.Alike.orFail hvalue (l.trees.span_of_token ht)).bind fun h => .assign hname h
  | _ => exact .failAt _ ht

/-- Alike values are indexed at the same slot. -/
theorem slot_alike {v v' w w' : Value} (hv : v.Alike l v') (hw : w.Alike l w') {t t' : Token}
    (ht : l.trees.token t t') :
    Run.Alike l Eq (Run.onHeap t.span (·.slot v w)) (Run.onHeap t'.span (·.slot v' w')) := by
  apply Run.Alike.onHeap (l.trees.span_of_token ht)
  intro h h' hheap
  rw [hheap.slot_eq hv hw]
  exact .refl (fun _ => rfl) _

/-! ## Trees -/

/-- With fuel for one more level, expressions are alike if expressions and statements are with
    less. -/
theorem evaluate_succ_alike {fuel : Nat}
    (hevaluate : ∀ {e e'}, l.trees.expr e e' →
      Run.Alike l (Value.Alike l) (evaluate fuel e) (evaluate fuel e'))
    (hexecute : ∀ {s s'}, l.trees.stmt s s' →
      Run.Alike l (Flow.Alike l) (execute fuel s) (execute fuel s'))
    {e e' : Expr} (htree : l.trees.expr e e') :
    Run.Alike l (Value.Alike l) (evaluate (fuel + 1) e) (evaluate (fuel + 1) e') := by
  cases l.trees.expr_layer htree with
  | literal value =>
    rw [evaluate]
    exact .pure (.ofLiteral value)
  | group h =>
    rw [evaluate, evaluate]
    exact hevaluate h
  | unary op h hspan =>
    rw [evaluate, evaluate]
    exact (hevaluate h).bind fun hv => .orFail (op.apply_alike hv) hspan
  | binary op h₁ h₂ hspan =>
    rw [evaluate, evaluate]
    apply Run.Alike.bind (hevaluate h₁)
    intro v v' hv
    apply Run.Alike.bind (hevaluate h₂)
    intro w w' hw
    exact .onHeap hspan fun hheap => op.apply_alike hheap hv hw
  | logical op h₁ h₂ =>
    rw [evaluate, evaluate]
    apply Run.Alike.bind (hevaluate h₁)
    intro v v' hv
    rw [op.decidedBy_eq hv]
    split
    · exact .pure hv
    · exact hevaluate h₂
  | assign ht h =>
    rw [evaluate, evaluate]
    exact (hevaluate h).bind fun hv => (Run.Alike.assign ht hv).bind fun _ => .pure hv
  | name ht =>
    rw [evaluate, evaluate]
    exact .lookup ht
  | call h hargs ht =>
    rw [evaluate, evaluate]
    apply Run.Alike.bind (hevaluate h)
    intro v v' hv
    apply Run.Alike.bind (mapM_alike (r := l.trees.expr) hevaluate hargs)
    intro vs vs' hvalues
    exact call_alike hexecute hv hvalues ht
  | array h =>
    rw [evaluate, evaluate]
    apply Run.Alike.bind (mapM_alike (r := l.trees.expr) hevaluate h)
    intro vs vs' hvalues
    exact .allocate fun hheap => hheap.newArray hvalues
  | index h₁ h₂ ht =>
    rw [evaluate, evaluate]
    apply Run.Alike.bind (hevaluate h₁)
    intro v v' hv
    apply Run.Alike.bind (hevaluate h₂)
    intro w w' hw
    apply Run.Alike.bind (slot_alike hv hw ht)
    intro slot slot' hslot
    subst hslot
    exact .query fun hm _ => hm.heap.element slot
  | indexAssign h₁ h₂ h₃ ht =>
    rw [evaluate, evaluate]
    apply Run.Alike.bind (hevaluate h₁)
    intro v v' hv
    apply Run.Alike.bind (hevaluate h₂)
    intro w w' hw
    -- The slot is the same in both runs before the value is evaluated.
    apply Run.Alike.bind (slot_alike hv hw ht)
    intro slot slot' hslot
    subst hslot
    exact (hevaluate h₃).bind fun hvalue => (Run.Alike.store slot hvalue).bind fun _ => .pure hvalue

/-- With fuel for one more level, statements are alike if expressions and statements are with
    less. -/
theorem execute_succ_alike {fuel : Nat}
    (hevaluate : ∀ {e e'}, l.trees.expr e e' →
      Run.Alike l (Value.Alike l) (evaluate fuel e) (evaluate fuel e'))
    (hexecute : ∀ {s s'}, l.trees.stmt s s' →
      Run.Alike l (Flow.Alike l) (execute fuel s) (execute fuel s'))
    {s s' : Stmt} (htree : l.trees.stmt s s') :
    Run.Alike l (Flow.Alike l) (execute (fuel + 1) s) (execute (fuel + 1) s') := by
  cases l.trees.stmt_layer htree with
  | expression h =>
    rw [execute, execute]
    exact (hevaluate h).bind fun _ => .pure .normal
  | print ht h =>
    rw [execute, execute]
    apply Run.Alike.bind (hevaluate h)
    intro v v' hv
    apply Run.Alike.bind (Run.Alike.query (r := Eq) fun hm _ => hm.heap.display_eq hv)
    intro line line' hline
    subst hline
    exact (Run.Alike.print ht line).bind fun _ => .pure .normal
  | declare ht h =>
    rw [execute, execute, l.trees.lexeme_eq ht]
    exact (evaluateOr_alike hevaluate h).bind fun hv =>
      (Run.Alike.declare _ hv).bind fun _ => .pure .normal
  | block h =>
    rw [execute, execute]
    apply Run.Alike.bind (Run.Alike.query (r := l.scopes.Rel) fun _ hcurrent => hcurrent)
    intro i j hij
    -- Unlike a frame, a block goes into the current scopes, which belong together.
    exact (inOrder_alike hexecute h).inNewScope hij
  | ifThen he hs =>
    rw [execute, execute]
    apply Run.Alike.bind (hevaluate he)
    intro v v' hv
    rw [hv.isTruthy_eq]
    split
    · exact hexecute hs
    · exact .pure .normal
  | ifThenElse he h₁ h₂ =>
    rw [execute, execute]
    apply Run.Alike.bind (hevaluate he)
    intro v v' hv
    rw [hv.isTruthy_eq]
    split
    · exact hexecute h₁
    · exact hexecute h₂
  | loop he hs =>
    rw [execute, execute]
    apply Run.Alike.bind (hevaluate he)
    intro v v' hv
    rw [hv.isTruthy_eq]
    split
    · apply Run.Alike.bind (hexecute hs)
      intro flow flow' hflow
      cases hflow with
      | normal =>
        -- The next turn is the whole loop once more, with less fuel.
        exact hexecute htree
      | result hv => exact .pure (.result hv)
    · exact .pure .normal
  | function ht hparams hbody =>
    rw [execute, execute, l.trees.lexeme_eq ht]
    apply Run.Alike.bind (Run.Alike.allocate fun hheap => hheap.newFunction ht hparams hbody)
    intro v v' hv
    exact (Run.Alike.declare _ hv).bind fun _ => .pure .normal
  | result ht h =>
    rw [execute, execute]
    exact (evaluateOr_alike hevaluate h).bind fun hv => .pure (.result hv)
  | read kind ht h =>
    rw [execute, execute]
    exact (readInto_alike kind ht h).bind fun _ => .pure .normal

/-- Trees that count as the same do the same, with the same fuel. -/
theorem evaluate_execute_alike (l : Link) (fuel : Nat) :
    (∀ {e e'}, l.trees.expr e e' →
      Run.Alike l (Value.Alike l) (evaluate fuel e) (evaluate fuel e')) ∧
      ∀ {s s'}, l.trees.stmt s s' →
        Run.Alike l (Flow.Alike l) (execute fuel s) (execute fuel s') := by
  induction fuel with
  | zero =>
    constructor
    · intro e e' _
      rw [evaluate, evaluate]
      exact .outOfFuel
    · intro s s' _
      rw [execute, execute]
      exact .outOfFuel
  | succ fuel ih => exact ⟨evaluate_succ_alike ih.1 ih.2, execute_succ_alike ih.1 ih.2⟩

/-- Expressions that count as the same have alike outcomes on alike machines. -/
theorem evaluate_alike (fuel : Nat) {e e' : Expr} (h : l.trees.expr e e') :
    Run.Alike l (Value.Alike l) (evaluate fuel e) (evaluate fuel e') :=
  (evaluate_execute_alike l fuel).1 h

/-- Statements that count as the same have alike outcomes on alike machines. -/
theorem execute_alike (fuel : Nat) {s s' : Stmt} (h : l.trees.stmt s s') :
    Run.Alike l (Flow.Alike l) (execute fuel s) (execute fuel s') :=
  (evaluate_execute_alike l fuel).2 h

/-- Calls of alike functions from the host end alike and leave alike machines, wherever these
    are. -/
theorem Machine.callFunction_alike (fuel : Nat) {f g : Closure} (hf : f.Alike l g)
    {args args' : List Value} (hargs : List.Forall₂ (Value.Alike l) args args') {m m' : Machine}
    (hm : m.Alike l m') :
    (m.callFunction fuel f args).1.Alike l (Value.Alike l) (m'.callFunction fuel g args').1 ∧
      (m.callFunction fuel f args).2.Alike l (m'.callFunction fuel g args').2 :=
  invoke_alike (execute_alike fuel) hf hargs hm

end Treewalk
