import Treewalk.Proofs.Evaluation.Evolution
import Treewalk.Proofs.Scope.Links
import Treewalk.Proofs.Session.Requests

/-!
# What requests come down to

A host has runs carried out (`Machine.Offers`). Beside that, it only puts data on the heap, opens
scopes, binds globals and empties the log. What holds of machines and is kept by all of these is
kept by every request (`Machine.Kept.serve`), so that the cases of the requests are here once.
-/

namespace Treewalk.Machine

variable {m : Machine} {α : Type}

/-- What a host can have a machine do: a program, a statement or an expression, statements in some
    scope that is there, or a function, all of them whatever they are. -/
inductive Offers (m : Machine) : {α : Type} → Run α → Prop where
  | run (fuel : Nat) (p : Program) : Offers m (p.run fuel)
  | execute (fuel : Nat) (s : Stmt) : Offers m (Treewalk.execute fuel s)
  | evaluate (fuel : Nat) (e : Expr) : Offers m (Treewalk.evaluate fuel e)
  | block (fuel : Nat) {scope : Nat} (hscope : scope < m.scopes.size) (body : List Stmt) :
      Offers m (Run.inScope scope (inOrder (Treewalk.execute fuel) body))
  | call (fuel : Nat) (f : Closure) (args : List Value) :
      Offers m (f.invoke (Treewalk.execute fuel) args)

/-- What all evaluation has on every machine, a run that a host can ask for has, if being in another
    scope for the time of the run adds nothing. -/
theorem Offers.of_compositional {P : {α : Type} → Run α → Machine → Prop}
    (h : Run.Compositional fun _ run => ∀ m, P run m)
    (hscope : ∀ {α : Type} {run : Run α} {m : Machine} {scope : Nat}, scope < m.scopes.size →
      P run { m with current := scope } → P (Run.inScope scope run) m)
    {run : Run α} (hrun : m.Offers run) : P run m := by
  cases hrun with
  | run fuel p => exact h.bind (h.inOrder (h.execute fuel) p.statements) (fun _ => h.pure ()) m
  | execute fuel s => exact h.execute fuel s m
  | evaluate fuel e => exact h.evaluate fuel e m
  | block fuel hinside body => exact hscope hinside (h.inOrder (h.execute fuel) body _)
  | call fuel f args => exact h.invoke (h.execute fuel) f args m

/-- What all primitives preserve is preserved by every run that is offered. -/
theorem Evolution.outcome_of_offers {R : Machine → Machine → Prop} (h : Evolution R)
    (hscope : ∀ {m m' : Machine} {scope : Nat}, R { m with current := scope } m' →
      R m { m' with current := m.current })
    {run : Run α} (hrun : m.Offers run) : R m (run.outcome m).2 := by
  refine hrun.of_compositional h.compositional fun _ hafter => ?_
  rw [Run.outcome_inScope]
  exact hscope hafter

/-- A scope that a host opens is inside of the global one. -/
theorem links_openScope (m : Machine) (locals : List (String × Value)) :
    (m.openScope locals).2.scopes.links = m.scopes.links ++ [some globals] := by
  have hlinks (scope : Nat) (f : Forest) :
      (locals.foldl (fun f l => f.declare scope l.1 l.2) f).links = f.links := by
    induction locals generalizing f with
    | nil => rfl
    | cons l locals ih => rw [List.foldl_cons, ih, Forest.links_declare]
  exact (hlinks m.scopes.size _).trans (Forest.links_push ..)

/-- A scope that a host opens is there. -/
theorem lt_size_openScope (m : Machine) (locals : List (String × Value)) :
    (m.openScope locals).1 < (m.openScope locals).2.scopes.size := by
  rw [← Forest.length_links, links_openScope, List.length_append, Forest.length_links]
  exact Nat.lt_succ_self _

/-- What holds of a machine after anything that a host does if it has held before. -/
structure Kept (P : Machine → Prop) : Prop where
  run {m : Machine} {α : Type} {run : Run α} (hrun : m.Offers run) (hm : P m) : P (run.outcome m).2
  data {m : Machine} (items : List Datum) (hm : P m) : P (m.ofData items).2
  openScope {m : Machine} (locals : List (String × Value)) (hm : P m) : P (m.openScope locals).2
  declare {m : Machine} (name : String) (value : Value) (hm : P m) : P (m.declareGlobal name value)
  clear {m : Machine} (hm : P m) : P m.clearLog

namespace Kept

variable {P : Machine → Prop}

/-- What one statement keeps is kept when statements are executed one by one. -/
theorem executeEach (h : Kept P) (fuel : Nat) (observe : Machine → Outcome Flow → α)
    (body : List Stmt) (hm : P m) : P (m.executeEach fuel observe body).2 := by
  induction body generalizing m with
  | nil => exact hm
  | cons s body ih =>
    have hfirst := h.run (.execute fuel s) hm
    rw [Machine.executeEach]
    cases hout : (Treewalk.execute fuel s).outcome m with
    | mk outcome m' =>
      rw [hout] at hfirst
      cases outcome with
      -- A fault ends the list, and any flow goes on with it.
      | done flow => exact ih hfirst
      | failed error => exact hfirst
      | unfinished => exact hfirst

/-- Every request keeps what all that a host does keeps. -/
theorem serve (h : Kept P) (fuel : Nat) (request : Request) (hm : P m) :
    P (m.serve fuel request) := by
  cases request with
  | run source =>
    rw [Machine.serve]
    cases hp : Program.ofSource source with
    | error diagnostics =>
      rw [Machine.runSource, hp]
      exact hm
    | ok program =>
      rw [runSource_of_ok hp]
      exact h.run (.run fuel program) hm
  | exec source =>
    rw [Machine.serve]
    cases Program.ofSource source with
    | error diagnostics => exact hm
    | ok program => exact h.executeEach fuel _ program.statements hm
  | eval source =>
    rw [Machine.serve, evalSource]
    cases Program.ofSource (source ++ ";") with
    | error diagnostics => exact hm
    | ok program =>
      cases hsingle : program.expression? with
      | none =>
        simp only [hsingle]
        exact hm
      | some e =>
        simp only [hsingle]
        exact h.run (.evaluate fuel e) hm
  | block locals source =>
    rw [Machine.serve, blockSource]
    cases Program.ofSource source with
    | error diagnostics => exact hm
    | ok program =>
      have hdata := h.data (locals.map Prod.snd) hm
      -- The statements are carried out in the scope that has been made for them.
      exact h.run (.block fuel (lt_size_openScope ..) program.statements) (h.openScope _ hdata)
  | call name args =>
    have hdata := h.data args hm
    rw [Machine.serve, callNamed]
    dsimp only
    split
    · next f hf => exact h.run (.call fuel f _) hdata
    · exact hdata
  | declare name value =>
    have hdata := h.data [value] hm
    exact h.declare name _ hdata
  | clear => exact h.clear hm

/-- What one request keeps is kept by any number of them. -/
theorem serveAll (h : Kept P) (requests : List (Nat × Request)) (hm : P m) :
    P (m.serveAll requests) := by
  induction requests generalizing m with
  | nil => exact hm
  | cons request requests ih => exact ih (h.serve request.1 request.2 hm)

end Kept

end Treewalk.Machine
