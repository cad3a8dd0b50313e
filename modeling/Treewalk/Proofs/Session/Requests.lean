import Treewalk.Session

/-!
# What a host can ask of a session

A session is one machine that a host sends requests to: sources to run, to carry out statement by
statement or to evaluate, blocks with bindings of their own, and calls of functions by name. Values
cross over as data without identity. A request may fail, or be refused because of what is wrong with
its source, and the session goes on with the next one.

`Machine.Reachable` are the machines that sessions can get to.
-/

namespace Treewalk

/-- A request of a host. -/
inductive Request where
  /-- Run a source up to its first failure or result. -/
  | run (source : String)
  /-- Carry out the statements of a source one by one, results notwithstanding. -/
  | exec (source : String)
  /-- Evaluate a source that is an expression. -/
  | eval (source : String)
  /-- Carry out a source in a new scope inside of the global one. -/
  | block (locals : List (String × Datum)) (source : String)
  /-- Call the function that a global name is bound to. -/
  | call (name : String) (args : List Datum)
  /-- Bind a global name. -/
  | declare (name : String) (value : Datum)
  /-- Forget the lines printed so far. -/
  | clear

namespace Machine

/-- Evaluates a source that is an expression, without the semicolon behind it. -/
def evalSource (fuel : Nat) (source : String) (m : Machine) : Machine :=
  match Program.ofSource (source ++ ";") with
  | .error _ => m
  | .ok program =>
    match program.expression? with
    | some e => ((evaluate fuel e).outcome m).2
    | none => m

/-- Carries out a source in a new scope inside of the global one. -/
def blockSource (fuel : Nat) (locals : List (String × Datum)) (source : String) (m : Machine) :
    Machine :=
  match Program.ofSource source with
  | .error _ => m
  | .ok program =>
    match m.ofData (locals.map Prod.snd) with
    | (values, m) =>
      match m.openScope ((locals.map Prod.fst).zip values) with
      | (scope, m) => (m.executeIn fuel scope program.statements).2

/-- Calls the function that a global name is bound to. -/
def callNamed (fuel : Nat) (name : String) (args : List Datum) (m : Machine) : Machine :=
  match m.ofData args with
  | (values, m) =>
    match m.function? name with
    | some f => (m.callFunction fuel f values).2
    | none => m

/-- The machine after a request. -/
def serve (fuel : Nat) (m : Machine) : Request → Machine
  | .run source => (m.runSource fuel source).2
  | .exec source =>
    match Program.ofSource source with
    | .error _ => m
    | .ok program => (executeEach fuel (fun _ outcome => outcome) program.statements m).2
  | .eval source => m.evalSource fuel source
  | .block locals source => m.blockSource fuel locals source
  | .call name args => m.callNamed fuel name args
  | .declare name value =>
    match m.heap.ofDatum value with
    | (v, heap) => declareGlobal { m with heap } name v
  | .clear => m.clearLog

/-- The machine after some requests, each with the fuel that it gets. -/
def serveAll (requests : List (Nat × Request)) (m : Machine) : Machine :=
  requests.foldl (fun m request => m.serve request.1 request.2) m

/-- Is there a session that gets to the machine? -/
def Reachable (m : Machine) : Prop :=
  ∃ input device requests, m = (start input device).serveAll requests

/-- What holds at the start and is kept by every request holds of all machines that sessions get
    to. -/
theorem Reachable.induction {P : Machine → Prop} (hstart : ∀ input device, P (start input device))
    (hserve : ∀ fuel m request, P m → P (m.serve fuel request)) {m : Machine} (h : m.Reachable) :
    P m := by
  obtain ⟨input, device, requests, rfl⟩ := h
  have hall (m : Machine) (hm : P m) : P (m.serveAll requests) := by
    induction requests generalizing m with
    | nil => exact hm
    | cons request requests ih => exact ih _ (hserve request.1 m request.2 hm)
  exact hall _ (hstart input device)

end Machine

end Treewalk
