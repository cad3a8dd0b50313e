import Treewalk.Input
import Treewalk.Scope
import Treewalk.Sink
import Treewalk.Value.Operators
import Treewalk.Value.Rendering

/-! # Machines

A `Machine` is everything that a running program can see or change: the scopes and which of them is
the current one, the heap, the rest of the input, the sink, and the log of printed lines. A `Run` is
a computation on it. It may stop early, with a fault or because it ran out of fuel, and what it has
changed until then stays changed.

The primitive runs are the only ones that touch a machine; evaluation is put together from them. -/

namespace Treewalk

/-- The state of a running program. -/
structure Machine where
  scopes : Forest
  current : Nat
  heap : Heap
  input : List UInt8
  sink : Sink
  log : Array String

/-- Why a run ends early. -/
inductive Stop where
  | fault (error : RuntimeError)
  | outOfFuel

/-- Computations on a machine. -/
abbrev Run := EStateM Stop Machine

namespace Machine

/-- The number of the global scope. -/
def globals : Nat := 0

/-- A machine on which nothing has run: the global scope is the only one and binds nothing. -/
def start (input : List UInt8) (device : Device) : Machine where
  scopes := Forest.empty.push none
  current := globals
  heap := .empty
  input := input
  sink := .ofDevice device
  log := #[]

/-- The value of a global. -/
def global? (m : Machine) (name : String) : Option Value := m.scopes.get? globals name

/-- Binds a global. -/
def declareGlobal (m : Machine) (name : String) (value : Value) : Machine :=
  { m with scopes := m.scopes.declare globals name value }

/-- Makes the log empty. -/
def clearLog (m : Machine) : Machine := { m with log := #[] }

/-- The text that `print` writes for a value. -/
def display (m : Machine) (v : Value) : String := m.heap.display v

end Machine

namespace Run

/-- Stops with a fault. -/
def fail {α : Type} (error : RuntimeError) : Run α := throw (.fault error)

/-- A value, or stops with its fault at a span. -/
def orFail {α : Type} (span : Span) : Except RuntimeFault α → Run α
  | .ok a => pure a
  | .error fault => fail ⟨fault, span⟩

/-- A value that depends on the machine. -/
def query {α : Type} (f : Machine → α) : Run α := fun m => .ok (f m) m

/-- A value computed on the heap, or stops with its fault at a span. -/
def onHeap {α : Type} (span : Span) (f : Heap → Except RuntimeFault α) : Run α := fun m =>
  match f m.heap with
  | .ok a => .ok a m
  | .error fault => .error (.fault ⟨fault, span⟩) m

/-- Makes something on the heap. -/
def allocate {α : Type} (f : Heap → α × Heap) : Run α := fun m =>
  -- Taking the machine apart leaves its heap unshared, so the heap can change in place.
  match m with
  | { scopes, current, heap, input, sink, log } =>
    match f heap with
    | (a, heap) => .ok a { scopes, current, heap, input, sink, log }

/-- Changes the element at a slot. -/
def store (slot : Slot) (value : Value) : Run Unit := fun m =>
  .ok () { m with heap := m.heap.store slot value }

/-- The value of a name in the current scope. -/
def lookup (name : Token) : Run Value := fun m =>
  match m.scopes.lookup m.current name with
  | .ok value => .ok value m
  | .error error => .error (.fault error) m

/-- Binds a name in the current scope. -/
def declare (name : String) (value : Value) : Run Unit := fun m =>
  .ok () { m with scopes := m.scopes.declare m.current name value }

/-- Changes the nearest binding of a name in the current scope. -/
def assign (name : Token) (value : Value) : Run Unit := fun m =>
  match m.scopes.assign m.current name value with
  | .ok scopes => .ok () { m with scopes }
  | .error error => .error (.fault error) m

/-- Runs with another scope as the current one. However that ends, the current scope is then the old
one again. -/
def inScope {α : Type} (scope : Nat) (run : Run α) : Run α := fun m =>
  let current := m.current
  match run { m with current := scope } with
  | .ok a m => .ok a { m with current }
  | .error stop m => .error stop { m with current }

/-- Runs in a new scope that is enclosed by another one. No run leaves anything behind that could
reach the new scope, so it is given up at the end, together with all younger ones. -/
def inNewScope {α : Type} (enclosing : Nat) (run : Run α) : Run α := fun m =>
  let size := m.scopes.size
  match inScope size run { m with scopes := m.scopes.push (some enclosing) } with
  | .ok a m => .ok a { m with scopes := m.scopes.keep size }
  | .error stop m => .error stop { m with scopes := m.scopes.keep size }

/-- Writes a line to the sink, and to the log if that succeeds. -/
def print (keyword : Token) (line : String) : Run Unit := fun m =>
  match m with
  | { scopes, current, heap, input, sink, log } =>
    match sink.writeLine line with
    | (sink, none) => .ok () { scopes, current, heap, input, sink, log := log.push line }
    | (sink, some reason) =>
      .error (.fault (.atToken keyword (.unwritableOutput reason)))
        { scopes, current, heap, input, sink, log }

/-- Takes the next line from the input. -/
def readLine : Run (List UInt8) := fun m =>
  match Input.nextLine m.input with
  | (line, rest) => .ok line { m with input := rest }

end Run

end Treewalk
