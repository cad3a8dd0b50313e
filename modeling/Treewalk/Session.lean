import Treewalk.Evaluation
import Treewalk.Grammar.Statement
import Treewalk.Token.Lexed

/-! # Sessions

How a host runs sources on a machine. A source that has anything wrong with it is rejected with all
its diagnostics and nothing of it runs. A machine keeps its globals, so a session is a sequence of
sources run on one machine. -/

namespace Treewalk

/-- The program of a source, or what is wrong with it: the lexical and the syntax diagnostics,
merged by where they start, the lexical ones first where both start at the same place. -/
def Program.ofSource (source : String) : Except (List Diagnostic) Program :=
  let lexed := Lexed.ofSource source
  let parsed := Parsed.ofTokens lexed.tokens
  let diagnostics := lexed.diagnostics ++ parsed.diagnostics
  if diagnostics.isEmpty then .ok parsed.program
  else .error (diagnostics.mergeSort fun d e => decide (d.span.start ≤ e.span.start))

/-- The expression that a program consists of, if it is a single expression statement. -/
def Program.expression? (p : Program) : Option Expr :=
  match p.statements with
  | [.expression e] => some e
  | _ => none

/-- How a run ends for the host. -/
inductive Outcome (α : Type) where
  | done (value : α)
  | failed (error : RuntimeError)
  | unfinished

/-- The end of a run, and the machine afterwards. -/
def Run.outcome {α : Type} (run : Run α) (m : Machine) : Outcome α × Machine :=
  match run m with
  | .ok value m => (.done value, m)
  | .error (.fault error) m => (.failed error, m)
  | .error .outOfFuel m => (.unfinished, m)

/-- How running a source ends. -/
inductive Ending where
  | completed
  | rejected (diagnostics : List Diagnostic)
  | stopped (error : RuntimeError)
  | unfinished

namespace Ending

/-- The exit code of a program that did not run because of what is wrong with its source. -/
def staticExit : Nat := 65

/-- The exit code of a program that stopped. -/
def runtimeExit : Nat := 70

/-- The exit code of an ending. -/
def exitCode : Ending → Nat
  | completed => 0
  | rejected _ => staticExit
  | stopped _ => runtimeExit
  | unfinished => runtimeExit

/-- The diagnostics of an ending, in the order of the source. -/
def diagnostics : Ending → List Diagnostic
  | rejected diagnostics => diagnostics
  | stopped error => [.runtime error]
  | completed => []
  | unfinished => []

/-- An ending in words. -/
def message : Ending → String
  | completed => ""
  | rejected diagnostics => toString diagnostics.length ++ " static error(s)"
  | stopped error => error.text
  | unfinished => "out of fuel"

end Ending

namespace Machine

/-- Runs a source. -/
def runSource (fuel : Nat) (source : String) (m : Machine) : Ending × Machine :=
  match Program.ofSource source with
  | .error diagnostics => (.rejected diagnostics, m)
  | .ok program =>
    match (program.run fuel).outcome m with
    | (.done _, m) => (.completed, m)
    | (.failed error, m) => (.stopped error, m)
    | (.unfinished, m) => (.unfinished, m)

/-- Carries out statements one by one up to the first failure, and observes each outcome on the
machine that it leaves, before the next statement can change what a result refers to. A statement
that ends with a result does not keep the next one from running. -/
def executeEach {α : Type} (fuel : Nat) (observe : Machine → Outcome Flow → α) :
    List Stmt → Machine → List α × Machine
  | [], m => ([], m)
  | s :: rest, m =>
    match (execute fuel s).outcome m with
    | (.done flow, m) =>
      let observed := observe m (.done flow)
      match executeEach fuel observe rest m with
      | (others, m) => (observed :: others, m)
    | (outcome, m) => ([observe m outcome], m)

/-- Adds a scope inside of the global one, with some bindings, and gives its number. -/
def openScope (m : Machine) (locals : List (String × Value)) : Nat × Machine :=
  let scope := m.scopes.size
  let inside := m.scopes.push (some globals)
  (scope, { m with scopes := locals.foldl (fun f l => f.declare scope l.1 l.2) inside })

/-- Carries out statements in a scope. -/
def executeIn (fuel : Nat) (scope : Nat) (statements : List Stmt) (m : Machine) :
    Outcome Flow × Machine :=
  (Run.inScope scope (inOrder (execute fuel) statements)).outcome m

/-- The function that a global name is bound to. -/
def function? (m : Machine) (name : String) : Option Closure :=
  match m.global? name with
  | some (.function f) => some f
  | _ => none

/-- Calls a function with any number of arguments: those beyond its parameters are dropped, and
parameters beyond the arguments stay unbound. -/
def callFunction (fuel : Nat) (f : Closure) (args : List Value) (m : Machine) :
    Outcome Value × Machine :=
  (f.invoke (execute fuel) args).outcome m

end Machine

/-! ### Values from outside -/

/-- A value without identity, as a host writes it down. -/
inductive Datum where
  | null
  | bool (value : Bool)
  | number (value : Float)
  | string (text : String)
  | list (items : List Datum)

mutual

/-- Makes a value on a heap, with a new array for each list. -/
def Heap.ofDatum (h : Heap) : Datum → Value × Heap
  | .null => (.null, h)
  | .bool value => (.bool value, h)
  | .number value => (.number value, h)
  | .string text => (.string text, h)
  | .list items =>
    match h.ofData items with
    | (values, h) => h.newArray values.toArray

/-- Makes values one after the other. -/
def Heap.ofData (h : Heap) : List Datum → List Value × Heap
  | [] => ([], h)
  | item :: rest =>
    match h.ofDatum item with
    | (value, h) =>
      match h.ofData rest with
      | (values, h) => (value :: values, h)

end

/-- Makes values on the heap of a machine. -/
def Machine.ofData (m : Machine) (items : List Datum) : List Value × Machine :=
  match m.heap.ofData items with
  | (values, heap) => (values, { m with heap })

end Treewalk
