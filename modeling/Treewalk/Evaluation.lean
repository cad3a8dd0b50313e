import Treewalk.Machine

/-! # Evaluation

What a tree does to a machine. `evaluate` gives the value of an expression and `execute` carries out
a statement, which ends normally or with a result that leaves the function around it. Operands,
arguments and elements are evaluated from left to right, each exactly once.

A program need not end, so both take *fuel*, a bound on how deeply they may nest. The turns of a
loop nest, each in the one before it. A run without enough fuel stops with `Stop.outOfFuel`, which
no program can see or cause otherwise; more fuel changes nothing else. -/

namespace Treewalk

/-- How a statement ends: normally, or with the result of the function that it belongs to. -/
inductive Flow where
  | normal
  | result (value : Value)

/-- Carries out statements in their order, up to the first one that ends with a result. -/
def inOrder (step : Stmt → Run Flow) : List Stmt → Run Flow
  | [] => pure .normal
  | s :: rest => do
    match ← step s with
    | .normal => inOrder step rest
    | .result value => pure (.result value)

/-- Binds parameters to arguments, as far as there are both. -/
def bindAll : List Token → List Value → Run Unit
  | param :: params, arg :: args => do
    Run.declare param.lexeme arg
    bindAll params args
  | _, _ => pure ()

/-- Runs the body of a function with its parameters bound to arguments. Around its scope is the
global one, wherever the function was declared or called. A body that ends without a result gives
null. -/
def Closure.invoke (step : Stmt → Run Flow) (f : Closure) (args : List Value) : Run Value :=
  Run.inNewScope Machine.globals do
    bindAll f.params args
    match ← inOrder step f.body with
    | .normal => pure .null
    | .result value => pure value

/-- Calls a value: it has to be a function, with as many parameters as there are arguments. -/
def call (step : Stmt → Run Flow) (callee : Value) (args : List Value) (paren : Token) :
    Run Value :=
  match callee with
  | .function f =>
    if f.params.length = args.length then f.invoke step args
    else Run.fail (.atToken paren (.arity f.params.length args.length))
  | _ => Run.fail (.atToken paren .notCallable)

/-- The value of an expression that may be left out; without one it is null. -/
def evaluateOr (step : Expr → Run Value) : Option Expr → Run Value
  | some e => step e
  | none => pure .null

/-- Reads a line into a variable. Only a name can be read into, and anything else is refused before
the line is taken. -/
def readInto (kind : ReadKind) (keyword : Token) (target : Expr) : Run Unit :=
  match target with
  | .name token => do
    let line ← Run.readLine
    let value ← Run.orFail keyword.span (Input.valueOfLine kind line)
    Run.assign token value
  | _ => Run.fail (.atToken keyword .readTarget)

mutual

/-- The value of an expression. -/
def evaluate (fuel : Nat) (e : Expr) : Run Value :=
  match fuel with
  | 0 => throw .outOfFuel
  | fuel + 1 =>
    match e with
    | .literal value => pure (.ofLiteral value)
    | .group inner => evaluate fuel inner
    | .unary op operand span => do
      let value ← evaluate fuel operand
      Run.orFail span (op.apply value)
    | .binary op left right span => do
      let left ← evaluate fuel left
      let right ← evaluate fuel right
      Run.onHeap span (op.apply · left right)
    | .logical op left right => do
      let left ← evaluate fuel left
      if op.decidedBy left then pure left else evaluate fuel right
    | .assign token value => do
      let value ← evaluate fuel value
      Run.assign token value
      pure value
    | .name token => Run.lookup token
    | .call callee args paren => do
      -- A value that cannot be called is refused only after its arguments have been evaluated.
      let callee ← evaluate fuel callee
      let args ← args.mapM (evaluate fuel)
      call (execute fuel) callee args paren
    | .array elements => do
      let elements ← elements.mapM (evaluate fuel)
      Run.allocate (·.newArray elements.toArray)
    | .index object position bracket => do
      let object ← evaluate fuel object
      let position ← evaluate fuel position
      let slot ← Run.onHeap bracket.span (·.slot object position)
      Run.query (·.heap.element slot)
    | .indexAssign object position value bracket => do
      let object ← evaluate fuel object
      let position ← evaluate fuel position
      -- The slot has to be there before the value is evaluated. Arrays keep their size, so it still
      -- is after.
      let slot ← Run.onHeap bracket.span (·.slot object position)
      let value ← evaluate fuel value
      Run.store slot value
      pure value

/-- Carries out a statement. -/
def execute (fuel : Nat) (s : Stmt) : Run Flow :=
  match fuel with
  | 0 => throw .outOfFuel
  | fuel + 1 =>
    match s with
    | .expression value => do
      let _ ← evaluate fuel value
      pure .normal
    | .print keyword value => do
      let value ← evaluate fuel value
      let line ← Run.query (·.display value)
      Run.print keyword line
      pure .normal
    | .declare token init => do
      let value ← evaluateOr (evaluate fuel) init
      Run.declare token.lexeme value
      pure .normal
    | .block body => do
      let current ← Run.query Machine.current
      Run.inNewScope current (inOrder (execute fuel) body)
    | .ifThen condition consequent => do
      let value ← evaluate fuel condition
      if value.isTruthy then execute fuel consequent else pure .normal
    | .ifThenElse condition consequent alternative => do
      let value ← evaluate fuel condition
      if value.isTruthy then execute fuel consequent else execute fuel alternative
    | .loop condition body => do
      let value ← evaluate fuel condition
      if value.isTruthy then
        match ← execute fuel body with
        | .normal => execute fuel s
        | .result value => pure (.result value)
      else pure .normal
    | .function token params body => do
      let value ← Run.allocate (·.newFunction token params body)
      Run.declare token.lexeme value
      pure .normal
    | .result _ value => do
      let value ← evaluateOr (evaluate fuel) value
      pure (.result value)
    | .read kind keyword target => do
      readInto kind keyword target
      pure .normal

end

/-- Runs a program. It ends at the first statement that ends with a result, which is dropped. -/
def Program.run (fuel : Nat) (p : Program) : Run Unit := do
  let _ ← inOrder (execute fuel) p.statements
  pure ()

end Treewalk
