import Treewalk.Tree.Dump

/-! # Reading dumps

`Program.ofDump?` reads the program that a dump was written from. The parts of a node are found by
their names, so their order does not matter; a part that is missing or has the wrong form makes the
whole dump unreadable. It is meant for dumps as they are written, where every part stands in its
node and one that is optional and absent is null. There it reads what a reader derived by serde
reads; only such a reader would also take an optional part that is left out of its node for an
absent one. -/

namespace Treewalk

namespace Dump

/-- The content of a field is smaller than the fields. -/
theorem sizeOf_lookup {name : String} {fields : List (String × Dump)} {content : Dump}
    (h : fields.lookup name = some content) : sizeOf content < sizeOf fields := by
  induction fields with
  | nil => simp at h
  | cons field rest ih =>
    obtain ⟨key, value⟩ := field
    rw [List.lookup_cons] at h
    split at h
    · -- The content is part of the field that is found, and that is part of the fields.
      cases h
      simp only [List.cons.sizeOf_spec, Prod.mk.sizeOf_spec]
      omega
    · have := ih h
      simp only [List.cons.sizeOf_spec]
      omega

/-- The content of a field of a record. It is smaller than the record. -/
def field? (d : Dump) (name : String) : Option { content : Dump // sizeOf content < sizeOf d } :=
  match d with
  | record fields =>
    match h : fields.lookup name with
    | some content =>
      some ⟨content, by have := sizeOf_lookup h; simp only [record.sizeOf_spec]; omega⟩
    | none => none
  | _ => none

/-- The items of a list. -/
def items? (d : Dump) : Option { items : List Dump // sizeOf items < sizeOf d } :=
  match d with
  | list items => some ⟨items, by simp only [list.sizeOf_spec]; omega⟩
  | _ => none

/-- The form of a node and its content, which is smaller than the node. -/
def variant? (d : Dump) : Option (String × { content : Dump // sizeOf content < sizeOf d }) :=
  match d with
  | record [(form, content)] => some (form, ⟨content, by simp; omega⟩)
  | _ => none

/-- Was a part left out? -/
def isNull : Dump → Bool
  | null => true
  | _ => false

/-- A natural number. -/
def nat? : Dump → Option Nat
  | nat value => some value
  | _ => none

/-- A text. -/
def text? : Dump → Option String
  | text value => some value
  | _ => none

/-- A truth value. -/
def bool? : Dump → Option Bool
  | bool value => some value
  | _ => none

/-- A number. -/
def number? : Dump → Option Float
  | number value => some value
  | _ => none

/-- Something that is null if it was left out. -/
def optional? {α : Type} (read : Dump → Option α) : Dump → Option (Option α)
  | null => some none
  | d => (read d).map some

/-- What a text names, out of all that it could name. -/
def named? {α : Type} (all : List α) (name : α → String) (d : Dump) : Option α :=
  d.text?.bind fun text => all.find? (name · == text)

end Dump

/-- All operators with one operand. -/
def UnaryOp.all : List UnaryOp := [neg, not]

/-- All operators that evaluate both operands. -/
def BinaryOp.all : List BinaryOp := [add, sub, mul, div, rem, pow, eq, ne, lt, le, gt, ge]

/-- All logical operators. -/
def LogicalOp.all : List LogicalOp := [and, or]

/-- All that can be read. -/
def ReadKind.all : List ReadKind := [number, string, boolean]

/-- Reads a span. -/
def Span.ofDump? (d : Dump) : Option Span := do
  let start ← d.field? "start"
  let stop ← d.field? "end"
  let line ← d.field? "line"
  return ⟨← start.val.nat?, ← stop.val.nat?, ← line.val.nat?⟩

/-- Reads the value that a token carries. -/
def TokenLiteral.ofDump? (d : Dump) : Option TokenLiteral :=
  match d.variant? with
  | some ("Number", content) => content.val.number?.map number
  | some ("String", content) => content.val.text?.map string
  | _ => none

/-- Reads a token. -/
def Token.ofDump? (d : Dump) : Option Token := do
  let kind ← d.field? "kind"
  let lexeme ← d.field? "lexeme"
  let literal ← d.field? "literal"
  let line ← d.field? "line"
  let span ← d.field? "span"
  return {
    kind := ← Dump.named? Kind.all Kind.name kind.val
    lexeme := ← lexeme.val.text?
    literal := ← Dump.optional? TokenLiteral.ofDump? literal.val
    line := ← line.val.nat?
    span := ← Span.ofDump? span.val }

/-- Reads a literal. -/
def Literal.ofDump? (d : Dump) : Option Literal :=
  match d with
  | .text "Null" => some null
  | d =>
    match d.variant? with
    | some ("Bool", content) => content.val.bool?.map bool
    | some ("Number", content) => content.val.number?.map number
    | some ("String", content) => content.val.text?.map string
    | _ => none

mutual

/-- Reads an expression. -/
def Expr.ofDump? (d : Dump) : Option Expr := do
  let (form, ⟨content, _⟩) ← d.variant?
  match form with
  | "Literal" =>
    let ⟨value, _⟩ ← content.field? "value"
    return .literal (← Literal.ofDump? value)
  | "Grouping" =>
    let ⟨inner, _⟩ ← content.field? "inner"
    return .group (← Expr.ofDump? inner)
  | "Unary" =>
    let ⟨op, _⟩ ← content.field? "op"
    let ⟨operand, _⟩ ← content.field? "operand"
    let ⟨span, _⟩ ← content.field? "span"
    return .unary (← Dump.named? UnaryOp.all UnaryOp.name op) (← Expr.ofDump? operand)
      (← Span.ofDump? span)
  | "Binary" =>
    let ⟨left, _⟩ ← content.field? "left"
    let ⟨op, _⟩ ← content.field? "op"
    let ⟨right, _⟩ ← content.field? "right"
    let ⟨span, _⟩ ← content.field? "span"
    return .binary (← Dump.named? BinaryOp.all BinaryOp.name op) (← Expr.ofDump? left)
      (← Expr.ofDump? right) (← Span.ofDump? span)
  | "Logical" =>
    let ⟨left, _⟩ ← content.field? "left"
    let ⟨op, _⟩ ← content.field? "op"
    let ⟨right, _⟩ ← content.field? "right"
    return .logical (← Dump.named? LogicalOp.all LogicalOp.name op) (← Expr.ofDump? left)
      (← Expr.ofDump? right)
  | "Assign" =>
    let ⟨token, _⟩ ← content.field? "name"
    let ⟨value, _⟩ ← content.field? "value"
    return .assign (← Token.ofDump? token) (← Expr.ofDump? value)
  | "Variable" =>
    let ⟨token, _⟩ ← content.field? "name"
    return .name (← Token.ofDump? token)
  | "Call" =>
    let ⟨callee, _⟩ ← content.field? "callee"
    let ⟨args, _⟩ ← content.field? "args"
    let ⟨args, _⟩ ← args.items?
    let ⟨paren, _⟩ ← content.field? "paren"
    return .call (← Expr.ofDump? callee) (← Expr.ofDumps? args) (← Token.ofDump? paren)
  | "Array" =>
    let ⟨elements, _⟩ ← content.field? "elements"
    let ⟨elements, _⟩ ← elements.items?
    return .array (← Expr.ofDumps? elements)
  | "Index" =>
    let ⟨object, _⟩ ← content.field? "object"
    let ⟨position, _⟩ ← content.field? "index"
    let ⟨bracket, _⟩ ← content.field? "bracket"
    return .index (← Expr.ofDump? object) (← Expr.ofDump? position) (← Token.ofDump? bracket)
  | "IndexAssign" =>
    let ⟨object, _⟩ ← content.field? "object"
    let ⟨position, _⟩ ← content.field? "index"
    let ⟨value, _⟩ ← content.field? "value"
    let ⟨bracket, _⟩ ← content.field? "bracket"
    return .indexAssign (← Expr.ofDump? object) (← Expr.ofDump? position) (← Expr.ofDump? value)
      (← Token.ofDump? bracket)
  | _ => none
termination_by sizeOf d

/-- Reads each of some expressions. -/
def Expr.ofDumps? (ds : List Dump) : Option (List Expr) :=
  match ds with
  | [] => some []
  | d :: rest => do return (← Expr.ofDump? d) :: (← Expr.ofDumps? rest)
termination_by sizeOf ds

end

mutual

/-- Reads a statement. -/
def Stmt.ofDump? (d : Dump) : Option Stmt := do
  let (form, ⟨content, _⟩) ← d.variant?
  match form with
  | "Expression" => return .expression (← Expr.ofDump? content)
  | "Print" =>
    let ⟨keyword, _⟩ ← content.field? "keyword"
    let ⟨value, _⟩ ← content.field? "value"
    return .print (← Token.ofDump? keyword) (← Expr.ofDump? value)
  | "Variable" =>
    let ⟨name, _⟩ ← content.field? "name"
    let ⟨init, _⟩ ← content.field? "init"
    return .declare (← Token.ofDump? name) (← Dump.optional? Expr.ofDump? init)
  | "Block" =>
    let ⟨body, _⟩ ← content.items?
    return .block (← Stmt.ofDumps? body)
  | "If" =>
    let ⟨condition, _⟩ ← content.field? "condition"
    let ⟨consequent, _⟩ ← content.field? "then_branch"
    let ⟨alternative, _⟩ ← content.field? "else_branch"
    let condition ← Expr.ofDump? condition
    let consequent ← Stmt.ofDump? consequent
    if alternative.isNull then return .ifThen condition consequent
    else return .ifThenElse condition consequent (← Stmt.ofDump? alternative)
  | "While" =>
    let ⟨condition, _⟩ ← content.field? "condition"
    let ⟨body, _⟩ ← content.field? "body"
    return .loop (← Expr.ofDump? condition) (← Stmt.ofDump? body)
  | "Function" =>
    let ⟨name, _⟩ ← content.field? "name"
    let ⟨params, _⟩ ← content.field? "params"
    let ⟨params, _⟩ ← params.items?
    let ⟨body, _⟩ ← content.field? "body"
    let ⟨body, _⟩ ← body.items?
    return .function (← Token.ofDump? name) (← params.mapM Token.ofDump?) (← Stmt.ofDumps? body)
  | "Return" =>
    let ⟨keyword, _⟩ ← content.field? "keyword"
    let ⟨value, _⟩ ← content.field? "value"
    return .result (← Token.ofDump? keyword) (← Dump.optional? Expr.ofDump? value)
  | "Read" =>
    let ⟨kind, _⟩ ← content.field? "kind"
    let ⟨keyword, _⟩ ← content.field? "keyword"
    let ⟨target, _⟩ ← content.field? "target"
    return .read (← Dump.named? ReadKind.all ReadKind.name kind) (← Token.ofDump? keyword)
      (← Expr.ofDump? target)
  | _ => none
termination_by sizeOf d

/-- Reads each of some statements. -/
def Stmt.ofDumps? (ds : List Dump) : Option (List Stmt) :=
  match ds with
  | [] => some []
  | d :: rest => do return (← Stmt.ofDump? d) :: (← Stmt.ofDumps? rest)
termination_by sizeOf ds

end

/-- Reads a program. -/
def Program.ofDump? (d : Dump) : Option Program := do
  let statements ← d.field? "statements"
  let items ← statements.val.items?
  return ⟨← Stmt.ofDumps? items.val⟩

end Treewalk
