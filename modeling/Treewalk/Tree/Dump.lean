import Treewalk.Number.Binary
import Treewalk.Tree

/-! # Dumps of trees

A `Dump` is a value of a general data format: lists, records with named fields, and texts, numbers
and truth values as leaves. `Program.dump` writes a program as one, with everything it holds. A node
is a record with one field, named for the form of the node, whose value holds the parts; a form
without parts is its name as a text, and a part that is left out is null. `Program.ofDump?` in
`Treewalk.Tree.Dump.Read` goes back. -/

namespace Treewalk

/-- A value of the data format. -/
inductive Dump where
  | null
  | bool (value : Bool)
  | nat (value : Nat)
  | number (value : Float)
  | text (value : String)
  | list (items : List Dump)
  | record (fields : List (String × Dump))

namespace Dump

/-- A form with its content. -/
def variant (form : String) (content : Dump) : Dump := record [(form, content)]

/-- A double. The format has no way to write one that is infinite or not a number. -/
def ofFloat (x : Float) : Dump :=
  match Number.shape x with
  | .finite _ => number x
  | _ => null

/-- A part that may be left out. -/
def ofOption : Option Dump → Dump
  | some content => content
  | none => null

end Dump

/-- Writes a span. -/
def Span.dump (s : Span) : Dump :=
  .record [("start", .nat s.start), ("end", .nat s.stop), ("line", .nat s.line)]

/-- Writes the value that a token carries. -/
def TokenLiteral.dump : TokenLiteral → Dump
  | number value => .variant "Number" (.ofFloat value)
  | string text => .variant "String" (.text text)

/-- Writes a token. -/
def Token.dump (t : Token) : Dump :=
  .record
    [("kind", .text t.kind.name), ("lexeme", .text t.lexeme),
      ("literal", .ofOption (t.literal.map TokenLiteral.dump)), ("line", .nat t.line),
      ("span", t.span.dump)]

/-- Writes a literal. -/
def Literal.dump : Literal → Dump
  | null => .text "Null"
  | bool value => .variant "Bool" (.bool value)
  | number value => .variant "Number" (.ofFloat value)
  | string text => .variant "String" (.text text)

/-! ### Names of operators -/

/-- The name of an operator with one operand. -/
def UnaryOp.name : UnaryOp → String
  | neg => "Neg"
  | not => "Not"

/-- The name of an operator that evaluates both operands. -/
def BinaryOp.name : BinaryOp → String
  | add => "Add"
  | sub => "Sub"
  | mul => "Mul"
  | div => "Div"
  | rem => "Rem"
  | pow => "Pow"
  | eq => "Eq"
  | ne => "Ne"
  | lt => "Lt"
  | le => "Le"
  | gt => "Gt"
  | ge => "Ge"

/-- The name of a logical operator. -/
def LogicalOp.name : LogicalOp → String
  | and => "And"
  | or => "Or"

/-- The name of what is read. -/
def ReadKind.name : ReadKind → String
  | number => "Number"
  | string => "String"
  | boolean => "Boolean"

/-! ### Expressions and statements -/

mutual

/-- Writes an expression. -/
def Expr.dump : Expr → Dump
  | .literal value => .variant "Literal" (.record [("value", value.dump)])
  | .group inner => .variant "Grouping" (.record [("inner", inner.dump)])
  | .unary op operand span =>
    .variant "Unary" (.record [("op", .text op.name), ("operand", operand.dump),
      ("span", span.dump)])
  | .binary op left right span =>
    .variant "Binary"
      (.record
        [("left", left.dump), ("op", .text op.name), ("right", right.dump), ("span", span.dump)])
  | .logical op left right =>
    .variant "Logical" (.record [("left", left.dump), ("op", .text op.name), ("right", right.dump)])
  | .assign token value => .variant "Assign" (.record [("name", token.dump), ("value", value.dump)])
  | .name token => .variant "Variable" (.record [("name", token.dump)])
  | .call callee args paren =>
    .variant "Call"
      (.record [("callee", callee.dump), ("args", .list (Expr.dumps args)), ("paren", paren.dump)])
  | .array elements => .variant "Array" (.record [("elements", .list (Expr.dumps elements))])
  | .index object position bracket =>
    .variant "Index"
      (.record [("object", object.dump), ("index", position.dump), ("bracket", bracket.dump)])
  | .indexAssign object position value bracket =>
    .variant "IndexAssign"
      (.record
        [("object", object.dump), ("index", position.dump), ("value", value.dump),
          ("bracket", bracket.dump)])

/-- Writes each of some expressions. -/
def Expr.dumps : List Expr → List Dump
  | [] => []
  | e :: rest => e.dump :: Expr.dumps rest

end

/-- An expression that may be left out. -/
def Expr.dump? (e? : Option Expr) : Dump := .ofOption (e?.map Expr.dump)

mutual

/-- Writes a statement. -/
def Stmt.dump : Stmt → Dump
  | .expression value => .variant "Expression" value.dump
  | .print keyword value =>
    .variant "Print" (.record [("keyword", keyword.dump), ("value", value.dump)])
  | .declare name init =>
    .variant "Variable" (.record [("name", name.dump), ("init", Expr.dump? init)])
  | .block body => .variant "Block" (.list (Stmt.dumps body))
  | .ifThen condition consequent =>
    .variant "If"
      (.record
        [("condition", condition.dump), ("then_branch", consequent.dump), ("else_branch", .null)])
  | .ifThenElse condition consequent alternative =>
    .variant "If"
      (.record
        [("condition", condition.dump), ("then_branch", consequent.dump),
          ("else_branch", alternative.dump)])
  | .loop condition body =>
    .variant "While" (.record [("condition", condition.dump), ("body", body.dump)])
  | .function name params body =>
    .variant "Function"
      (.record
        [("name", name.dump), ("params", .list (params.map Token.dump)),
          ("body", .list (Stmt.dumps body))])
  | .result keyword value =>
    .variant "Return" (.record [("keyword", keyword.dump), ("value", Expr.dump? value)])
  | .read kind keyword target =>
    .variant "Read"
      (.record [("kind", .text kind.name), ("keyword", keyword.dump), ("target", target.dump)])

/-- Writes each of some statements. -/
def Stmt.dumps : List Stmt → List Dump
  | [] => []
  | s :: rest => s.dump :: Stmt.dumps rest

end

/-- Writes a program with everything it holds. -/
def Program.dump (p : Program) : Dump := .record [("statements", .list (Stmt.dumps p.statements))]

end Treewalk
