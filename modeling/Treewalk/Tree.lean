import Treewalk.Token

/-! # Programs as trees

What the parser produces and the interpreter runs. Names and the closing brackets of calls and
indexing are kept as tokens, and operator nodes keep the span of their operator, so a running
program can say where it failed. Nothing here demands that a token has the kind its place asks for:
trees may be put together by hand. -/

namespace Treewalk

/-- The value of a literal expression. -/
inductive Literal where
  | null
  | bool (value : Bool)
  | number (value : Float)
  | string (text : String)
deriving DecidableEq

/-- Operators with one operand. -/
inductive UnaryOp where
  | neg
  | not
deriving DecidableEq, Repr

/-- Operators that evaluate both operands. -/
inductive BinaryOp where
  | add | sub | mul | div | rem | pow
  | eq | ne | lt | le | gt | ge
deriving DecidableEq, Repr

/-- Operators that evaluate the right operand only if the left one does not decide. -/
inductive LogicalOp where
  | and
  | or
deriving DecidableEq, Repr

/-- What a read statement expects on its line. -/
inductive ReadKind where
  | number
  | string
  | boolean
deriving DecidableEq, Repr

/-- Expressions. -/
inductive Expr where
  | literal (value : Literal)
  | group (inner : Expr)
  | unary (op : UnaryOp) (operand : Expr) (span : Span)
  | binary (op : BinaryOp) (left right : Expr) (span : Span)
  | logical (op : LogicalOp) (left right : Expr)
  | assign (name : Token) (value : Expr)
  | name (token : Token)
  | call (callee : Expr) (args : List Expr) (paren : Token)
  | array (elements : List Expr)
  | index (object position : Expr) (bracket : Token)
  | indexAssign (object position value : Expr) (bracket : Token)

/-- Statements. A conditional with an alternative is a form of its own. -/
inductive Stmt where
  | expression (value : Expr)
  | print (keyword : Token) (value : Expr)
  | declare (name : Token) (init : Option Expr)
  | block (body : List Stmt)
  | ifThen (condition : Expr) (consequent : Stmt)
  | ifThenElse (condition : Expr) (consequent alternative : Stmt)
  | loop (condition : Expr) (body : Stmt)
  | function (name : Token) (params : List Token) (body : List Stmt)
  | result (keyword : Token) (value : Option Expr)
  | read (kind : ReadKind) (keyword : Token) (target : Expr)

/-- A program is a list of statements. -/
structure Program where
  statements : List Stmt

/-! ### Written forms of the operators -/

/-- How an operator with one operand is written. -/
def UnaryOp.text : UnaryOp → String
  | neg => "-"
  | not => "!"

/-- How an operator that evaluates both operands is written. -/
def BinaryOp.text : BinaryOp → String
  | add => "+"
  | sub => "-"
  | mul => "*"
  | div => "/"
  | rem => "%"
  | pow => "^"
  | eq => "=="
  | ne => "!="
  | lt => "<"
  | le => "<="
  | gt => ">"
  | ge => ">="

/-- How a logical operator is written. -/
def LogicalOp.text : LogicalOp → String
  | and => "and"
  | or => "or"

/-- How the keyword that reads is written. -/
def ReadKind.text : ReadKind → String
  | number => "readnumber"
  | string => "readstring"
  | boolean => "readboolean"

end Treewalk
