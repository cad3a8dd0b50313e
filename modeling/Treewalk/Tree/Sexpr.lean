import Treewalk.Number.Layout
import Treewalk.Tree

/-! # Programs as S-expressions

The outline of a tree: every node is a list that starts with its operator or keyword, leaves are
names and literals, and positions are left out. `-7 * (5)` becomes `(* (- 7) (group 5))`. The
outline is first built as an `Sexpr` and then written as text, so what it holds and how it is
written can be looked at apart. -/

namespace Treewalk

/-- A piece of text, or a list of S-expressions. -/
inductive Sexpr where
  | leaf (text : String)
  | list (items : List Sexpr)

namespace Sexpr

mutual

/-- Writes an S-expression: the items of a list in parentheses, with a space between two of them. -/
def text : Sexpr → String
  | leaf text => text
  | list items => "(" ++ " ".intercalate (texts items) ++ ")"

/-- Writes each of some S-expressions. -/
def texts : List Sexpr → List String
  | [] => []
  | item :: rest => text item :: texts rest

end

/-- The texts of a list are the texts of its items. -/
@[simp] theorem texts_eq_map (items : List Sexpr) : texts items = items.map text := by
  induction items with
  | nil => rfl
  | cons item rest ih => simp [texts, ih]

end Sexpr

/-- A literal as an S-expression shows it. The text of a string stands as it is between double
    quotes. -/
def Literal.text : Literal → String
  | null => "null"
  | bool true => "true"
  | bool false => "false"
  | number value => Number.text value
  | string text => "\"" ++ text ++ "\""

/-- The name that a token stands for, as an S-expression. -/
def Token.sexpr (t : Token) : Sexpr := .leaf t.lexeme

mutual

/-- The outline of an expression. -/
def Expr.sexpr : Expr → Sexpr
  | .literal value => .leaf value.text
  | .group inner => .list [.leaf "group", inner.sexpr]
  | .unary op operand _ => .list [.leaf op.text, operand.sexpr]
  | .binary op left right _ => .list [.leaf op.text, left.sexpr, right.sexpr]
  | .logical op left right => .list [.leaf op.text, left.sexpr, right.sexpr]
  | .assign token value => .list [.leaf "=", token.sexpr, value.sexpr]
  | .name token => token.sexpr
  | .call callee args _ => .list (.leaf "call" :: callee.sexpr :: Expr.sexprs args)
  | .array elements => .list (.leaf "array" :: Expr.sexprs elements)
  | .index object position _ => .list [.leaf "index", object.sexpr, position.sexpr]
  | .indexAssign object position value _ =>
    .list [.leaf "=", .list [.leaf "index", object.sexpr, position.sexpr], value.sexpr]

/-- The outline of each of some expressions. -/
def Expr.sexprs : List Expr → List Sexpr
  | [] => []
  | e :: rest => e.sexpr :: Expr.sexprs rest

end

/-- The outline of an expression that may be left out. -/
def Expr.sexpr? (e? : Option Expr) : List Sexpr := (e?.map Expr.sexpr).toList

mutual

/-- The outline of a statement. -/
def Stmt.sexpr : Stmt → Sexpr
  | .expression value => .list [.leaf "expr", value.sexpr]
  | .print _ value => .list [.leaf "print", value.sexpr]
  | .declare name init => .list (.leaf "variable" :: name.sexpr :: Expr.sexpr? init)
  | .block body => .list (.leaf "block" :: Stmt.sexprs body)
  | .ifThen condition consequent => .list [.leaf "if", condition.sexpr, consequent.sexpr]
  | .ifThenElse condition consequent alternative =>
    .list [.leaf "if", condition.sexpr, consequent.sexpr, alternative.sexpr]
  | .loop condition body => .list [.leaf "while", condition.sexpr, body.sexpr]
  | .function name params body =>
    .list (.leaf "function" :: name.sexpr :: .list (params.map Token.sexpr) :: Stmt.sexprs body)
  | .result _ value => .list (.leaf "return" :: Expr.sexpr? value)
  | .read kind _ target => .list [.leaf kind.text, target.sexpr]

/-- The outline of each of some statements. -/
def Stmt.sexprs : List Stmt → List Sexpr
  | [] => []
  | s :: rest => s.sexpr :: Stmt.sexprs rest

end

/-- The outline of a program as text, a line per statement. -/
def Program.outline (p : Program) : String := "\n".intercalate (p.statements.map (·.sexpr.text))

end Treewalk
