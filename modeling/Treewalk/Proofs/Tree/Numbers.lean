import Treewalk.Proofs.Number.Reading
import Treewalk.Tree

/-!
# The numbers in a tree

`Program.numbers` lists all doubles that a program holds, which are those of its literals and those
that its tokens carry. Programs can hold any double, but only those that are neither infinite nor no
number are written in a way that they can be told apart by.
-/

namespace Treewalk

/-- Can all of these numbers be told apart by how they are written? -/
def AllFinite (numbers : List Float) : Prop := ∀ x ∈ numbers, Number.IsFinite x

/-- Where there are no numbers, all are finite. -/
@[simp] theorem allFinite_nil : AllFinite [] := List.forall_mem_nil _

/-- A single number is all there is. -/
@[simp] theorem allFinite_singleton {x : Float} : AllFinite [x] ↔ Number.IsFinite x :=
  List.forall_mem_singleton

/-- All numbers of two lists are finite if those of both are. -/
@[simp] theorem allFinite_append {a b : List Float} :
    AllFinite (a ++ b) ↔ AllFinite a ∧ AllFinite b :=
  List.forall_mem_append

/-- The double that a literal stands for. -/
def Literal.numbers : Literal → List Float
  | number value => [value]
  | _ => []

/-- The double that is the value of a token. -/
def TokenLiteral.numbers : TokenLiteral → List Float
  | number value => [value]
  | string _ => []

/-- The double that a token carries. -/
def Token.numbers (t : Token) : List Float := t.literal.elim [] TokenLiteral.numbers

mutual

/-- The doubles in an expression. -/
def Expr.numbers : Expr → List Float
  | .literal value => value.numbers
  | .group inner => inner.numbers
  | .unary _ operand _ => operand.numbers
  | .binary _ left right _ => left.numbers ++ right.numbers
  | .logical _ left right => left.numbers ++ right.numbers
  | .assign token value => token.numbers ++ value.numbers
  | .name token => token.numbers
  | .call callee args paren => callee.numbers ++ Expr.numbersOf args ++ paren.numbers
  | .array elements => Expr.numbersOf elements
  | .index object position bracket => object.numbers ++ position.numbers ++ bracket.numbers
  | .indexAssign object position value bracket =>
    object.numbers ++ position.numbers ++ value.numbers ++ bracket.numbers

/-- The doubles in some expressions. -/
def Expr.numbersOf : List Expr → List Float
  | [] => []
  | e :: rest => e.numbers ++ Expr.numbersOf rest

end

/-- The doubles in an expression that may be left out. -/
def Expr.numbers? : Option Expr → List Float
  | some e => e.numbers
  | none => []

mutual

/-- The doubles in a statement. -/
def Stmt.numbers : Stmt → List Float
  | .expression value => value.numbers
  | .print keyword value => keyword.numbers ++ value.numbers
  | .declare name init => name.numbers ++ Expr.numbers? init
  | .block body => Stmt.numbersOf body
  | .ifThen condition consequent => condition.numbers ++ consequent.numbers
  | .ifThenElse condition consequent alternative =>
    condition.numbers ++ consequent.numbers ++ alternative.numbers
  | .loop condition body => condition.numbers ++ body.numbers
  | .function name params body =>
    name.numbers ++ params.flatMap Token.numbers ++ Stmt.numbersOf body
  | .result keyword value => keyword.numbers ++ Expr.numbers? value
  | .read _ keyword target => keyword.numbers ++ target.numbers

/-- The doubles in some statements. -/
def Stmt.numbersOf : List Stmt → List Float
  | [] => []
  | s :: rest => s.numbers ++ Stmt.numbersOf rest

end

/-- The doubles in a program. -/
def Program.numbers (p : Program) : List Float := Stmt.numbersOf p.statements

end Treewalk
