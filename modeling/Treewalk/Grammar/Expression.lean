import Treewalk.Grammar.Connective
import Treewalk.Grammar.Step

/-! # The grammar of expressions

```text
expression → ( IDENT | call "[" expression "]" ) "=" expression | chain of the loosest level
chain      → operand ( connective of the level  operand )*
operand    → chain of the next tighter level, or unary
unary      → ( "!" | "-" ) unary | call
call       → primary ( "(" arguments? ")" | "[" expression "]" )*
primary    → "true" | "false" | "null" | NUMBER | STRING | IDENT
           | "(" expression ")" | "[" arguments? "]"
arguments  → expression ( "," expression )*
```

Each production is a function from the tokens to a `Step`. The part of a production that repeats is
a function of its own, which gets what has been read so far. The recursion is bounded by the number
of tokens, and among productions that start at the same token by their order in the grammar. -/

namespace Treewalk.Grammar

/-- Does the next token have this kind? -/
def starts (kind : Kind) : List Token → Bool
  | t :: _ => t.kind == kind
  | [] => false

/-- The literal that a token stands for. A number or string token stands for the value it carries,
of whatever type, and for nothing if it carries none. -/
def literal? (t : Token) : Option Literal :=
  match t.kind with
  | .falseWord => some (.bool false)
  | .trueWord => some (.bool true)
  | .nullWord => some .null
  | .number | .string =>
    t.literal.map fun
      | .number value => .number value
      | .string text => .string text
  | _ => none

/-- The operator in front of an operand that a kind of token stands for. -/
def unaryOp? : Kind → Option UnaryOp
  | .bang => some .not
  | .minus => some .neg
  | _ => none

/-- The assignment of a value to what has been read in front of an equals sign. If that cannot be
assigned to, the fault is noted at the equals sign, the value is dropped, and reading goes on. -/
def assignTo {n k : Nat} (target : Expr) (equals : Token) (value : Step Expr n k) : Step Expr n k :=
  match target with
  | .name token => value.map (.assign token)
  | .index object position bracket => value.map fun v => .indexAssign object position v bracket
  | other => (value.map fun _ => other).note (.syntactic equals .assignmentTarget)

mutual

/-- An expression. -/
def expression (tokens : List Token) : Step Expr tokens.length 1 :=
  (chain .or tokens).bind fun target rest _ => assignment target rest
termination_by 20 * tokens.length + 18
decreasing_by
  all_goals
    have := Level.or.depth_le
    omega

/-- What may follow the left side of an assignment: an equals sign and the right side. -/
def assignment (target : Expr) (tokens : List Token) : Step Expr tokens.length 0 :=
  match tokens with
  | t :: rest =>
    if t.kind = .eq then (assignTo target t ((expression rest).behind t)).maybe
    else .pure target (t :: rest)
  | [] => .pure target []
termination_by 20 * tokens.length

/-- Operands of one level with its connectives between them. -/
def chain (l : Level) (tokens : List Token) : Step Expr tokens.length 1 :=
  (operand l tokens).bind fun left rest _ => chainMore l left rest
termination_by 20 * tokens.length + 5 + 2 * l.depth

/-- An operand of a level. -/
def operand (l : Level) (tokens : List Token) : Step Expr tokens.length 1 :=
  match _h : l.tighter? with
  | some tighter => chain tighter tokens
  | none => unary tokens
termination_by 20 * tokens.length + 4 + 2 * l.depth
decreasing_by
  · have := Level.depth_of_tighter? _h
    omega
  · omega

/-- The rest of a chain behind what has been read of it. -/
def chainMore (l : Level) (left : Expr) (tokens : List Token) : Step Expr tokens.length 0 :=
  match tokens with
  | t :: rest =>
    match Connective.atLevel? l t.kind with
    | some c =>
      (((operand l rest).bind fun right rest' _ =>
        chainMore l (c.join left right t.span) rest').behind
        t).maybe
    | none => .pure left (t :: rest)
  | [] => .pure left []
termination_by 20 * tokens.length
decreasing_by
  all_goals
    have := l.depth_le
    simp only [List.length_cons] at *
    omega

/-- Operators in front of an operand. -/
def unary (tokens : List Token) : Step Expr tokens.length 1 :=
  match tokens with
  | t :: rest =>
    match unaryOp? t.kind with
    | some op => (((unary rest).map fun inner => .unary op inner t.span).behind t).once
    | none => call (t :: rest)
  | [] => call []
termination_by 20 * tokens.length + 3

/-- A primary with its calls and indices. -/
def call (tokens : List Token) : Step Expr tokens.length 1 :=
  (primary tokens).bind fun callee rest _ => callMore callee rest
termination_by 20 * tokens.length + 2

/-- The calls and indices behind what has been read. -/
def callMore (callee : Expr) (tokens : List Token) : Step Expr tokens.length 0 :=
  match tokens with
  | t :: rest =>
    if t.kind = .lParen then
      (((arguments .rParen rest).bind fun args rest' _ =>
        (Step.expect .rParen .parenAfterArguments rest').bind fun paren rest'' _ =>
        callMore (.call callee args paren) rest'').behind t).maybe
    else if t.kind = .lBracket then
      (((expression rest).bind fun position rest' _ =>
        (Step.expect .rBracket .bracketAfterIndex rest').bind fun bracket rest'' _ =>
        callMore (.index callee position bracket) rest'').behind t).maybe
    else .pure callee (t :: rest)
  | [] => .pure callee []
termination_by 20 * tokens.length

/-- A literal, a name, an expression in parentheses or an array. -/
def primary (tokens : List Token) : Step Expr tokens.length 1 :=
  match tokens with
  | t :: rest =>
    match literal? t with
    | some value => (Step.pure (.literal value) rest).behind t
    | none =>
      match t.kind with
      | .identifier => (Step.pure (.name t) rest).behind t
      | .lParen =>
        (((expression rest).bind fun inner rest' _ =>
          (Step.expect .rParen .parenAfterExpression rest').map fun _ =>
            .group inner).behind t).once
      | .lBracket =>
        (((arguments .rBracket rest).bind fun elements rest' _ =>
          (Step.expect .rBracket .bracketAfterElements rest').map fun _ =>
            .array elements).behind t).once
      | _ => .fail .expression (t :: rest)
  | [] => .fail .expression []
termination_by 20 * tokens.length + 1

/-- Expressions with commas between them, possibly none, up to a closing token, which is not
    read. -/
def arguments (close : Kind) (tokens : List Token) : Step (List Expr) tokens.length 0 :=
  if starts close tokens then .pure [] tokens
  else
    ((expression tokens).bind fun first rest _ =>
      (argumentsMore rest).map (first :: ·)).maybe
termination_by 20 * tokens.length + 19

/-- The rest of the arguments behind one of them. -/
def argumentsMore (tokens : List Token) : Step (List Expr) tokens.length 0 :=
  match tokens with
  | t :: rest =>
    if t.kind = .comma then
      (((expression rest).bind fun next rest' _ =>
        (argumentsMore rest').map (next :: ·)).behind t).maybe
    else .pure [] (t :: rest)
  | [] => .pure [] []
termination_by 20 * tokens.length

end

end Treewalk.Grammar
