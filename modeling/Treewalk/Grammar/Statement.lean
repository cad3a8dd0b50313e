import Treewalk.Grammar.Expression

/-! # The grammar of statements

```text
declaration → "variable" IDENT ( "=" expression )? ";"
            | "function" IDENT "(" parameters? ")" "{" block | statement
statement   → "if" "(" expression ")" statement ( "else" statement )?
            | "while" "(" expression ")" statement
            | "print" expression ";" | "return" expression? ";"
            | ( "readnumber" | "readstring" | "readboolean" ) expression ";"
            | "{" block | expression ";"
block       → declaration* "}"
parameters  → IDENT ( "," IDENT )*
```

A declaration is the unit of recovery. If the grammar is stuck inside one, the fault is noted at the
token it is stuck at, what has been read of the declaration is dropped, and `resume` finds the place
to go on from. So a declaration is never stuck, and it always uses up a token, which bounds the
recursion. `stop` is the token to blame for a fault at the end of the tokens. -/

namespace Treewalk.Grammar

/-- The diagnostic about a fault in front of `tokens`. -/
def blame (stop : Token) (tokens : List Token) (fault : SyntaxFault) : Diagnostic :=
  .syntactic (tokens.head?.getD stop) fault

/-- The place behind `previous` where reading goes on: behind a semicolon, or in front of a token
that can only start a statement. -/
def resumeBehind (previous : Token) : List Token → List Token
  | t :: rest =>
    if previous.kind = .semi ∨ t.kind.startsStatement then t :: rest else resumeBehind t rest
  | [] => []

/-- The place where reading goes on if the grammar is stuck in front of `tokens`. The first of them
is dropped in any case. -/
def resume : List Token → List Token
  | t :: rest => resumeBehind t rest
  | [] => []

/-- Resuming behind a token drops nothing or more. -/
theorem length_resumeBehind_le (previous : Token) (tokens : List Token) :
    (resumeBehind previous tokens).length ≤ tokens.length := by
  fun_induction resumeBehind previous tokens with
  | case1 => exact Nat.le_refl _
  | case2 _ _ _ _ ih => exact Nat.le_succ_of_le ih
  | case3 => exact Nat.le_refl _

/-- Resuming drops at least one token if there is one. -/
theorem length_resume_le (tokens : List Token) : (resume tokens).length ≤ tokens.length - 1 := by
  cases tokens with
  | nil => exact Nat.le_refl _
  | cons t rest => exact length_resumeBehind_le t rest

/-- What is read of a list of `n` tokens as one declaration: the statement unless it was dropped,
the tokens that are left, of which there are fewer, and the diagnostics. -/
structure Recovered (n : Nat) where
  statement? : Option Stmt
  rest : List Token
  notes : List Diagnostic
  fits : rest.length < n

/-- The declaration that a step is about, or what is left if the grammar is stuck. -/
def recover {n : Nat} (stop : Token) (h : 0 < n) : Step Stmt n 1 → Recovered n
  | .done statement rest notes fits => ⟨some statement, rest, notes, fits⟩
  | .stuck fault rest notes fits =>
    ⟨none, resume rest, notes ++ [blame stop rest fault], by have := length_resume_le rest; omega⟩

/-! ### Parts of statements -/

/-- The expression in front of a semicolon. -/
def terminated (fault : SyntaxFault) (tokens : List Token) : Step Expr tokens.length 1 :=
  ((expression tokens).bind fun value rest _ =>
    (Step.expect .semi fault rest).map fun _ => value).once

/-- What may stand between the name and the semicolon of a variable declaration. -/
def initializer (tokens : List Token) : Step (Option Expr) tokens.length 0 :=
  match tokens with
  | t :: rest =>
    if t.kind = .eq then (((expression rest).map some).behind t).maybe
    else .pure none (t :: rest)
  | [] => .pure none []

/-- A variable declaration behind its keyword. -/
def variableDeclaration (tokens : List Token) : Step Stmt tokens.length 1 :=
  ((Step.expect .identifier .variableName tokens).bind fun name rest _ =>
    (initializer rest).bind fun init rest' _ =>
    (Step.expect .semi .semiAfterVariable rest').map fun _ => .declare name init).once

/-- The rest of the parameters behind one of them. -/
def parametersMore (tokens : List Token) : Step (List Token) tokens.length 0 :=
  match tokens with
  | t :: rest =>
    if t.kind = .comma then
      (((Step.expect .identifier .parameterName rest).bind fun next rest' _ =>
        (parametersMore rest').map (next :: ·)).behind t).maybe
    else .pure [] (t :: rest)
  | [] => .pure [] []
termination_by tokens.length

/-- Names with commas between them, possibly none, up to a closing parenthesis, which is not
    read. -/
def parameters (tokens : List Token) : Step (List Token) tokens.length 0 :=
  if starts .rParen tokens then .pure [] tokens
  else
    ((Step.expect .identifier .parameterName tokens).bind fun first rest _ =>
      (parametersMore rest).map (first :: ·)).maybe

/-- The name and the parameters of a function, through the brace in front of its body. -/
def signature (tokens : List Token) : Step (Token × List Token) tokens.length 1 :=
  ((Step.expect .identifier .functionName tokens).bind fun name rest _ =>
    (Step.expect .lParen .parenAfterFunctionName rest).bind fun _ rest' _ =>
    (parameters rest').bind fun params rest'' _ =>
    (Step.expect .rParen .parenAfterParameters rest'').bind fun _ rest''' _ =>
    (Step.expect .lBrace .braceBeforeBody rest''').map fun _ => (name, params)).once

/-- A condition in its parentheses. -/
def condition (opening closing : SyntaxFault) (tokens : List Token) : Step Expr tokens.length 1 :=
  ((Step.expect .lParen opening tokens).bind fun _ rest _ =>
    (expression rest).bind fun value rest' _ =>
    (Step.expect .rParen closing rest').map fun _ => value).once

/-- A return statement behind its keyword. -/
def result (keyword : Token) (tokens : List Token) : Step Stmt tokens.length 1 :=
  match tokens with
  | t :: rest =>
    if t.kind = .semi then (Step.pure (.result keyword none) rest).behind t
    else (terminated .semiAfterReturn (t :: rest)).map fun value => .result keyword (some value)
  | [] => (terminated .semiAfterReturn []).map fun value => .result keyword (some value)

/-- What a keyword reads. -/
def readKind? : Kind → Option ReadKind
  | .readNumberWord => some .number
  | .readStringWord => some .string
  | .readBooleanWord => some .boolean
  | _ => none

mutual

/-- A declaration, read or recovered from. -/
def declaration (stop t : Token) (rest : List Token) : Recovered (rest.length + 1) :=
  recover stop (Nat.succ_pos _) (declared stop t rest)
termination_by 10 * rest.length + 14

/-- A declaration that starts at `t`. -/
def declared (stop t : Token) (rest : List Token) : Step Stmt (t :: rest).length 1 :=
  match t.kind with
  | .variableWord => ((variableDeclaration rest).behind t).once
  | .functionWord =>
    (((signature rest).bind fun head rest' _ =>
      (block stop rest').map fun body => .function head.1 head.2 body).behind t).once
  | _ => statement stop (t :: rest)
termination_by 10 * rest.length + 13

/-- A statement. -/
def statement (stop : Token) (tokens : List Token) : Step Stmt tokens.length 1 :=
  match tokens with
  | t :: rest =>
    -- The three read statements differ only in what they read.
    match readKind? t.kind with
    | some kind =>
      (((terminated .semiAfterReadTarget rest).map fun target => .read kind t target).behind t).once
    | none =>
      match t.kind with
      | .ifWord =>
        (((condition .parenAfterIf .parenAfterIfCondition rest).bind fun test rest' _ =>
          (statement stop rest').bind fun consequent rest'' _ =>
          alternative stop test consequent rest'').behind t).once
      | .whileWord =>
        (((condition .parenAfterWhile .parenAfterWhileCondition rest).bind fun test rest' _ =>
          (statement stop rest').map fun body => .loop test body).behind t).once
      | .printWord =>
        (((terminated .semiAfterValue rest).map fun value => .print t value).behind t).once
      | .returnWord => ((result t rest).behind t).once
      | .lBrace => (((block stop rest).map .block).behind t).once
      | _ => (terminated .semiAfterExpression (t :: rest)).map .expression
  | [] => (terminated .semiAfterExpression []).map .expression
termination_by 10 * tokens.length + 2

/-- What may follow the first branch of a conditional: a second one, which belongs to the nearest
conditional that is still without. -/
def alternative (stop : Token) (test : Expr) (consequent : Stmt) (tokens : List Token) :
    Step Stmt tokens.length 0 :=
  match tokens with
  | t :: rest =>
    if t.kind = .elseWord then
      (((statement stop rest).map fun other => .ifThenElse test consequent other).behind t).maybe
    else .pure (.ifThen test consequent) (t :: rest)
  | [] => .pure (.ifThen test consequent) []
termination_by 10 * tokens.length

/-- The declarations of a block behind its opening brace, through the closing one. -/
def block (stop : Token) (tokens : List Token) : Step (List Stmt) tokens.length 1 :=
  match tokens with
  | t :: rest =>
    if t.kind = .rBrace then (Step.pure [] rest).behind t
    else
      match declaration stop t rest with
      | ⟨statement?, rest', notes, fits⟩ =>
        (((block stop rest').map (statement?.toList ++ ·)).precede notes).within (j := 0)
          (by rw [List.length_cons]; omega)
  | [] => .fail .braceAfterBlock []
termination_by 10 * tokens.length + 5

end

/-- Declarations up to the end of the tokens. -/
def declarations (stop : Token) (tokens : List Token) : List Stmt × List Diagnostic :=
  match tokens with
  | t :: rest =>
    match declaration stop t rest with
    | ⟨statement?, rest', notes, _⟩ =>
      match declarations stop rest' with
      | (statements, notes') => (statement?.toList ++ statements, notes ++ notes')
  | [] => ([], [])
termination_by tokens.length

end Treewalk.Grammar

namespace Treewalk

/-- What the parser makes of a list of tokens: the program of all declarations that could be read,
and the diagnostics in the order in which they were noted. -/
structure Parsed where
  program : Program
  diagnostics : List Diagnostic

namespace Parsed

/-- The token that ends a list of tokens: its first end mark, or else one put behind its last
    token. -/
def stopOf (tokens : List Token) : Token :=
  match tokens.find? (·.kind == .eof) with
  | some stop => stop
  | none =>
    match tokens.getLast? with
    | some last => .eof last.span.stop last.line
    | none => .eof 0 1

/-- Parses the tokens in front of the first end mark. -/
def ofTokens (tokens : List Token) : Parsed :=
  match Grammar.declarations (stopOf tokens) (tokens.takeWhile (·.kind != .eof)) with
  | (statements, diagnostics) => ⟨⟨statements⟩, diagnostics⟩

/-- Is there anything wrong with the tokens? -/
def hasErrors (p : Parsed) : Bool := !p.diagnostics.isEmpty

end Parsed

end Treewalk
