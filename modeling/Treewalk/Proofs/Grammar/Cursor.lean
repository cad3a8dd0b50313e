import Treewalk.Grammar.Statement

/-!
# The grammar for a cursor

The productions of the grammar are functions from the tokens that are ahead, and these end in front
of the first end mark. Here are the same productions for a parser that has all tokens and a position
in them. It sees the token at its position, and behind the last one a mark that is put where that
one ends. In front of an end mark of either kind it does not move on, whatever may stand behind it.

A production gives up by having no value, and all that follows it in another production is then left
out. Nothing in the cursor bounds the recursion, so a reader takes fuel, a bound on how deeply
productions may nest, and has no outcome at all without enough of it. How much is enough is to be
proved.
-/

namespace Treewalk

/-- Where a parser is, and what it has recorded so far. -/
structure Cursor where
  tokens : List Token
  position : Nat
  notes : List Diagnostic

namespace Cursor

/-- In front of all tokens. -/
def start (tokens : List Token) : Cursor := ⟨tokens, 0, []⟩

/-- The end mark that is seen behind the last token. -/
def mark (c : Cursor) : Token :=
  match c.tokens.getLast? with
  | some last => .eof last.span.stop last.line
  | none => .eof 0 1

/-- The token at the position. -/
def current (c : Cursor) : Token := c.tokens[c.position]?.getD c.mark

/-- The token in front of the position. -/
def previous (c : Cursor) : Token := c.tokens[c.position - 1]?.getD c.mark

/-- Is the token at the position of this kind? -/
def isAt (c : Cursor) (kind : Kind) : Bool := c.current.kind == kind

/-- One position further on, but not past an end mark. -/
def advance (c : Cursor) : Cursor :=
  if c.isAt .eof then c else { c with position := c.position + 1 }

/-- Records a fault at a token. -/
def record (c : Cursor) (token : Token) (fault : SyntaxFault) : Cursor :=
  { c with notes := c.notes ++ [.syntactic token fault] }

end Cursor

/-- What a parser does with its cursor, unless it runs out of fuel. -/
abbrev Reader := StateT Cursor Option

namespace Reader

/-- Something about the cursor. -/
def look {α : Type} (f : Cursor → α) : Reader α := do return f (← get)

/-- Moves on, and has the token that is then in front of the cursor. -/
def advance : Reader Token := do
  modify Cursor.advance
  look Cursor.previous

/-- Moves on behind a token of this kind, or stays. -/
def eat (kind : Kind) : Reader (Option Token) := do
  if ← look (·.isAt kind) then return some (← advance) else return none

/-- Records a fault at a token. -/
def record (token : Token) (fault : SyntaxFault) : Reader Unit := modify (·.record token fault)

/-- Gives up because of a fault. -/
def refuse {α : Type} (token : Token) (fault : SyntaxFault) : Reader (Option α) := do
  record token fault
  return none

/-- Moves on behind a token of this kind, or gives up. -/
def expect (kind : Kind) (fault : SyntaxFault) : Reader (Option Token) := do
  if ← look (·.isAt kind) then return some (← advance) else refuse (← look Cursor.current) fault

/-- Moves on behind a semicolon, or in front of a token that starts a statement. -/
def skip (fuel : Nat) : Reader Unit :=
  match fuel with
  | 0 => failure
  | fuel + 1 => do
    if ← look (·.isAt .eof) then return ()
    if (← look Cursor.previous).kind = .semi then return ()
    if (← look Cursor.current).kind.startsStatement then return ()
    let _ ← advance
    skip fuel

/-- Moves on to where reading goes on after a fault, past the token that it is at. -/
def synchronize (fuel : Nat) : Reader Unit := do
  let _ ← advance
  skip fuel

open Grammar

/-! ## Expressions

The productions have the names that they have in the grammar. -/

/-- The assignment of a value to what has been read in front of an equals sign. If that cannot be
    assigned to, this is recorded, and there is no assignment. -/
def assignTo (target : Expr) (equals : Token) (value : Expr) : Reader (Option Expr) := do
  match target with
  | .name token => return some (.assign token value)
  | .index object position bracket => return some (.indexAssign object position value bracket)
  | other =>
    record equals .assignmentTarget
    return some other

mutual

def expression (fuel : Nat) : Reader (Option Expr) :=
  match fuel with
  | 0 => failure
  | fuel + 1 => do
    let some target ← chain fuel .or | return none
    assignment fuel target

def assignment (fuel : Nat) (target : Expr) : Reader (Option Expr) :=
  match fuel with
  | 0 => failure
  | fuel + 1 => do
    match ← eat .eq with
    | none => return some target
    | some equals =>
      let some value ← expression fuel | return none
      assignTo target equals value

def chain (fuel : Nat) (l : Level) : Reader (Option Expr) :=
  match fuel with
  | 0 => failure
  | fuel + 1 => do
    let some left ← operand fuel l | return none
    chainMore fuel l left

def operand (fuel : Nat) (l : Level) : Reader (Option Expr) :=
  match fuel with
  | 0 => failure
  | fuel + 1 =>
    match l.tighter? with
    | some tighter => chain fuel tighter
    | none => unary fuel

def chainMore (fuel : Nat) (l : Level) (left : Expr) : Reader (Option Expr) :=
  match fuel with
  | 0 => failure
  | fuel + 1 => do
    match Connective.atLevel? l (← look Cursor.current).kind with
    | some c =>
      let token ← advance
      let some right ← operand fuel l | return none
      chainMore fuel l (c.join left right token.span)
    | none => return some left

def unary (fuel : Nat) : Reader (Option Expr) :=
  match fuel with
  | 0 => failure
  | fuel + 1 => do
    match unaryOp? (← look Cursor.current).kind with
    | some op =>
      let token ← advance
      let some value ← unary fuel | return none
      return some (.unary op value token.span)
    | none => call fuel

def call (fuel : Nat) : Reader (Option Expr) :=
  match fuel with
  | 0 => failure
  | fuel + 1 => do
    let some callee ← primary fuel | return none
    callMore fuel callee

def callMore (fuel : Nat) (callee : Expr) : Reader (Option Expr) :=
  match fuel with
  | 0 => failure
  | fuel + 1 => do
    match ← eat .lParen with
    | some _ =>
      let some args ← arguments fuel .rParen | return none
      let some paren ← expect .rParen .parenAfterArguments | return none
      callMore fuel (.call callee args paren)
    | none =>
      match ← eat .lBracket with
      | some _ =>
        let some position ← expression fuel | return none
        let some bracket ← expect .rBracket .bracketAfterIndex | return none
        callMore fuel (.index callee position bracket)
      | none => return some callee

def primary (fuel : Nat) : Reader (Option Expr) :=
  match fuel with
  | 0 => failure
  | fuel + 1 => do
    let token ← look Cursor.current
    match literal? token with
    | some value =>
      let _ ← advance
      return some (.literal value)
    | none =>
      match token.kind with
      | .identifier => return some (.name (← advance))
      | .lParen =>
        let _ ← advance
        let some inner ← expression fuel | return none
        let some _ ← expect .rParen .parenAfterExpression | return none
        return some (.group inner)
      | .lBracket =>
        let _ ← advance
        let some elements ← arguments fuel .rBracket | return none
        let some _ ← expect .rBracket .bracketAfterElements | return none
        return some (.array elements)
      | _ => refuse token .expression

def arguments (fuel : Nat) (close : Kind) : Reader (Option (List Expr)) :=
  match fuel with
  | 0 => failure
  | fuel + 1 => do
    if ← look (·.isAt close) then return some []
    let some first ← expression fuel | return none
    let some others ← argumentsMore fuel | return none
    return some (first :: others)

def argumentsMore (fuel : Nat) : Reader (Option (List Expr)) :=
  match fuel with
  | 0 => failure
  | fuel + 1 => do
    match ← eat .comma with
    | some _ =>
      let some next ← expression fuel | return none
      let some others ← argumentsMore fuel | return none
      return some (next :: others)
    | none => return some []

end

/-! ## Statements -/

def terminated (fuel : Nat) (fault : SyntaxFault) : Reader (Option Expr) := do
  let some value ← expression fuel | return none
  let some _ ← expect .semi fault | return none
  return some value

def initializer (fuel : Nat) : Reader (Option (Option Expr)) := do
  match ← eat .eq with
  | some _ =>
    let some value ← expression fuel | return none
    return some (some value)
  | none => return some none

def variableDeclaration (fuel : Nat) : Reader (Option Stmt) := do
  let some name ← expect .identifier .variableName | return none
  let some init ← initializer fuel | return none
  let some _ ← expect .semi .semiAfterVariable | return none
  return some (.declare name init)

def parametersMore (fuel : Nat) : Reader (Option (List Token)) :=
  match fuel with
  | 0 => failure
  | fuel + 1 => do
    match ← eat .comma with
    | some _ =>
      let some next ← expect .identifier .parameterName | return none
      let some others ← parametersMore fuel | return none
      return some (next :: others)
    | none => return some []

def parameters (fuel : Nat) : Reader (Option (List Token)) := do
  if ← look (·.isAt .rParen) then return some []
  let some first ← expect .identifier .parameterName | return none
  let some others ← parametersMore fuel | return none
  return some (first :: others)

def signature (fuel : Nat) : Reader (Option (Token × List Token)) := do
  let some name ← expect .identifier .functionName | return none
  let some _ ← expect .lParen .parenAfterFunctionName | return none
  let some params ← parameters fuel | return none
  let some _ ← expect .rParen .parenAfterParameters | return none
  let some _ ← expect .lBrace .braceBeforeBody | return none
  return some (name, params)

def condition (fuel : Nat) (opening closing : SyntaxFault) : Reader (Option Expr) := do
  let some _ ← expect .lParen opening | return none
  let some value ← expression fuel | return none
  let some _ ← expect .rParen closing | return none
  return some value

def result (fuel : Nat) (keyword : Token) : Reader (Option Stmt) := do
  if ← look (·.isAt .semi) then
    let some _ ← expect .semi .semiAfterReturn | return none
    return some (.result keyword none)
  else
    let some value ← terminated fuel .semiAfterReturn | return none
    return some (.result keyword (some value))

mutual

/-- A declaration. One that gives up is dropped, and reading goes on behind it. -/
def declaration (fuel : Nat) : Reader (Option Stmt) :=
  match fuel with
  | 0 => failure
  | fuel + 1 => do
    let some s ← declared fuel | do
      synchronize fuel
      return none
    return some s

def declared (fuel : Nat) : Reader (Option Stmt) :=
  match fuel with
  | 0 => failure
  | fuel + 1 => do
    match ← eat .variableWord with
    | some _ => variableDeclaration fuel
    | none =>
      match ← eat .functionWord with
      | some _ =>
        let some head ← signature fuel | return none
        let some body ← block fuel [] | return none
        return some (.function head.1 head.2 body)
      | none => statement fuel

def statement (fuel : Nat) : Reader (Option Stmt) :=
  match fuel with
  | 0 => failure
  | fuel + 1 => do
    let token ← look Cursor.current
    match readKind? token.kind with
    | some kind =>
      let keyword ← advance
      let some target ← terminated fuel .semiAfterReadTarget | return none
      return some (.read kind keyword target)
    | none =>
      match token.kind with
      | .ifWord =>
        let _ ← advance
        let some test ← condition fuel .parenAfterIf .parenAfterIfCondition | return none
        let some consequent ← statement fuel | return none
        alternative fuel test consequent
      | .whileWord =>
        let _ ← advance
        let some test ← condition fuel .parenAfterWhile .parenAfterWhileCondition | return none
        let some body ← statement fuel | return none
        return some (.loop test body)
      | .printWord =>
        let keyword ← advance
        let some value ← terminated fuel .semiAfterValue | return none
        return some (.print keyword value)
      | .returnWord =>
        let keyword ← advance
        result fuel keyword
      | .lBrace =>
        let _ ← advance
        let some body ← block fuel [] | return none
        return some (.block body)
      | _ =>
        let some value ← terminated fuel .semiAfterExpression | return none
        return some (.expression value)

def alternative (fuel : Nat) (test : Expr) (consequent : Stmt) : Reader (Option Stmt) :=
  match fuel with
  | 0 => failure
  | fuel + 1 => do
    match ← eat .elseWord with
    | some _ =>
      let some other ← statement fuel | return none
      return some (.ifThenElse test consequent other)
    | none => return some (.ifThen test consequent)

/-- The declarations of a block behind those that have been read, through the brace that closes
    it. -/
def block (fuel : Nat) (body : List Stmt) : Reader (Option (List Stmt)) :=
  match fuel with
  | 0 => failure
  | fuel + 1 => do
    if ← look fun c => c.isAt .rBrace || c.isAt .eof then
      let some _ ← expect .rBrace .braceAfterBlock | return none
      return some body
    else
      let first ← declaration fuel
      block fuel (body ++ first.toList)

end

/-- All declarations behind those that have been read, up to an end mark. -/
def declarations (fuel : Nat) (statements : List Stmt) : Reader (List Stmt) :=
  match fuel with
  | 0 => failure
  | fuel + 1 => do
    if ← look (·.isAt .eof) then return statements
    else
      let first ← declaration fuel
      declarations fuel (statements ++ first.toList)

end Reader

/-- What the parser makes of a list of tokens with a cursor, unless it runs out of fuel. -/
def Parsed.byCursor (fuel : Nat) (tokens : List Token) : Option Parsed := do
  let (statements, c) ← (Reader.declarations fuel []).run (.start tokens)
  return ⟨⟨statements⟩, c.notes⟩

end Treewalk
