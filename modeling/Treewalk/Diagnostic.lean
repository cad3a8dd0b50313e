import Treewalk.Token

/-! # Faults and diagnostics

Everything that can be wrong with a program is a *fault*, a value that says what happened. There are
three types of them, one per phase: `LexicalFault` for text that is no token, `SyntaxFault` for a
token that the grammar does not allow, `RuntimeFault` for an operation that cannot be carried out.
`message` is the only place where a fault is put into words.

A `Diagnostic` is a fault with the place to blame. `RuntimeError` is the form in which a running
program stops with a fault. -/

namespace Treewalk

/-- What is wrong with a piece of source text. -/
inductive LexicalFault where
  | unsupportedCharacter (c : Char)
  | unterminatedString
  | invalidNumber (text : String)
deriving DecidableEq

/-- What the grammar asks for at a token that is not it. -/
inductive SyntaxFault where
  | variableName
  | semiAfterVariable
  | functionName
  | parenAfterFunctionName
  | parameterName
  | parenAfterParameters
  | braceBeforeBody
  | semiAfterValue
  | semiAfterExpression
  | parenAfterIf
  | parenAfterIfCondition
  | parenAfterWhile
  | parenAfterWhileCondition
  | semiAfterReturn
  | semiAfterReadTarget
  | braceAfterBlock
  | parenAfterArguments
  | bracketAfterIndex
  | parenAfterExpression
  | bracketAfterElements
  | expression
  | assignmentTarget
deriving DecidableEq

/-- Why a running program cannot go on. -/
inductive RuntimeFault where
  | undefinedName (name : String)
  | operandNotNumber
  | operandsNotNumbers
  | operandsNotAlike
  | notCallable
  | arity (expected given : Nat)
  | notIndexable
  | indexNotInteger
  | indexOutOfRange
  | readTarget
  | unreadableInput (reason : String)
  | endOfInput
  | numberExpected
  | booleanExpected
  | unwritableOutput (reason : String)
deriving DecidableEq

/-- A lexical fault in words. -/
def LexicalFault.message : LexicalFault → String
  | unsupportedCharacter c => "Unsupported character '" ++ String.singleton c ++ "'."
  | unterminatedString => "Unterminated string."
  | invalidNumber text => "Invalid number '" ++ text ++ "'."

/-- A syntax fault in words. -/
def SyntaxFault.message : SyntaxFault → String
  | variableName => "Expected variable name."
  | semiAfterVariable => "Expected ';' after variable declaration."
  | functionName => "Expected function name."
  | parenAfterFunctionName => "Expected '(' after function name."
  | parameterName => "Expected parameter name."
  | parenAfterParameters => "Expected ')' after parameters."
  | braceBeforeBody => "Expected '\x7b' before function body."
  | semiAfterValue => "Expected ';' after value."
  | semiAfterExpression => "Expected ';' after expression."
  | parenAfterIf => "Expected '(' after 'if'."
  | parenAfterIfCondition => "Expected ')' after if condition."
  | parenAfterWhile => "Expected '(' after 'while'."
  | parenAfterWhileCondition => "Expected ')' after condition."
  | semiAfterReturn => "Expected ';' after return value."
  | semiAfterReadTarget => "Expected ';' after read target."
  | braceAfterBlock => "Expected '\x7d' after block."
  | parenAfterArguments => "Expected ')' after arguments."
  | bracketAfterIndex => "Expected ']' after index."
  | parenAfterExpression => "Expected ')' after expression."
  | bracketAfterElements => "Expected ']' after array elements."
  | expression => "Expected expression."
  | assignmentTarget => "Invalid assignment target."

/-- A runtime fault in words. -/
def RuntimeFault.message : RuntimeFault → String
  | undefinedName name => "Undefined variable '" ++ name ++ "'."
  | operandNotNumber => "Operand must be a number."
  | operandsNotNumbers => "Operands must be numbers."
  | operandsNotAlike => "Operands must be two numbers or two strings."
  | notCallable => "Expected function call."
  | arity expected given =>
    "Expected " ++ toString expected ++ " arguments but got " ++ toString given ++ "."
  | notIndexable => "Only arrays can be indexed."
  | indexNotInteger => "Array index must be an integer."
  | indexOutOfRange => "Array index out of range."
  | readTarget => "Read target must be a variable."
  | unreadableInput reason => "Could not read input: " ++ reason ++ "."
  | endOfInput => "Unexpected end of input."
  | numberExpected => "Number value expected."
  | booleanExpected => "Boolean value expected."
  | unwritableOutput reason => "Could not write output: " ++ reason ++ "."

/-- The phases of a run, in the order in which they look at a program. -/
inductive Phase where
  | lexical
  | syntactic
  | runtime
deriving DecidableEq, Repr

/-- The name of a phase. -/
def Phase.name : Phase → String
  | lexical => "Lexical"
  | syntactic => "Syntax"
  | runtime => "Runtime"

/-- How a diagnostic introduces its phase. -/
def Phase.heading (p : Phase) : String := p.name ++ " error"

/-- A fault of any phase. -/
inductive Fault where
  | lexical (fault : LexicalFault)
  | syntactic (fault : SyntaxFault)
  | runtime (fault : RuntimeFault)
deriving DecidableEq

/-- The phase that a fault belongs to. -/
def Fault.phase : Fault → Phase
  | lexical _ => .lexical
  | syntactic _ => .syntactic
  | runtime _ => .runtime

/-- A fault in words. -/
def Fault.message : Fault → String
  | lexical fault => fault.message
  | syntactic fault => fault.message
  | runtime fault => fault.message

/-- The fault that stops a running program, and the span it happened at. -/
structure RuntimeError where
  fault : RuntimeFault
  span : Span
deriving DecidableEq

namespace RuntimeError

/-- The fault at the place of a token. -/
def atToken (token : Token) (fault : RuntimeFault) : RuntimeError := ⟨fault, token.span⟩

/-- The error in words: the message, and the line on a line of its own. -/
def text (e : RuntimeError) : String :=
  e.fault.message ++ "\n[line " ++ toString e.span.line ++ "]"

end RuntimeError

/-- A reported problem: the fault, the line and span to blame, and for a syntax error what the
parser was looking at there. -/
structure Diagnostic where
  fault : Fault
  line : Nat
  span : Span
  near : Option String
deriving DecidableEq

namespace Diagnostic

/-- A piece of text that is no token. -/
def lexical (span : Span) (fault : LexicalFault) : Diagnostic :=
  ⟨.lexical fault, span.line, span, none⟩

/-- How a syntax error names the token it is about: by its quoted text, or as the end. -/
def nearText (token : Token) : String :=
  if token.kind = .eof then "end" else "'" ++ token.lexeme ++ "'"

/-- A token that the grammar does not allow. -/
def syntactic (token : Token) (fault : SyntaxFault) : Diagnostic :=
  ⟨.syntactic fault, token.line, token.span, some (nearText token)⟩

/-- The fault that stopped a running program. -/
def runtime (e : RuntimeError) : Diagnostic := ⟨.runtime e.fault, e.span.line, e.span, none⟩

/-- The phase that reports. -/
def phase (d : Diagnostic) : Phase := d.fault.phase

/-- The fault in words. -/
def message (d : Diagnostic) : String := d.fault.message

/-- The whole diagnostic on one line. -/
def text (d : Diagnostic) : String :=
  "[line " ++ toString d.line ++ "] " ++ d.phase.heading ++
    (match d.near with
      | some near => " at " ++ near
      | none => "") ++
    ": " ++ d.message

end Diagnostic

end Treewalk
