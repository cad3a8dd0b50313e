import Treewalk.Span

/-! # Tokens

The vocabulary of the language. `Kind` lists the kinds of token and `Token` is one token as it
stands in a source: its kind, its text, the value of a literal, and where it is. The lexer produces
tokens and the parser reads them; a list of tokens may also be put together by hand, so nothing here
assumes that a text fits its kind.

`Kind.reserved` holds the reserved words; `Kind.ofWord` finds the one that a word spells. -/

namespace Treewalk

/-- The kinds of token. Two of them name what the lexer meets and turns into no token: a line break,
and a string that the source ends inside of. `eof` marks the end of the source. -/
inductive Kind where
  | andWord | elseWord | falseWord | forWord | functionWord | ifWord | nullWord | orWord
  | printWord | readBooleanWord | readNumberWord | readStringWord
  | returnWord | trueWord | variableWord | whileWord
  | number | string | unterminatedString | identifier
  | plus | minus | star | slash | percent | caret | bang
  | eq | lt | gt | eqEq | ne | le | ge
  | lParen | rParen | lBracket | rBracket | lBrace | rBrace
  | comma | semi | dot | newline | eof
deriving DecidableEq, Repr, Inhabited

namespace Kind

/-- The sixteen reserved words, in alphabetical order. -/
def reserved : List Kind :=
  [andWord, elseWord, falseWord, forWord, functionWord, ifWord, nullWord, orWord, printWord,
    readBooleanWord, readNumberWord, readStringWord, returnWord, trueWord, variableWord, whileWord]

/-- Every kind, in the order of its declaration. -/
def all : List Kind :=
  reserved ++
    [number, string, unterminatedString, identifier, plus, minus, star, slash, percent, caret, bang,
      eq, lt, gt, eqEq, ne, le, ge, lParen, rParen, lBracket, rBracket, lBrace, rBrace, comma, semi,
      dot, newline, eof]

/-- Is this the kind of a reserved word? -/
def isKeyword (k : Kind) : Bool := reserved.contains k

/-- The kinds that can only stand at the start of a statement or declaration. After a syntax error
the parser resumes in front of such a token. -/
def startsStatement : Kind → Bool
  | functionWord | variableWord | forWord | ifWord | whileWord | printWord | returnWord
  | readBooleanWord | readNumberWord | readStringWord => true
  | _ => false

/-- The written form of a kind: its own text where it has only one, and otherwise a description in
angle brackets. -/
def text : Kind → String
  | andWord => "and"
  | elseWord => "else"
  | falseWord => "false"
  | forWord => "for"
  | functionWord => "function"
  | ifWord => "if"
  | nullWord => "null"
  | orWord => "or"
  | printWord => "print"
  | readBooleanWord => "readboolean"
  | readNumberWord => "readnumber"
  | readStringWord => "readstring"
  | returnWord => "return"
  | trueWord => "true"
  | variableWord => "variable"
  | whileWord => "while"
  | number => "<number>"
  | string => "<string>"
  | unterminatedString => "<unterminated string>"
  | identifier => "<identifier>"
  | plus => "+"
  | minus => "-"
  | star => "*"
  | slash => "/"
  | percent => "%"
  | caret => "^"
  | bang => "!"
  | eq => "="
  | lt => "<"
  | gt => ">"
  | eqEq => "=="
  | ne => "!="
  | le => "<="
  | ge => ">="
  | lParen => "("
  | rParen => ")"
  | lBracket => "["
  | rBracket => "]"
  | lBrace => "\x7b"
  | rBrace => "\x7d"
  | comma => ","
  | semi => ";"
  | dot => "."
  | newline => "<newline>"
  | eof => "<eof>"

/-- The name of a kind in token listings and tree dumps. -/
def name : Kind → String
  | andWord => "And"
  | elseWord => "Else"
  | falseWord => "False"
  | forWord => "For"
  | functionWord => "Function"
  | ifWord => "If"
  | nullWord => "Null"
  | orWord => "Or"
  | printWord => "Print"
  | readBooleanWord => "ReadBoolean"
  | readNumberWord => "ReadNumber"
  | readStringWord => "ReadString"
  | returnWord => "Return"
  | trueWord => "True"
  | variableWord => "Variable"
  | whileWord => "While"
  | number => "Number"
  | string => "String"
  | unterminatedString => "UnterminatedString"
  | identifier => "Identifier"
  | plus => "Plus"
  | minus => "Minus"
  | star => "Star"
  | slash => "Slash"
  | percent => "Percent"
  | caret => "Caret"
  | bang => "Bang"
  | eq => "Eq"
  | lt => "Lt"
  | gt => "Gt"
  | eqEq => "EqEq"
  | ne => "Ne"
  | le => "Le"
  | ge => "Ge"
  | lParen => "LParen"
  | rParen => "RParen"
  | lBracket => "LBracket"
  | rBracket => "RBracket"
  | lBrace => "LBrace"
  | rBrace => "RBrace"
  | comma => "Comma"
  | semi => "Semi"
  | dot => "Dot"
  | newline => "Newline"
  | eof => "Eof"

/-- The kind with a given name. -/
def ofName? (s : String) : Option Kind := all.find? (·.name == s)

/-- The kind of an identifier-shaped word: its own kind if it is reserved. -/
def ofWord (word : String) : Kind := (reserved.find? (·.text == word)).getD identifier

end Kind

/-- The value that a literal token carries. -/
inductive TokenLiteral where
  | number (value : Float)
  | string (text : String)
deriving DecidableEq

/-- A token of a source. `line` is the line reported in diagnostics about this token, and `span` is
where its text lies; the lexer gives both the same line. -/
structure Token where
  kind : Kind
  lexeme : String
  literal : Option TokenLiteral
  line : Nat
  span : Span
deriving DecidableEq

namespace Token

/-- The token of a given kind and text at `span`, with no literal. -/
def plain (kind : Kind) (lexeme : String) (span : Span) : Token :=
  ⟨kind, lexeme, none, span.line, span⟩

/-- The end mark at `offset`. Its text is empty. -/
def eof (offset line : Nat) : Token := plain .eof "" (.point offset line)

end Token

end Treewalk
