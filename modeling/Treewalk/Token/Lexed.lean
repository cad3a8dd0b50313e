import Treewalk.Diagnostic
import Treewalk.Number.Numeral
import Treewalk.Text.Size
import Treewalk.Token.Piece

/-! # Lexing

`Lexed.ofSource` turns a source into its tokens and its lexical diagnostics. Both are read off the
pieces of the source, each put at its place: bytes and line breaks are counted piece by piece from
the front. Lexical faults never stop the lexer, and the last token is always the end mark. -/

namespace Treewalk

/-- A place in a source: the number of bytes in front of it, and its line, counted from one. -/
structure Place where
  offset : Nat
  line : Nat
deriving DecidableEq, Repr

namespace Place

/-- The front of a source. -/
def start : Place := ⟨0, 1⟩

/-- The place behind a text. -/
def after (p : Place) (text : List Char) : Place :=
  ⟨p.offset + Text.byteSize text, p.line + text.count '\n'⟩

/-- The span of a text at this place. -/
def spanOf (p : Place) (text : List Char) : Span := ⟨p.offset, (p.after text).offset, p.line⟩

end Place

namespace Piece

/-- Pieces with the spans that they take up one behind the other from a place on. -/
def locate : Place → List Piece → List (Piece × Span)
  | _, [] => []
  | p, piece :: rest => (piece, p.spanOf piece.text) :: locate (p.after piece.text) rest

/-- The text between the quotes of a string. -/
def unquote (text : List Char) : List Char := (text.drop 1).dropLast

/-- The token that a piece stands for, if it stands for one. A number whose value cannot be read
would stand for none. -/
def token? : Piece × Span → Option Token
  | (token .number text, span) =>
    (Number.ofNumeral? text).map fun value =>
      { Token.plain .number (String.ofList text) span with literal := some (.number value) }
  | (token .string text, span) =>
    some
      { Token.plain .string (String.ofList text) span with
        literal := some (.string (String.ofList (unquote text))) }
  | (token kind text, span) => some (Token.plain kind (String.ofList text) span)
  | _ => none

/-- The fault of a piece that is neither a token nor to be skipped. -/
def fault? : Piece → Option LexicalFault
  | token .number text =>
    if (Number.ofNumeral? text).isSome then none else some (.invalidNumber (String.ofList text))
  | stray c => some (.unsupportedCharacter c)
  | unterminated _ => some .unterminatedString
  | _ => none

/-- The diagnostic about a piece, if there is something wrong with it. -/
def diagnostic? (located : Piece × Span) : Option Diagnostic :=
  located.1.fault?.map (Diagnostic.lexical located.2)

end Piece

/-- What the lexer makes of a source. -/
structure Lexed where
  tokens : List Token
  diagnostics : List Diagnostic

namespace Lexed

/-- The place behind the last character of a text. -/
def endOf (text : List Char) : Place := Place.start.after text

/-- Lexes a text. -/
def ofText (text : List Char) : Lexed :=
  let located := Piece.locate .start (Piece.all text)
  { tokens := located.filterMap Piece.token? ++ [Token.eof (endOf text).offset (endOf text).line]
    diagnostics := located.filterMap Piece.diagnostic? }

/-- Lexes a source. -/
def ofSource (source : String) : Lexed := ofText source.toList

end Lexed

end Treewalk
