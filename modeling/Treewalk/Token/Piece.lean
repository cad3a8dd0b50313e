import Treewalk.Token

/-! # Pieces of a source

A source text falls into consecutive pieces: runs of blanks, line breaks, comments, tokens,
characters that belong to no token, and at most one string that the source ends inside of.
`Piece.cut` finds the piece at the front of a text, always the longest there is, and `Piece.all`
repeats it to the end.

`text_cut` says that nothing is lost or added; with it `text_all`, that the pieces tile the
source. -/

namespace Treewalk

/-- A piece of source text. A comment runs from its two slashes to the end of its line, a line break
not included. -/
inductive Piece where
  | blanks (text : List Char)
  | newline
  | comment (text : List Char)
  | token (kind : Kind) (text : List Char)
  | stray (c : Char)
  | unterminated (text : List Char)
deriving DecidableEq, Repr

namespace Piece

/-- The text of a piece. -/
def text : Piece → List Char
  | blanks text => text
  | newline => ['\n']
  | comment text => text
  | token _ text => text
  | stray c => [c]
  | unterminated text => text

/-! ### Character classes -/

/-- Blanks separate tokens and mean nothing else. A line break is none of them, since it counts
    lines. -/
def isBlank (c : Char) : Bool := c == ' ' || c == '\t' || c == '\r' || c == '\x0c'

/-- Starts an identifier. Letters are the ASCII letters. -/
def startsWord (c : Char) : Bool := c.isAlpha || c == '_'

/-- Continues an identifier. -/
def continuesWord (c : Char) : Bool := c.isAlphanum || c == '_'

/-- The kind of a single character that is a token by itself. -/
def ofSymbol? : Char → Option Kind
  | '+' => some .plus
  | '-' => some .minus
  | '*' => some .star
  | '/' => some .slash
  | '%' => some .percent
  | '^' => some .caret
  | '!' => some .bang
  | '=' => some .eq
  | '<' => some .lt
  | '>' => some .gt
  | '(' => some .lParen
  | ')' => some .rParen
  | '[' => some .lBracket
  | ']' => some .rBracket
  | '\x7b' => some .lBrace
  | '\x7d' => some .rBrace
  | ',' => some .comma
  | ';' => some .semi
  | '.' => some .dot
  | _ => none

/-- The kind of a character that is a token together with an equals sign behind it. -/
def ofSymbolEq? : Char → Option Kind
  | '=' => some .eqEq
  | '!' => some .ne
  | '<' => some .le
  | '>' => some .ge
  | _ => none

/-! ### Cutting -/

/-- Splits off the longest run of a class. -/
def run (p : Char → Bool) (text : List Char) : List Char × List Char :=
  (text.takeWhile p, text.dropWhile p)

/-- Digits behind a first one, and a point with digits behind it if there is at least one such
    digit. -/
def cutNumber (text : List Char) : List Char × List Char :=
  match run Char.isDigit text with
  | (whole, '.' :: c :: rest) =>
    if c.isDigit then (whole ++ '.' :: (run Char.isDigit (c :: rest)).1,
      (run Char.isDigit (c :: rest)).2)
    else (whole, '.' :: c :: rest)
  | (whole, rest) => (whole, rest)

/-- The piece that starts with an operator or delimiter, or with a character that starts nothing. -/
def cutSymbol (c : Char) (rest : List Char) : Piece × List Char :=
  match ofSymbolEq? c, rest with
  | some kind, '=' :: rest => (token kind [c, '='], rest)
  | _, rest =>
    match ofSymbol? c with
    | some kind => (token kind [c], rest)
    | none => (stray c, rest)

/-- The piece that starts with a quote: a string up to the next quote, or all that is left. -/
def cutString (rest : List Char) : Piece × List Char :=
  match run (· != '"') rest with
  | (body, []) => (unterminated ('"' :: body), [])
  | (body, close :: rest) => (token .string ('"' :: body ++ [close]), rest)

/-- The piece at the front of the text `c :: rest`, and what is behind it. -/
def cut (c : Char) (rest : List Char) : Piece × List Char :=
  if isBlank c then (blanks (c :: (run isBlank rest).1), (run isBlank rest).2)
  else if c == '\n' then (newline, rest)
  -- Two slashes start a comment, so a slash in front of another one is no operator.
  else if c == '/' && rest.head? == some '/' then
    (comment (c :: (run (· != '\n') rest).1), (run (· != '\n') rest).2)
  else if c.isDigit then (token .number (c :: (cutNumber rest).1), (cutNumber rest).2)
  else if startsWord c then
    let word := run continuesWord rest
    (token (Kind.ofWord (String.ofList (c :: word.1))) (c :: word.1), word.2)
  else if c == '"' then cutString rest
  else cutSymbol c rest

/-- A run and what is behind it make up the text. -/
theorem run_append (p : Char → Bool) (text : List Char) :
    (run p text).1 ++ (run p text).2 = text := by
  simp [run]

/-- A number and what is behind it make up the text. -/
theorem cutNumber_append (text : List Char) : (cutNumber text).1 ++ (cutNumber text).2 = text := by
  have whole := run_append Char.isDigit text
  unfold cutNumber
  -- With a digit behind the point, the text is cut at two places.
  split
  · rename_i front c rest heq
    rw [heq] at whole
    split
    · simp only [List.append_assoc, List.cons_append, run_append]
      exact whole
    · exact whole
  · rename_i heq
    rw [heq] at whole
    exact whole

/-- A symbol and what is behind it make up the text. -/
private theorem text_cutSymbol (c : Char) (rest : List Char) :
    (cutSymbol c rest).1.text ++ (cutSymbol c rest).2 = c :: rest := by
  unfold cutSymbol
  split
  · simp [text]
  · split <;> simp [text]

/-- A string and what is behind it make up the text. -/
private theorem text_cutString (rest : List Char) :
    (cutString rest).1.text ++ (cutString rest).2 = '"' :: rest := by
  have body := run_append (· != '"') rest
  unfold cutString
  split
  · rename_i heq
    rw [heq] at body
    simpa [text] using body
  · rename_i heq
    rw [heq] at body
    simpa [text] using body

/-- Cutting loses nothing: the piece and what is behind it make up the text again. -/
theorem text_cut (c : Char) (rest : List Char) :
    (cut c rest).1.text ++ (cut c rest).2 = c :: rest := by
  unfold cut
  split
  · -- In each branch of `cut` the piece is the character and what was cut off behind it.
    simp [text, run_append]
  · split
    · rename_i h
      simp at h
      simp [text, h]
    · split
      · simp [text, run_append]
      · split
        · simp [text, cutNumber_append]
        · split
          · simp [text, run_append]
          · split
            · rename_i h
              simp at h
              simpa [h] using text_cutString rest
            · exact text_cutSymbol c rest

/-- No piece is empty. -/
theorem text_cut_ne_nil (c : Char) (rest : List Char) : (cut c rest).1.text ≠ [] := by
  unfold cut
  split
  · -- Every piece has the first character in it.
    simp [text]
  · split
    · simp [text]
    · split
      · simp [text]
      · split
        · simp [text]
        · split
          · simp [text]
          · split
            · unfold cutString
              split <;> simp [text]
            · unfold cutSymbol
              split
              · simp [text]
              · split <;> simp [text]

/-- What is behind the first piece is shorter than the text. -/
theorem length_cut_lt (c : Char) (rest : List Char) :
    (cut c rest).2.length < (c :: rest).length := by
  have whole := congrArg List.length (text_cut c rest)
  have := List.length_pos_iff.mpr (text_cut_ne_nil c rest)
  simp only [List.length_append] at whole
  omega

/-- The pieces of a text, in order. -/
def all : List Char → List Piece
  | [] => []
  | c :: rest => (cut c rest).1 :: all (cut c rest).2
termination_by text => text.length
decreasing_by exact length_cut_lt c rest

/-- The pieces tile the text. -/
theorem text_all (text : List Char) : (all text).flatMap Piece.text = text := by
  fun_induction all text with
  | case1 => rfl
  | case2 c rest ih => rw [List.flatMap_cons, ih, text_cut]

end Piece

end Treewalk
