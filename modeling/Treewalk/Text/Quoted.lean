import Treewalk.Text.Cluster.Classes
import Treewalk.Text.Printable

/-! # Quoted text

The form in which a string value is shown where its ends and its invisible characters must be
visible: in double quotes, with the quote, the backslash, NUL, tab and the two line ends as two
characters each, and every other character that is not printable or that only modifies its neighbour
as its code point in braces. Single quotes stay as they are. -/

namespace Treewalk.Text

/-- Does a character only modify its neighbour? The five skin tones extend a picture but are
pictures themselves. -/
def isModifier (c : Char) : Bool :=
  inRanges extendRanges c.toNat && !inRanges [(0x1F3FB, 0x1F3FF)] c.toNat

/-- Is a character shown by its code point? -/
def isHidden (c : Char) : Bool :=
  -- What is between the space and the tilde is in neither table.
  if ' ' ≤ c ∧ c ≤ '~' then false else !isPrintable c || isModifier c

/-- The letter that stands for a character behind a backslash. -/
def escapeLetter? : Char → Option Char
  | '\x00' => some '0'
  | '\t' => some 't'
  | '\r' => some 'r'
  | '\n' => some 'n'
  | '"' => some '"'
  | '\\' => some '\\'
  | _ => none

/-- A character as it stands between the quotes. -/
def quoteChar (c : Char) : List Char :=
  match escapeLetter? c with
  | some letter => ['\\', letter]
  | none =>
    if isHidden c then '\\' :: 'u' :: '\x7b' :: Nat.toDigits 16 c.toNat ++ ['\x7d'] else [c]

/-- A text in double quotes. -/
def quote (text : List Char) : List Char := '"' :: text.flatMap quoteChar ++ ['"']

end Treewalk.Text
