import Treewalk.Number.Layout
import Treewalk.Tree.Dump

/-! # Dumps as JSON text

`Dump.json` writes a dump in JSON with an item or field a line, indented by two spaces a level. A
list or record without content stays on its line. -/

namespace Treewalk.Dump

/-- The letter that stands for a character behind a backslash. -/
def jsonLetter? : Char → Option Char
  | '"' => some '"'
  | '\\' => some '\\'
  | '\x08' => some 'b'
  | '\x0c' => some 'f'
  | '\n' => some 'n'
  | '\r' => some 'r'
  | '\t' => some 't'
  | _ => none

/-- A character as it stands between the quotes of a JSON text. The controls below the space are
escaped, all others stand for themselves. -/
def jsonChar (c : Char) : List Char :=
  match jsonLetter? c with
  | some letter => ['\\', letter]
  | none =>
    if c.toNat < 0x20 then
      ['\\', 'u', '0', '0', Nat.digitChar (c.toNat / 16), Nat.digitChar (c.toNat % 16)]
    else [c]

/-- A text in JSON. -/
def jsonText (text : String) : String :=
  String.ofList ('"' :: text.toList.flatMap jsonChar ++ ['"'])

/-- A line break and the indentation of a level. -/
def jsonBreak (level : Nat) : String := String.ofList ('\n' :: List.replicate (2 * level) ' ')

/-- Parts between an opening and a closing bracket, each on a line of the next level. -/
def jsonBracket (level : Nat) (opening closing : String) (parts : List String) : String :=
  if parts.isEmpty then opening ++ closing
  else
    opening ++ jsonBreak (level + 1) ++ ("," ++ jsonBreak (level + 1)).intercalate parts ++
      jsonBreak level ++ closing

mutual

/-- Writes a dump at a level of indentation. -/
def jsonAt (level : Nat) : Dump → String
  | null => "null"
  | bool true => "true"
  | bool false => "false"
  | nat value => toString value
  | number value => Number.dumped.text value
  | text value => jsonText value
  | list items => jsonBracket level "[" "]" (jsonItems (level + 1) items)
  | record fields => jsonBracket level "\x7b" "\x7d" (jsonFields (level + 1) fields)

/-- Writes each of some dumps. -/
def jsonItems (level : Nat) : List Dump → List String
  | [] => []
  | item :: rest => jsonAt level item :: jsonItems level rest

/-- Writes each of some fields. -/
def jsonFields (level : Nat) : List (String × Dump) → List String
  | [] => []
  | (name, content) :: rest =>
    (jsonText name ++ ": " ++ jsonAt level content) :: jsonFields level rest

end

/-- Writes a dump. -/
def json (d : Dump) : String := d.jsonAt 0

end Treewalk.Dump
