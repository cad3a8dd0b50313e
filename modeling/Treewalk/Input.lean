import Treewalk.Diagnostic
import Treewalk.Number.Numeral
import Treewalk.Text.Blank
import Treewalk.Value

/-! # Lines of input

What a read statement takes from the input: the bytes of one line, which have to be UTF-8 and are
then read as what the statement asks for. -/

namespace Treewalk.Input

/-- The bytes through the next line break, or all if there is none, and the bytes behind them. -/
def nextLine : List UInt8 → List UInt8 × List UInt8
  | [] => ([], [])
  | b :: rest =>
    if b = 10 then ([b], rest)
    else
      match nextLine rest with
      | (line, behind) => (b :: line, behind)

/-- Nothing is lost between a line and what is behind it. -/
theorem nextLine_append (bytes : List UInt8) :
    (nextLine bytes).1 ++ (nextLine bytes).2 = bytes := by
  fun_induction nextLine bytes with
  | case1 => rfl
  | case2 => rfl
  | case3 b rest _ line behind split ih =>
    rw [split] at ih
    exact congrArg (b :: ·) ih

/-- There is always a line to take, except at the end. -/
theorem fst_nextLine_eq_nil_iff {bytes : List UInt8} : (nextLine bytes).1 = [] ↔ bytes = [] := by
  fun_cases nextLine bytes <;> simp

/-- All lines of the input, each with its line break. -/
def lines : List UInt8 → List (List UInt8)
  | [] => []
  | b :: rest =>
    if b = 10 then [b] :: lines rest
    else
      match lines rest with
      | [] => [[b]]
      | line :: others => (b :: line) :: others

/-- The first of all lines is the next one, and the others are the lines behind it. -/
theorem lines_eq_nextLine (b : UInt8) (rest : List UInt8) :
    lines (b :: rest) = (nextLine (b :: rest)).1 :: lines (nextLine (b :: rest)).2 := by
  induction rest generalizing b with
  | nil => by_cases h : b = 10 <;> simp [lines, nextLine, h]
  | cons c rest ih =>
    by_cases h : b = 10
    · simp [lines, nextLine, h]
    · have step : nextLine (b :: c :: rest) =
          (b :: (nextLine (c :: rest)).1, (nextLine (c :: rest)).2) := by
        rw [nextLine, if_neg h]
      rw [lines, if_neg h, ih c, step]

/-- The text of some bytes, if they are UTF-8. -/
def decode? (bytes : List UInt8) : Option String := String.fromUTF8? bytes.toByteArray

/-- A line without the line breaks and carriage returns at its end. -/
def content (line : String) : List Char :=
  Text.dropEnd (fun c => c == '\n' || c == '\r') line.toList

/-- The value that the content of a line stands for. White space around a number or a boolean does
not matter; a string is the content as it is. -/
def value (kind : ReadKind) (content : List Char) : Except RuntimeFault Value :=
  match kind with
  | .string => .ok (.string (String.ofList content))
  | .number =>
    match Number.ofNumeral? (Text.trim content) with
    | some number => .ok (.number number)
    | none => .error .numberExpected
  | .boolean =>
    let word := String.ofList (Text.trim content)
    if word = "true" then .ok (.bool true)
    else if word = "false" then .ok (.bool false)
    else .error .booleanExpected

/-- The value that the bytes of a line stand for. No bytes at all mean that the input is at its
    end. -/
def valueOfLine (kind : ReadKind) (line : List UInt8) : Except RuntimeFault Value :=
  match decode? line with
  | none => .error (.unreadableInput "stream did not contain valid UTF-8")
  | some text => if line.isEmpty then .error .endOfInput else value kind (content text)

end Treewalk.Input
