import Treewalk.Number.Decimal

/-! # Numerals

A numeral is an optional sign, digits with at most one point among or around them, and an optional
exponent of one optional sign and digits. `ofNumeral?` reads one as the nearest double and refuses
any other text, so there is no numeral for an infinity or for what is no number. Only the ASCII
digits count. -/

namespace Treewalk.Number

/-- Splits off a sign; a text without one is not negative. -/
def splitSign : List Char → Bool × List Char
  | '+' :: rest => (false, rest)
  | '-' :: rest => (true, rest)
  | text => (false, text)

/-- Splits a text at the first character of a class, which is dropped. -/
def splitFirst (p : Char → Bool) (text : List Char) : List Char × Option (List Char) :=
  match text.dropWhile (!p ·) with
  | [] => (text, none)
  | _ :: rest => (text.takeWhile (!p ·), some rest)

/-- The natural number that a list of digits stands for. -/
def digitsValue (digits : List Char) : Nat :=
  digits.foldl (fun n c => 10 * n + (c.toNat - '0'.toNat)) 0

/-- The exponent that a text stands for: one optional sign and at least one digit. -/
def exponentValue? (text : List Char) : Option Int :=
  let (negative, digits) := splitSign text
  if digits.isEmpty || !digits.all Char.isDigit then none
  else some (if negative then -(digitsValue digits : Int) else digitsValue digits)

/-- The decimal that an unsigned numeral without exponent stands for: digits on at least one side of
an optional point. -/
def mantissaValue? (text : List Char) : Option Decimal :=
  let (whole, fraction?) := splitFirst (· == '.') text
  let fraction := fraction?.getD []
  if (whole.isEmpty && fraction.isEmpty) || !whole.all Char.isDigit ||
    !fraction.all Char.isDigit then none
  else some ⟨digitsValue (whole ++ fraction), -(fraction.length : Int)⟩

/-- The decimal that an unsigned numeral stands for. -/
def decimalValue? (text : List Char) : Option Decimal :=
  let (mantissa, exponent?) := splitFirst (fun c => c == 'e' || c == 'E') text
  match mantissaValue? mantissa, exponent? with
  | none, _ => none
  | some d, none => some d
  | some d, some exponent => (exponentValue? exponent).map fun e => ⟨d.digits, d.exponent + e⟩

/-- The double nearest to a numeral. -/
def ofNumeral? (text : List Char) : Option Float :=
  let (negative, unsigned) := splitSign text
  (decimalValue? unsigned).map (Decimal.toFloat negative)

end Treewalk.Number
