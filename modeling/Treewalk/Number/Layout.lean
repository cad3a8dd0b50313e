import Treewalk.Number.Shortest

/-! # How a number is laid out

A `Layout` gathers the decisions that turn the shortest digits of a double into text: where
positional notation ends, whether a point and a zero follow a whole number, how an exponent is
written. `Layout.text` is the one function that writes numbers; the two layouts in use are
`printed`, for values and syntax trees, and `dumped`, for tree dumps. -/

namespace Treewalk.Number

/-- The decisions of a number format. -/
structure Layout where
  /-- values whose leading digit stands for at least `10 ^ plainFrom` … -/
  plainFrom : Int
  /-- … and for less than `10 ^ plainBelow` are written without an exponent -/
  plainBelow : Int
  /-- a whole number is followed by a point and a zero -/
  pointZero : Bool
  /-- so is a single digit in front of an exponent -/
  exponentPointZero : Bool
  /-- what stands before an exponent that is not negative -/
  mark : String
  /-- what stands before the size of a negative exponent -/
  negativeMark : String
  /-- which of two equally near digit strings is written -/
  tie : Tie

/-- Numbers as `print` shows them: whole numbers without a point, `1.0E7` from ten million on and
`1.0E-4` below a thousandth. -/
def printed : Layout where
  plainFrom := -3
  plainBelow := 7
  pointZero := false
  exponentPointZero := true
  mark := "E"
  negativeMark := "E-"
  tie := .up

/-- Numbers in tree dumps: a plain number always has a point, exponents are signed. -/
def dumped : Layout where
  plainFrom := -5
  plainBelow := 16
  pointZero := true
  exponentPointZero := false
  mark := "e+"
  negativeMark := "e-"
  tie := .even

namespace Layout

/-- The digits of `n` in base ten. -/
def digitsOf (n : Nat) : List Char := Nat.toDigits 10 n

/-- Lays out a decimal without an exponent: the point stands after, inside or before the digits. -/
def plain (l : Layout) (d : Decimal) : List Char :=
  let digits := digitsOf d.digits
  if 0 ≤ d.exponent then
    digits ++ List.replicate d.exponent.toNat '0' ++ (if l.pointZero then ['.', '0'] else [])
  else
    let places := (-d.exponent).toNat
    if places < digits.length then
      digits.take (digits.length - places) ++ '.' :: digits.drop (digits.length - places)
    else '0' :: '.' :: (List.replicate (places - digits.length) '0' ++ digits)

/-- Lays out a decimal with one digit before the point and an exponent. -/
def scientific (l : Layout) (d : Decimal) : List Char :=
  let digits := digitsOf d.digits
  let power := d.exponent + digits.length - 1
  let fraction :=
    if 1 < digits.length then '.' :: digits.drop 1
    else if l.exponentPointZero then ['.', '0']
    else []
  digits.take 1 ++ fraction ++ (if 0 ≤ power then l.mark else l.negativeMark).toList ++
    digitsOf power.natAbs

/-- Lays out a decimal in the way that its size asks for. -/
def decimal (l : Layout) (d : Decimal) : List Char :=
  let power := d.exponent + (digitsOf d.digits).length - 1
  if d.digits = 0 ∨ (l.plainFrom ≤ power ∧ power < l.plainBelow) then l.plain d else l.scientific d

/-- The text of a finite value `b` of the double `x`. -/
def finite (l : Layout) (x : Float) (b : Binary) : List Char :=
  let magnitude := l.decimal (shortestOf l.tie x b)
  if b.negative then '-' :: magnitude else magnitude

/-- The text of a double. -/
def text (l : Layout) (x : Float) : String :=
  match shape x with
  | .nan => "NaN"
  | .infinite negative => if negative then "-Infinity" else "Infinity"
  | .finite b => String.ofList (l.finite x b)

end Layout

/-- The text that `print` writes for a number. -/
def text (x : Float) : String := printed.text x

end Treewalk.Number
