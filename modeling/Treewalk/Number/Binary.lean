/-! # Doubles as scaled integers

Every number of the language is a double. This module reads a double off its bits as an integer
times a power of two (`shape`), and goes back by rounding an exact quotient to the nearest double,
ties to the even mantissa (`ofQuotient`). All arithmetic in between is on naturals and exact, so the
operations built on it (reading and writing numerals, remainders, array indices) can be reasoned
about without a theory of floating point. -/

namespace Treewalk.Number

/-- The finite value `mantissa * 2 ^ exponent`, negated if `negative`. Zero has a sign too. -/
structure Binary where
  negative : Bool
  mantissa : Nat
  exponent : Int
deriving DecidableEq, Repr

/-- What a double stands for. -/
inductive Shape where
  | nan
  | infinite (negative : Bool)
  | finite (value : Binary)
deriving DecidableEq, Repr

/-- Bits of the magnitude of infinity; a larger magnitude is no number. -/
def infinityBits : Nat := 2047 * Nat.pow 2 52

/-- Reads a double off its bits: a sign, eleven bits of exponent and fifty-two of fraction. The
smallest exponent has no hidden bit, the largest marks infinities and what is no number. -/
def shape (x : Float) : Shape :=
  let bits := x.toBits.toNat
  let negative := decide (Nat.pow 2 63 ≤ bits)
  let field : Nat := bits / Nat.pow 2 52 % Nat.pow 2 11
  let fraction : Nat := bits % Nat.pow 2 52
  if field = 2047 then
    if fraction = 0 then .infinite negative else .nan
  else if field = 0 then .finite ⟨negative, fraction, -1074⟩
  else .finite ⟨negative, Nat.pow 2 52 + fraction, (field : Int) - 1075⟩

/-- The double with a given sign and magnitude bits. -/
def ofMagnitude (negative : Bool) (bits : Nat) : Float :=
  Float.ofBits (UInt64.ofNat (if negative then Nat.pow 2 63 + bits else bits))

/-- The double that is no number. -/
def nan : Float := Float.ofBits 0x7FF8000000000000

/-- The quotient rounded to the nearest integer, a half to the even neighbour. -/
def roundQuotient (num den : Nat) : Nat :=
  let low := num / den
  if 2 * (num % den) < den ∨ (2 * (num % den) = den ∧ low % 2 = 0) then low else low + 1

/-- `num / den` in units of `2 ^ exponent`, as a pair of naturals with that quotient. -/
def scaleQuotient (num den : Nat) (exponent : Int) : Nat × Nat :=
  (num * Nat.pow 2 (-exponent).toNat, den * Nat.pow 2 exponent.toNat)

/-- The exponent of the double nearest to `num / den`: the one that leaves fifty-three bits before
the point, but at least the smallest there is. The binary logarithms fix it up to one. -/
def quotientExponent (num den : Nat) : Int :=
  let guess := max ((num.log2 : Int) - den.log2 - 53) (-1074)
  let scaled := scaleQuotient num den guess
  if scaled.1 / scaled.2 < Nat.pow 2 53 then guess else guess + 1

/-- Magnitude bits of the double nearest to `num / den`. Exponent and mantissa stand side by side in
the bits, so a mantissa that rounds up to a power of two carries into the exponent by itself, and
whatever lies beyond the largest double is infinity. -/
def nearestBits (num den : Nat) : Nat :=
  let exponent := quotientExponent num den
  let scaled := scaleQuotient num den exponent
  min ((exponent + 1074).toNat * Nat.pow 2 52 + roundQuotient scaled.1 scaled.2) infinityBits

/-- The double nearest to `num / den`, with a sign. -/
def ofQuotient (negative : Bool) (num den : Nat) : Float :=
  ofMagnitude negative (if num = 0 then 0 else nearestBits num den)

namespace Binary

/-- The value as a quotient of naturals, sign aside. -/
def quotient (b : Binary) : Nat × Nat :=
  (b.mantissa * Nat.pow 2 b.exponent.toNat, Nat.pow 2 (-b.exponent).toNat)

/-- The double nearest to this value. -/
def toFloat (b : Binary) : Float := ofQuotient b.negative b.quotient.1 b.quotient.2

/-- The value as an integer, if it is one. -/
def toInt? (b : Binary) : Option Int :=
  if b.quotient.1 % b.quotient.2 = 0 then
    let size : Int := (b.quotient.1 / b.quotient.2 : Nat)
    some (if b.negative then -size else size)
  else none

end Binary

/-- The integer that a double stands for, if it stands for one. -/
def toInt? (x : Float) : Option Int :=
  match shape x with
  | .finite value => value.toInt?
  | _ => none

/-- The remainder of a division that rounds the quotient toward zero. It takes the sign of `x`, is
exact for finite operands, leaves `x` alone if `y` is infinite, and is no number in all other
cases. -/
def remainder (x y : Float) : Float :=
  match shape x, shape y with
  | .finite a, .finite b =>
    if b.mantissa = 0 then nan
    else
      let exponent := min a.exponent b.exponent
      let left := a.mantissa * Nat.pow 2 (a.exponent - exponent).toNat
      let right := b.mantissa * Nat.pow 2 (b.exponent - exponent).toNat
      Binary.toFloat ⟨a.negative, left % right, exponent⟩
  | .finite _, .infinite _ => x
  | _, _ => nan

end Treewalk.Number
