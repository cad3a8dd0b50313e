import Treewalk.Number.Binary

/-! # Decimals

A `Decimal` is a natural number times a power of ten. `Decimal.toFloat` reads it as the nearest
double. Reading starts by moving the factors ten of the digits into the exponent (`strip`), so two
ways to write a value, such as `150e-2` and `1.5`, are read by the same computation. -/

namespace Treewalk.Number

/-- The value `digits * 10 ^ exponent`. -/
structure Decimal where
  digits : Nat
  exponent : Int
deriving DecidableEq, Repr

namespace Decimal

/-- Removes the factors ten from `n` and adds their number to `exponent`. -/
def stripFrom (n : Nat) (exponent : Int) : Decimal :=
  if h : n % 10 = 0 ∧ n ≠ 0 then stripFrom (n / 10) (exponent + 1) else ⟨n, exponent⟩
termination_by n
decreasing_by omega

/-- The same value with no trailing zero among its digits. -/
def strip (d : Decimal) : Decimal := stripFrom d.digits d.exponent

/-- The value as a quotient of naturals. -/
def quotient (d : Decimal) : Nat × Nat :=
  (d.digits * Nat.pow 10 d.exponent.toNat, Nat.pow 10 (-d.exponent).toNat)

/-- The double nearest to a stripped decimal. The first two cases only spare the powers of ten: no
digits make zero, a value of at least `10 ^ 400` is beyond every double and one below `2 ^ -1099` is
nearest to zero. -/
def round (negative : Bool) (d : Decimal) : Float :=
  if d.digits = 0 ∨ (d.digits.log2 : Int) + 3 * d.exponent < -1100 then ofMagnitude negative 0
  else if 400 < d.exponent then ofMagnitude negative infinityBits
  else ofQuotient negative d.quotient.1 d.quotient.2

/-- The double nearest to a decimal, with a sign. -/
def toFloat (negative : Bool) (d : Decimal) : Float := round negative d.strip

end Decimal

end Treewalk.Number
