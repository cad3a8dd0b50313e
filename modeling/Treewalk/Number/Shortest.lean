import Treewalk.Number.Decimal

/-! # The fewest digits that read back

`shortestOf` finds the decimal with the fewest digits that reads back as the double `x`, and of
those the nearest to `x`. The search tries one digit, then two, and so on; with `n` digits the only
candidates are the two neighbours of `x` among the multiples of a power of ten. A candidate is
accepted by reading it, so what the search returns reads back by construction. Seventeen digits
always suffice; were they not to, the exact value would be returned. -/

namespace Treewalk.Number

/-- What to do with two candidates at the same distance. -/
inductive Tie where
  | up
  | even
deriving DecidableEq, Repr

namespace Binary

/-- The value as an exact decimal, sign aside: a negative power of two is a power of five over one
    of ten. -/
def exactDecimal (b : Binary) : Decimal :=
  ⟨b.mantissa * Nat.pow 2 b.exponent.toNat * Nat.pow 5 (-b.exponent).toNat, min b.exponent 0⟩

/-- The value in units of `10 ^ exponent`, as a pair of naturals with that quotient, sign aside. -/
def inUnits (b : Binary) (exponent : Int) : Nat × Nat :=
  (b.quotient.1 * Nat.pow 10 (-exponent).toNat, b.quotient.2 * Nat.pow 10 exponent.toNat)

/-- The least power of ten above the value, as its exponent. The binary logarithm fixes it up to
    one. -/
def scale (b : Binary) : Int :=
  let guess := ((b.mantissa.log2 : Int) + b.exponent) * 30103 / 100000 + 1
  let units := b.inUnits guess
  if units.1 < units.2 then guess else guess + 1

/-- Of the two multiples of `10 ^ exponent` around the value, the ones that read back as it, the
better one first. -/
def candidates (tie : Tie) (b : Binary) (exponent : Int) : List Decimal :=
  let units := b.inUnits exponent
  let low := units.1 / units.2
  let excess := 2 * (units.1 % units.2)
  let lowFirst := decide (excess < units.2 ∨ (excess = units.2 ∧ tie = .even ∧ low % 2 = 0))
  if lowFirst then [⟨low, exponent⟩, ⟨low + 1, exponent⟩]
    else [⟨low + 1, exponent⟩, ⟨low, exponent⟩]

end Binary

/-- The decimal with the fewest digits that reads back as `x`, for the finite value `b` of `x`. -/
def shortestOf (tie : Tie) (x : Float) (b : Binary) : Decimal :=
  let found := (List.range 17).findSome? fun (n : Nat) =>
    (b.candidates tie (b.scale - (n + 1 : Nat))).find? fun d => decide (d.toFloat b.negative = x)
  if b.mantissa = 0 then ⟨0, 0⟩ else (found.getD b.exactDecimal).strip

end Treewalk.Number
