/-! # Ranges of code points

Classes of characters that no short rule describes are given as tables: lists of closed ranges. -/

namespace Treewalk.Text

/-- Does a code point lie in one of the ranges? -/
def inRanges (ranges : List (Nat × Nat)) (n : Nat) : Bool := ranges.any fun r => r.1 ≤ n && n ≤ r.2

end Treewalk.Text
