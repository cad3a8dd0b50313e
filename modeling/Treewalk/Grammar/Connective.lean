import Treewalk.Tree

/-! # Operators between two expressions

The operators that stand between their operands, sorted into levels. All of them group to the left.
A level binds tighter than the one before it, and `Level.tighter?` steps through them; assignment is
looser than all of them and the operators in front of a single operand are tighter. -/

namespace Treewalk

/-- The levels of operators, from the loosest to the tightest. -/
inductive Level where
  | or
  | and
  | equality
  | comparison
  | term
  | factor
  | power
deriving DecidableEq, Repr

namespace Level

/-- Number of tighter levels. -/
def depth : Level → Nat
  | or => 6
  | and => 5
  | equality => 4
  | comparison => 3
  | term => 2
  | factor => 1
  | power => 0

/-- The next tighter level. -/
def tighter? : Level → Option Level
  | or => some and
  | and => some equality
  | equality => some comparison
  | comparison => some term
  | term => some factor
  | factor => some power
  | power => none

/-- The levels are numbered from the loosest, and there are seven of them. -/
theorem depth_le (l : Level) : l.depth ≤ 6 := by cases l <;> decide

/-- Each step to a tighter level goes down by one, so `Level.tighter?` comes to an end. -/
theorem depth_of_tighter? {l m : Level} (h : l.tighter? = some m) : m.depth + 1 = l.depth := by
  cases l <;> cases h <;> rfl

end Level

/-- An operator between two expressions. -/
inductive Connective where
  | binary (op : BinaryOp)
  | logical (op : LogicalOp)
deriving DecidableEq, Repr

namespace Connective

/-- The connective that a kind of token stands for. -/
def ofKind? : Kind → Option Connective
  | .orWord => some (logical .or)
  | .andWord => some (logical .and)
  | .eqEq => some (binary .eq)
  | .ne => some (binary .ne)
  | .gt => some (binary .gt)
  | .ge => some (binary .ge)
  | .lt => some (binary .lt)
  | .le => some (binary .le)
  | .plus => some (binary .add)
  | .minus => some (binary .sub)
  | .star => some (binary .mul)
  | .slash => some (binary .div)
  | .percent => some (binary .rem)
  | .caret => some (binary .pow)
  | _ => none

/-- The level of a connective. -/
def level : Connective → Level
  | logical .or => .or
  | logical .and => .and
  | binary .eq | binary .ne => .equality
  | binary .lt | binary .le | binary .gt | binary .ge => .comparison
  | binary .add | binary .sub => .term
  | binary .mul | binary .div | binary .rem => .factor
  | binary .pow => .power

/-- The connective of a given level that a kind of token stands for. -/
def atLevel? (l : Level) (kind : Kind) : Option Connective :=
  (ofKind? kind).filter fun c => decide (c.level = l)

/-- The expression that joins two others. A logical one does not keep the span of its operator. -/
def join (c : Connective) (left right : Expr) (span : Span) : Expr :=
  match c with
  | binary op => .binary op left right span
  | logical op => .logical op left right

end Connective

end Treewalk
