import Treewalk.Diagnostic
import Treewalk.Number.Binary
import Treewalk.Value.Equality

/-! # Operators on values -/

namespace Treewalk

/-- The value of an operator with one operand. -/
def UnaryOp.apply (op : UnaryOp) (v : Value) : Except RuntimeFault Value :=
  match op, v with
  | not, v => .ok (.bool (!v.isTruthy))
  | neg, .number x => .ok (.number (-x))
  | neg, _ => .error .operandNotNumber

/-- The value of an operator between two numbers. -/
def BinaryOp.onNumbers (op : BinaryOp) (x y : Float) : Value :=
  match op with
  | add => .number (x + y)
  | sub => .number (x - y)
  | mul => .number (x * y)
  | div => .number (x / y)
  | rem => .number (Number.remainder x y)
  | pow => .number (x.pow y)
  | eq => .bool (x == y)
  | ne => .bool (x != y)
  | lt => .bool (decide (x < y))
  | le => .bool (decide (x ≤ y))
  | gt => .bool (decide (y < x))
  | ge => .bool (decide (y ≤ x))

/-- The value of an operator between two values. Any values can be compared for equality, strings
can be put together, and all else takes numbers. -/
def BinaryOp.apply (h : Heap) (op : BinaryOp) (a b : Value) : Except RuntimeFault Value :=
  match op, a, b with
  | eq, a, b => .ok (.bool (h.equal a b))
  | ne, a, b => .ok (.bool (!h.equal a b))
  | add, .string s, .string t => .ok (.string (s ++ t))
  | op, .number x, .number y => .ok (op.onNumbers x y)
  | add, _, _ => .error .operandsNotAlike
  | _, _, _ => .error .operandsNotNumbers

/-- Does the left operand decide, so that the right one is not evaluated? -/
def LogicalOp.decidedBy (op : LogicalOp) (left : Value) : Bool :=
  match op with
  | or => left.isTruthy
  | and => !left.isTruthy

/-- An element of an array by its place: the reference of the array and the position in it. -/
structure Slot where
  ref : Nat
  position : Nat
deriving DecidableEq, Repr

/-- The slot that a value is indexed at. The index has to be a whole number, and there has to be an
element at this position. -/
def Heap.slot (h : Heap) (object index : Value) : Except RuntimeFault Slot :=
  match object with
  | .array ref =>
    match index.number?.bind Number.toInt? with
    | some i =>
      if 0 ≤ i ∧ i < ((h.array? ref).getD #[]).size then .ok ⟨ref, i.toNat⟩
        else .error .indexOutOfRange
    | none => .error .indexNotInteger
  | _ => .error .notIndexable

/-- The element at a slot. -/
def Heap.element (h : Heap) (s : Slot) : Value :=
  ((h.array? s.ref).getD #[])[s.position]?.getD .null

/-- Changes the element at a slot. -/
def Heap.store (h : Heap) (s : Slot) (value : Value) : Heap := h.setElement s.ref s.position value

end Treewalk
