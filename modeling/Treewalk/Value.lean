import Treewalk.Tree

/-! # Values and the heap

What expressions evaluate to. Arrays are shared and can change, so an array value is a reference
into a `Heap`, and arrays may hold each other and themselves in any shape. A function value
remembers its declaration and a number of its own: each time a declaration runs it makes a new
function, which is equal only to itself. -/

namespace Treewalk

/-- A function at run time: its identity and its declaration. -/
structure Closure where
  id : Nat
  name : Token
  params : List Token
  body : List Stmt

/-- Runtime values. Every number is a double. -/
inductive Value where
  | null
  | bool (value : Bool)
  | number (value : Float)
  | string (text : String)
  | array (ref : Nat)
  | function (closure : Closure)
deriving Inhabited

namespace Value

/-- Does a condition with this value hold? All values do but null and false, so zero and the empty
string do as well. -/
def isTruthy : Value → Bool
  | null => false
  | bool value => value
  | _ => true

/-- The name of the type of a value. -/
def typeName : Value → String
  | null => "null"
  | bool _ => "bool"
  | number _ => "number"
  | string _ => "string"
  | array _ => "array"
  | function _ => "function"

/-- The double that a number value holds. -/
def number? : Value → Option Float
  | number value => some value
  | _ => none

/-- The value of a literal. -/
def ofLiteral : Literal → Value
  | .null => null
  | .bool value => bool value
  | .number value => number value
  | .string text => string text

end Value

/-- All arrays made so far, by reference, and the number of functions made so far. -/
structure Heap where
  arrays : Array (Array Value)
  functions : Nat

namespace Heap

/-- The heap at the start. -/
def empty : Heap := ⟨#[], 0⟩

/-- Makes an array. -/
def newArray (h : Heap) (elements : Array Value) : Value × Heap :=
  (.array h.arrays.size, { h with arrays := h.arrays.push elements })

/-- Makes a function. -/
def newFunction (h : Heap) (name : Token) (params : List Token) (body : List Stmt) : Value × Heap :=
  (.function ⟨h.functions, name, params, body⟩, { h with functions := h.functions + 1 })

/-- The elements of an array. -/
def array? (h : Heap) (ref : Nat) : Option (Array Value) := h.arrays[ref]?

/-- Changes one element of an array. -/
def setElement (h : Heap) (ref position : Nat) (value : Value) : Heap :=
  { h with arrays := h.arrays.modify ref fun elements => elements.setIfInBounds position value }

/-- An array that can be found lies inside of the heap. -/
theorem lt_size_of_array? {h : Heap} {ref : Nat} {elements : Array Value}
    (found : h.array? ref = some elements) : ref < h.arrays.size :=
  (Array.getElem?_eq_some_iff.1 found).1

/-- A new array is found at the reference that it got, and all others are found as before. -/
theorem array?_newArray (h : Heap) (elements : Array Value) (ref : Nat) :
    (h.newArray elements).2.array? ref =
      if ref = h.arrays.size then some elements else h.array? ref :=
  Array.getElem?_push

/-- Making a function leaves the arrays alone. -/
@[simp] theorem arrays_newFunction (h : Heap) (name : Token) (params : List Token)
    (body : List Stmt) :
    (h.newFunction name params body).2.arrays = h.arrays := rfl

/-- Changing an element changes one array and keeps its size. -/
theorem array?_setElement (h : Heap) (ref position : Nat) (value : Value) (other : Nat) :
    (h.setElement ref position value).array? other =
      if ref = other then (h.array? other).map (·.setIfInBounds position value)
        else h.array? other :=
  Array.getElem?_modify

end Heap

end Treewalk
