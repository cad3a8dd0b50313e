import Treewalk.Number.Layout
import Treewalk.Text.Quoted
import Treewalk.Value
import Treewalk.Value.Unseen

/-! # Values as text

`Heap.display` is what `print` shows and `Heap.inspect` the form in which strings are quoted. An
array shows its elements; one that is met again inside itself shows as `[...]`, while one that is
merely shared shows in full each time. The arrays that the writer is inside of are its `open` list,
and since every step down opens another array of the heap, the writing ends. -/

namespace Treewalk

/-- How the text of a string value is shown. -/
inductive StringStyle where
  | plain
  | quoted
deriving DecidableEq, Repr

/-- Shows the text of a string value. -/
def StringStyle.show (style : StringStyle) (text : String) : String :=
  match style with
  | plain => text
  | quoted => String.ofList (Text.quote text.toList)

namespace Heap

/-- The references of the heap. -/
def refs (h : Heap) : List Nat := List.range h.arrays.size

mutual

/-- Shows a value inside of the arrays `opened`. -/
def render (h : Heap) (style : StringStyle) (opened : List Nat) : Value → String
  | .null => "null"
  | .bool true => "true"
  | .bool false => "false"
  | .number value => Number.text value
  | .string text => style.show text
  | .array ref =>
    if _fresh : opened.contains ref = false then
      match _found : h.array? ref with
      | some elements =>
        "[" ++ ", ".intercalate (h.renderAll style (ref :: opened) elements.toList) ++ "]"
      | none => "[]"
    else "[...]"
  | .function closure => "<function " ++ closure.name.lexeme ++ ">"
termination_by (unseen h.refs opened, 0)
decreasing_by exact Prod.Lex.left _ _ (unseen_cons_lt
  (List.mem_range.2 (lt_size_of_array? _found)) _fresh)

/-- Shows each of some values. -/
def renderAll (h : Heap) (style : StringStyle) (opened : List Nat) : List Value → List String
  | [] => []
  | value :: rest => h.render style opened value :: h.renderAll style opened rest
termination_by values => (unseen h.refs opened, values.length + 1)

end

/-- The text that `print` writes for a value. -/
def display (h : Heap) (v : Value) : String := h.render .plain [] v

/-- The text of a value in which strings are quoted. -/
def inspect (h : Heap) (v : Value) : String := h.render .quoted [] v

end Heap

end Treewalk
