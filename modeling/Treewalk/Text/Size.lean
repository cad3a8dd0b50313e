/-! # Sizes

The size of a text is the number of bytes that it takes up in UTF-8. Offsets into a source count
bytes. -/

namespace Treewalk.Text

/-- Number of bytes of a text. -/
def byteSize : List Char → Nat
  | [] => 0
  | c :: rest => c.utf8Size + byteSize rest

/-- Sizes add up. -/
@[simp] theorem byteSize_append (s t : List Char) :
    byteSize (s ++ t) = byteSize s + byteSize t := by
  induction s with
  | nil => exact (Nat.zero_add _).symm
  | cons c rest ih => rw [List.cons_append, byteSize, byteSize, ih, Nat.add_assoc]

end Treewalk.Text
