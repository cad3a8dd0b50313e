import Treewalk.Input

/-!
# Text as input

`Input.ofText` is the input that some text makes. Decoding its bytes gives the text back
(`decode?_ofText`). The byte of a line break stands for nothing else, so a text without line breaks,
put in front of one, is the next line of any input that it begins (`nextLine_ofText`).

The content of such a line is the text again, as far as the text does not end in a carriage return
(`content_append_newline`).
-/

namespace Treewalk

namespace Text

variable {p : Char → Bool} {text ending : List Char}

/-- What is removed from the end is the characters of the class that stand there. -/
theorem dropEnd_append (hending : ∀ c ∈ ending, p c = true)
    (hlast : ∀ c ∈ text.getLast?, p c = false) : dropEnd p (text ++ ending) = text := by
  have hreverse : ∀ c ∈ ending.reverse, p c = true := fun c hc => hending c (List.mem_reverse.1 hc)
  rw [dropEnd, List.reverse_append, List.dropWhile_append_of_pos hreverse]
  cases htext : text.reverse with
  | nil => rw [List.reverse_eq_nil_iff.1 htext, List.dropWhile_nil, List.reverse_nil]
  | cons c rest =>
    rw [List.getLast?_eq_head?_reverse, htext] at hlast
    rw [List.dropWhile_cons_of_neg (by simp [hlast c rfl]), ← htext, List.reverse_reverse]

/-- A text without white space stays as it is. -/
theorem trim_of_forall_not (h : ∀ c ∈ text, isBlank c = false) : trim text = text := by
  have hfront : text.dropWhile isBlank = text := by
    cases text with
    | nil => rfl
    | cons c rest => exact List.dropWhile_cons_of_neg (by simp [h c List.mem_cons_self])
  have hnone : ∀ c ∈ ([] : List Char), isBlank c = true := List.forall_mem_nil _
  have hlast : ∀ c ∈ text.getLast?, isBlank c = false := fun c hc => h c (List.mem_of_getLast? hc)
  have hback := dropEnd_append hnone hlast
  rw [List.append_nil] at hback
  rw [trim, hfront, hback]

end Text

namespace Input

/-- The bytes of a text. -/
def ofText (text : String) : List UInt8 := text.toByteArray.data.toList

/-- Texts are encoded one after the other. -/
theorem ofText_append (text more : String) :
    ofText (text ++ more) = ofText text ++ ofText more := by
  rw [ofText, String.toByteArray_append, ByteArray.data_append, Array.toList_append, ofText, ofText]

/-- A text is encoded character by character. -/
theorem ofText_eq_flatMap (text : String) :
    ofText text = text.toList.flatMap String.utf8EncodeChar := by
  rw [ofText, ← String.utf8Encode_toList, List.utf8Encode, List.data_toByteArray]

/-- A newline is the single byte 10. -/
theorem ofText_newline : ofText "\n" = [10] := by
  rw [ofText_eq_flatMap]
  rfl

/-- Decoding the bytes of a text gives the text. -/
theorem decode?_ofText (text : String) : decode? (ofText text) = some text := by
  have hbytes : (ofText text).toByteArray = text.toByteArray := ByteArray.ext List.data_toByteArray
  rw [decode?, hbytes, String.fromUTF8?, dif_pos text.isValidUTF8]
  rfl

/-! ## Lines -/

/-- The byte of a line break is in the bytes of no other character. -/
theorem newline_notMem_utf8EncodeChar {c : Char} (h : c ≠ '\n') : 10 ∉ String.utf8EncodeChar c := by
  have hempty : (10 : UInt8) ∉ [] := List.not_mem_nil
  have hcons {n : Nat} {bytes : List UInt8} (hn : n % 256 ≠ 10) (hbytes : 10 ∉ bytes) :
      10 ∉ UInt8.ofNat n :: bytes := by
    intro hmem
    obtain heq | hmem := List.mem_cons.1 hmem
    · exact hn (congrArg UInt8.toNat heq).symm
    · exact hbytes hmem
  -- A single byte is the code itself; in longer encodings every byte has its top bit set, as its
  -- offset shows.
  have hcode : c.val.toNat ≠ 10 := fun hval => h (Char.ext (UInt32.toNat_inj.1 hval))
  simp only [String.utf8EncodeChar]
  split
  · exact hcons (by omega) hempty
  · split
    · exact hcons (by omega) (hcons (by omega) hempty)
    · split
      · exact hcons (by omega) (hcons (by omega) (hcons (by omega) hempty))
      · exact hcons (by omega) (hcons (by omega) (hcons (by omega) (hcons (by omega) hempty)))

/-- Without a newline in it, a text has no byte that ends a line. -/
theorem newline_notMem_ofText {text : String} (h : '\n' ∉ text.toList) : 10 ∉ ofText text := by
  rw [ofText_eq_flatMap, List.mem_flatMap]
  rintro ⟨c, hc, hbyte⟩
  exact newline_notMem_utf8EncodeChar (fun heq => h (heq ▸ hc)) hbyte

/-- A line ends with its first line break. -/
theorem nextLine_append_newline {bytes : List UInt8} (h : 10 ∉ bytes) (rest : List UInt8) :
    nextLine (bytes ++ 10 :: rest) = (bytes ++ [10], rest) := by
  induction bytes with
  | nil => rfl
  | cons b bytes ih =>
    obtain ⟨hb, hbytes⟩ := not_or.1 (mt List.mem_cons.2 h)
    rw [List.cons_append, nextLine, if_neg (Ne.symm hb), ih hbytes]
    rfl

/-- A text without line breaks, with one behind it, is the next line of the input that begins with
    it. -/
theorem nextLine_ofText {text : String} (h : '\n' ∉ text.toList) (rest : List UInt8) :
    nextLine (ofText (text ++ "\n") ++ rest) = (ofText (text ++ "\n"), rest) := by
  rw [ofText_append, ofText_newline, List.append_assoc, List.singleton_append,
    nextLine_append_newline (newline_notMem_ofText h)]

/-- The content of a line is the text in front of its line break. -/
theorem content_append_newline {text : String} (hbreak : '\n' ∉ text.toList)
    (hreturn : text.toList.getLast? ≠ some '\r') : content (text ++ "\n") = text.toList := by
  rw [content, String.toList_append]
  refine Text.dropEnd_append (by simp) fun c hc => ?_
  have hmem : c ≠ '\n' := fun heq => hbreak (heq ▸ List.mem_of_getLast? hc)
  have hlast : c ≠ '\r' := fun heq => hreturn (heq ▸ hc)
  simp [hmem, hlast]

/-- A text in front of a line break stands for the value that it is the content of. -/
theorem valueOfLine_ofText {text : String} (hbreak : '\n' ∉ text.toList)
    (hreturn : text.toList.getLast? ≠ some '\r') (kind : ReadKind) :
    valueOfLine kind (ofText (text ++ "\n")) = value kind text.toList := by
  have hne : (ofText (text ++ "\n")).isEmpty = false := by
    rw [ofText_append, ofText_newline]
    simp
  rw [valueOfLine, decode?_ofText]
  dsimp only
  rw [hne, if_neg Bool.false_ne_true, content_append_newline hbreak hreturn]

end Input

end Treewalk
