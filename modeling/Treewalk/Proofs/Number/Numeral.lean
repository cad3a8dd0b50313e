import Treewalk.Number.Numeral

/-!
# Plain numerals

Digits, with or without a fraction behind a point, are numerals: `ofNumeral?` reads them, and the
decimal it rounds has all the digits, scaled by the length of the fraction.
-/

namespace Treewalk.Number

/-- Where no character has the property, the text is not split. -/
theorem splitFirst_of_forall {p : Char → Bool} {text : List Char} (h : ∀ c ∈ text, p c = false) :
    splitFirst p text = (text, none) := by
  have hnone : ∀ c ∈ text, (!p c) = true := fun c hc => by simp [h c hc]
  have hdrop : (text ++ []).dropWhile (!p ·) = [] := List.dropWhile_append_of_pos hnone
  rw [List.append_nil] at hdrop
  rw [splitFirst, hdrop]

/-- A text is split at the first character that has the property. -/
theorem splitFirst_append {p : Char → Bool} {front rest : List Char} {c : Char}
    (hfront : ∀ d ∈ front, p d = false) (hc : p c = true) :
    splitFirst p (front ++ c :: rest) = (front, some rest) := by
  have hfront' : ∀ d ∈ front, (!p d) = true := fun d hd => by simp [hfront d hd]
  rw [splitFirst, List.dropWhile_append_of_pos hfront', List.takeWhile_append_of_pos hfront']
  simp [hc]

/-- A digit is neither a sign, nor a point, nor the mark of an exponent. -/
theorem ne_of_isDigit {c : Char} (h : c.isDigit = true) :
    c ≠ '+' ∧ c ≠ '-' ∧ c ≠ '.' ∧ c ≠ 'e' ∧ c ≠ 'E' := by
  refine ⟨?_, ?_, ?_, ?_, ?_⟩
  all_goals
    rintro rfl
    exact nomatch h

section

variable {digits fraction : List Char}

/-- In front of a digit there is no sign to split off. -/
theorem splitSign_of_isDigit {c : Char} (h : c.isDigit = true) (rest : List Char) :
    splitSign (c :: rest) = (false, c :: rest) := by
  obtain ⟨hplus, hminus, -⟩ := ne_of_isDigit h
  unfold splitSign
  split
  · next heq => exact absurd (List.cons.inj heq).1 hplus
  · next heq => exact absurd (List.cons.inj heq).1 hminus
  · rfl

/-- Digits are a mantissa with their own value. -/
theorem mantissaValue?_whole (hne : digits ≠ []) (hdigits : ∀ c ∈ digits, c.isDigit = true) :
    mantissaValue? digits = some ⟨digitsValue digits, 0⟩ := by
  have hpoint : ∀ c ∈ digits, (c == '.') = false := fun c hc =>
    beq_false_of_ne (ne_of_isDigit (hdigits c hc)).2.2.1
  rw [mantissaValue?, splitFirst_of_forall hpoint]
  simpa [hne] using hdigits

/-- Digits with a point among them are a mantissa with the value of all, scaled by those behind
    it. -/
theorem mantissaValue?_decimal (hne : digits ≠ []) (hdigits : ∀ c ∈ digits, c.isDigit = true)
    (hfraction : ∀ c ∈ fraction, c.isDigit = true) :
    mantissaValue? (digits ++ '.' :: fraction) =
      some ⟨digitsValue (digits ++ fraction), -(fraction.length : Int)⟩ := by
  have hpoint : ∀ c ∈ digits, (c == '.') = false := fun c hc =>
    beq_false_of_ne (ne_of_isDigit (hdigits c hc)).2.2.1
  rw [mantissaValue?, splitFirst_append hpoint rfl]
  simpa [hne] using ⟨hdigits, hfraction⟩

/-- Without the mark of an exponent, a numeral is its mantissa. -/
theorem decimalValue?_of_forall {text : List Char} (h : ∀ c ∈ text, c ≠ 'e' ∧ c ≠ 'E') :
    decimalValue? text = mantissaValue? text := by
  have hmark : ∀ c ∈ text, (c == 'e' || c == 'E') = false := fun c hc => by
    simp [h c hc]
  simp only [decimalValue?, splitFirst_of_forall hmark]
  cases mantissaValue? text with
  | none => rfl
  | some value => rfl

/-- Digits are the numeral of a whole number. -/
theorem ofNumeral?_whole (hne : digits ≠ []) (hdigits : ∀ c ∈ digits, c.isDigit = true) :
    ofNumeral? digits = some (Decimal.toFloat false ⟨digitsValue digits, 0⟩) := by
  have hmark : ∀ c ∈ digits, c ≠ 'e' ∧ c ≠ 'E' := fun c hc => (ne_of_isDigit (hdigits c hc)).2.2.2
  have hvalue := (decimalValue?_of_forall hmark).trans (mantissaValue?_whole hne hdigits)
  obtain ⟨c, rest, rfl⟩ := List.exists_cons_of_ne_nil hne
  rw [ofNumeral?, splitSign_of_isDigit (hdigits c List.mem_cons_self)]
  simp only [hvalue, Option.map_some]

/-- Digits with a fraction are the numeral of the digits of both, scaled by the length of the
    fraction. -/
theorem ofNumeral?_decimal (hne : digits ≠ []) (hdigits : ∀ c ∈ digits, c.isDigit = true)
    (hfraction : ∀ c ∈ fraction, c.isDigit = true) :
    ofNumeral? (digits ++ '.' :: fraction) =
      some (Decimal.toFloat false ⟨digitsValue (digits ++ fraction),
        -(fraction.length : Int)⟩) := by
  -- Neither a digit nor the point marks an exponent, so the whole text is the mantissa.
  have hmark : ∀ c ∈ digits ++ '.' :: fraction, c ≠ 'e' ∧ c ≠ 'E' := by
    intro c hc
    obtain hc | hc := List.mem_append.1 hc
    · exact (ne_of_isDigit (hdigits c hc)).2.2.2
    · obtain rfl | hc := List.mem_cons.1 hc
      · decide
      · exact (ne_of_isDigit (hfraction c hc)).2.2.2
  have hvalue := (decimalValue?_of_forall hmark).trans
    (mantissaValue?_decimal hne hdigits hfraction)
  obtain ⟨c, rest, rfl⟩ := List.exists_cons_of_ne_nil hne
  rw [List.cons_append] at hvalue ⊢
  rw [ofNumeral?, splitSign_of_isDigit (hdigits c List.mem_cons_self)]
  simp only [hvalue, Option.map_some, List.cons_append]

end

end Treewalk.Number
