import Mathlib.Computability.RegularExpressions
import Mathlib.Data.List.Chain
import Mathlib.Tactic.FinCases
import Mathlib.Tactic.IntervalCases
import Treewalk.Input
import Treewalk.Proofs.Number.Numeral
import Treewalk.Proofs.Token.Tiling

/-!
# Which texts are numerals

Numerals are a regular language (`Number.numeral`). `ofNumeral?` cuts a text at its sign, at the
mark of an exponent and at a point, each time at the first one there is, and looks at what the
pieces are made of. The pieces of a numeral are those that the expression puts together, because no
digit can be taken for a sign, a mark or a point; so `ofNumeral?` reads exactly the numerals
(`Number.isSome_ofNumeral?_iff`).

Doubles have names that are no numerals, such as `inf`. Of a reader that knows these as well
(`Number.ofText?`), `ofNumeral?` is the part that reads numerals, and all numbers in a source are
numerals (`Number.numerals_accepted`).
-/

namespace Treewalk

namespace Number

open RegularExpression

variable {text rest : List Char} {c : Char}

/-! ## The expression -/

/-- Matches each of some characters. -/
def oneOf (cs : List Char) : RegularExpression Char := (cs.map char).sum

/-- Matches nothing at all as well. -/
def maybe (r : RegularExpression Char) : RegularExpression Char := 1 + r

/-- `[0-9]` -/
def digit : RegularExpression Char := oneOf ['0', '1', '2', '3', '4', '5', '6', '7', '8', '9']

/-- `[0-9]+` -/
def digits : RegularExpression Char := digit * digit.star

/-- `[+-]` -/
def sign : RegularExpression Char := oneOf ['+', '-']

/-- `[0-9]+(\.[0-9]*)?|\.[0-9]+` -/
def mantissa : RegularExpression Char := digits * maybe (char '.' * digit.star) + char '.' * digits

/-- `[eE][+-]?[0-9]+` -/
def exponent : RegularExpression Char := oneOf ['e', 'E'] * (maybe sign * digits)

/-- `[+-]?([0-9]+(\.[0-9]*)?|\.[0-9]+)([eE][+-]?[0-9]+)?` -/
def numeral : RegularExpression Char := maybe sign * (mantissa * maybe exponent)

/-! ## What the parts match -/

/-- One of some characters is a text of just that character. -/
theorem mem_oneOf {cs : List Char} : text ∈ (oneOf cs).matches' ↔ ∃ c ∈ cs, text = [c] := by
  induction cs with
  | nil =>
    rw [oneOf, List.map_nil, List.sum_nil, matches'_zero]
    exact iff_of_false (Language.notMem_zero text) fun ⟨_, hc, _⟩ => List.not_mem_nil hc
  | cons c cs ih =>
    rw [oneOf, List.map_cons, List.sum_cons, matches'_add, Language.mem_add, ← oneOf, ih,
      List.exists_mem_cons_iff]
    rfl

/-- What may be missing is matched by nothing at all as well. -/
theorem mem_maybe {r : RegularExpression Char} :
    text ∈ (maybe r).matches' ↔ text = [] ∨ text ∈ r.matches' := by
  rw [maybe, matches'_add, Language.mem_add, matches'_epsilon, Language.mem_one]

/-- A character in front of an expression is the first one of the text. -/
theorem mem_char_mul {r : RegularExpression Char} :
    text ∈ (char c * r).matches' ↔ ∃ rest ∈ r.matches', text = c :: rest := by
  rw [matches'_mul, Language.mem_mul]
  constructor
  · rintro ⟨_, rfl, rest, hrest, rfl⟩
    exact ⟨rest, hrest, rfl⟩
  · rintro ⟨rest, hrest, rfl⟩
    exact ⟨[c], rfl, rest, hrest, rfl⟩

/-- The digits are those of the regular expression. -/
theorem isDigit_iff_mem :
    c.isDigit = true ↔ c ∈ ['0', '1', '2', '3', '4', '5', '6', '7', '8', '9'] := by
  constructor
  · intro h
    have hcode : c = Char.ofNat c.toNat := (Char.ofNat_toNat c).symm
    obtain ⟨hlow, hhigh⟩ : 48 ≤ c.toNat ∧ c.toNat ≤ 57 := Char.isDigit_iff_toNat.1 h
    generalize c.toNat = code at hcode hlow hhigh
    subst hcode
    interval_cases code <;> decide
  · intro h
    fin_cases h <;> rfl

/-- A digit is a text of one digit. -/
theorem mem_digit : text ∈ digit.matches' ↔ ∃ c, c.isDigit = true ∧ text = [c] := by
  rw [digit, mem_oneOf]
  exact exists_congr fun c => and_congr_left fun _ => isDigit_iff_mem.symm

/-- Any number of digits is a text with digits only, the empty one included. -/
theorem mem_star_digit : text ∈ digit.star.matches' ↔ ∀ c ∈ text, c.isDigit = true := by
  rw [matches'_star, Language.mem_kstar]
  constructor
  · rintro ⟨parts, rfl, hparts⟩ c hc
    obtain ⟨part, hpart, hc⟩ := List.mem_flatten.1 hc
    obtain ⟨d, hd, rfl⟩ := mem_digit.1 (hparts part hpart)
    rwa [List.mem_singleton.1 hc]
  · intro h
    refine ⟨text.map fun c => [c], (List.flatMap_singleton' text).symm, fun part hpart => ?_⟩
    obtain ⟨c, hc, rfl⟩ := List.mem_map.1 hpart
    exact mem_digit.2 ⟨c, h c hc, rfl⟩

/-- One digit or more is a text with digits only, and not the empty one. -/
theorem mem_digits : text ∈ digits.matches' ↔ text ≠ [] ∧ ∀ c ∈ text, c.isDigit = true := by
  rw [digits, matches'_mul, Language.mem_mul]
  constructor
  · rintro ⟨_, hfirst, rest, hrest, rfl⟩
    obtain ⟨c, hc, rfl⟩ := mem_digit.1 hfirst
    exact ⟨List.cons_ne_nil c rest, List.forall_mem_cons.2 ⟨hc, mem_star_digit.1 hrest⟩⟩
  · rintro ⟨hne, hdigits⟩
    obtain ⟨c, rest, rfl⟩ := List.exists_cons_of_ne_nil hne
    obtain ⟨hc, hrest⟩ := List.forall_mem_cons.1 hdigits
    exact ⟨[c], mem_digit.2 ⟨c, hc, rfl⟩, rest, mem_star_digit.2 hrest, rfl⟩

/-- What may be missing at the end is nothing, or a part behind what is in front of it. -/
theorem mem_mul_maybe {r t : RegularExpression Char} :
    text ∈ (r * maybe t).matches' ↔
      text ∈ r.matches' ∨ ∃ front ∈ r.matches', ∃ rest ∈ t.matches', front ++ rest = text := by
  rw [matches'_mul, Language.mem_mul]
  constructor
  · rintro ⟨front, hfront, rest, hrest, rfl⟩
    obtain rfl | hrest := mem_maybe.1 hrest
    · exact .inl (by rwa [List.append_nil])
    · exact .inr ⟨front, hfront, rest, hrest, rfl⟩
  · rintro (h | ⟨front, hfront, rest, hrest, rfl⟩)
    · exact ⟨text, h, [], mem_maybe.2 (.inl rfl), List.append_nil text⟩
    · exact ⟨front, hfront, rest, mem_maybe.2 (.inr hrest), rfl⟩

/-- A point divides a mantissa into digits, and not all of them may be missing. -/
theorem mem_mantissa :
    text ∈ mantissa.matches' ↔
      text ∈ digits.matches' ∨ ∃ whole fraction, text = whole ++ '.' :: fraction ∧
        (whole ≠ [] ∨ fraction ≠ []) ∧ (∀ c ∈ whole, c.isDigit = true) ∧
          ∀ c ∈ fraction, c.isDigit = true := by
  rw [mantissa, matches'_add, Language.mem_add, mem_mul_maybe, or_assoc]
  refine or_congr_right ?_
  constructor
  · rintro (⟨whole, hwhole, rest, hrest, rfl⟩ | h)
    · obtain ⟨fraction, hfraction, rfl⟩ := mem_char_mul.1 hrest
      obtain ⟨hne, hwhole⟩ := mem_digits.1 hwhole
      exact ⟨whole, fraction, rfl, .inl hne, hwhole, mem_star_digit.1 hfraction⟩
    · obtain ⟨fraction, hfraction, rfl⟩ := mem_char_mul.1 h
      obtain ⟨hne, hfraction⟩ := mem_digits.1 hfraction
      exact ⟨[], fraction, rfl, .inr hne, List.forall_mem_nil _, hfraction⟩
  · rintro ⟨whole, fraction, rfl, hne, hwhole, hfraction⟩
    -- Without digits in front of the point it is the second form, which has to have some behind it.
    by_cases hempty : whole = []
    · subst hempty
      have hne := hne.resolve_left (· rfl)
      exact .inr (mem_char_mul.2 ⟨fraction, mem_digits.2 ⟨hne, hfraction⟩, rfl⟩)
    · refine .inl ⟨whole, mem_digits.2 ⟨hempty, hwhole⟩, '.' :: fraction, ?_, rfl⟩
      exact mem_char_mul.2 ⟨fraction, mem_star_digit.2 hfraction, rfl⟩

/-- An exponent is its mark, and digits that may have a sign. -/
theorem mem_exponent :
    text ∈ exponent.matches' ↔
      ∃ c rest, (c = 'e' ∨ c = 'E') ∧ rest ∈ (maybe sign * digits).matches' ∧ text = c :: rest := by
  rw [exponent, matches'_mul, Language.mem_mul]
  constructor
  · rintro ⟨_, hmark, rest, hrest, rfl⟩
    obtain ⟨c, hc, rfl⟩ := mem_oneOf.1 hmark
    exact ⟨c, rest, by simpa using hc, hrest, rfl⟩
  · rintro ⟨c, rest, hc, hrest, rfl⟩
    exact ⟨[c], mem_oneOf.2 ⟨c, by simpa using hc, rfl⟩, rest, hrest, rfl⟩

/-! ## Characters -/

/-- Is this a sign? -/
def isSign (c : Char) : Bool := c == '+' || c == '-'

/-- A sign is a plus or a minus. -/
theorem isSign_iff : isSign c = true ↔ c = '+' ∨ c = '-' := by simp [isSign]

/-- A digit is no sign. -/
theorem isSign_of_isDigit (h : c.isDigit = true) : isSign c = false := by
  obtain ⟨hplus, hminus, -⟩ := ne_of_isDigit h
  simp [isSign, hplus, hminus]

/-- Is this the mark of an exponent? -/
def isMark (c : Char) : Bool := c == 'e' || c == 'E'

/-- A mark is an `e`, small or large. -/
theorem isMark_iff : isMark c = true ↔ c = 'e' ∨ c = 'E' := by simp [isMark]

/-- Do mantissas have this character? -/
def isMantissaChar (c : Char) : Bool := c.isDigit || c == '.'

/-- Do numerals have this character? -/
def isNumeralChar (c : Char) : Bool := isMantissaChar c || isMark c || isSign c

/-- Do all characters of an expression have a property? -/
def madeOf (p : Char → Bool) : RegularExpression Char → Bool
  | .zero => true
  | .epsilon => true
  | .char c => p c
  | .plus r t => madeOf p r && madeOf p t
  | .comp r t => madeOf p r && madeOf p t
  | .star r => madeOf p r

/-- A text has no other characters than the expression that matches it. -/
theorem of_madeOf {p : Char → Bool} {r : RegularExpression Char} (hr : madeOf p r = true)
    (h : text ∈ r.matches') : ∀ c ∈ text, p c = true := by
  induction r generalizing text with
  | zero => exact absurd h (Language.notMem_zero text)
  | epsilon =>
    obtain rfl := (Language.mem_one text).1 h
    exact List.forall_mem_nil _
  | char d =>
    obtain rfl : text = [d] := h
    exact List.forall_mem_singleton.2 hr
  | plus r t ihr iht =>
    obtain ⟨hr, ht⟩ := Bool.and_eq_true_iff.1 hr
    obtain h | h := h
    · exact ihr hr h
    · exact iht ht h
  | comp r t ihr iht =>
    obtain ⟨hr, ht⟩ := Bool.and_eq_true_iff.1 hr
    obtain ⟨front, hfront, rest, hrest, rfl⟩ := Language.mem_mul.1 h
    exact List.forall_mem_append.2 ⟨ihr hr hfront, iht ht hrest⟩
  -- In a repetition each character is in one of its parts, and the induction is on the expression.
  | star r ih =>
    obtain ⟨parts, rfl, hparts⟩ := Language.mem_kstar.1 h
    intro c hc
    obtain ⟨part, hpart, hc⟩ := List.mem_flatten.1 hc
    exact ih hr (hparts part hpart) c hc

/-! ## Where the text is cut -/

/-- A text has no character of a class, or it is cut at the first one. -/
theorem cut_cases (p : Char → Bool) (text : List Char) :
    (∀ c ∈ text, p c = false) ∨
      ∃ front c rest, text = front ++ c :: rest ∧ (∀ d ∈ front, p d = false) ∧ p c = true := by
  cases h : text.find? p with
  | none =>
    have hnone := List.find?_eq_none.1 h
    exact .inl (by simpa using hnone)
  | some c =>
    obtain ⟨hc, front, rest, rfl, hfront⟩ := List.find?_eq_some_iff_append.1 h
    exact .inr ⟨front, c, rest, rfl, by simpa using hfront, hc⟩

/-- A text is cut at one place only. -/
theorem splitFirst_unique {p : Char → Bool} {front front' rest rest' : List Char} {c c' : Char}
    (hfront : ∀ d ∈ front, p d = false) (hc : p c = true) (hfront' : ∀ d ∈ front', p d = false)
    (hc' : p c' = true) (h : front ++ c :: rest = front' ++ c' :: rest') :
    front = front' ∧ rest = rest' := by
  have hsplit : splitFirst p (front ++ c :: rest) = (front, some rest) :=
    splitFirst_append hfront hc
  rw [h, splitFirst_append hfront' hc'] at hsplit
  obtain ⟨hfront, hrest⟩ := Prod.mk.inj hsplit
  exact ⟨hfront.symm, (Option.some.inj hrest).symm⟩

/-- What may have a sign is matched with one or without. -/
theorem mem_maybe_sign_mul {r : RegularExpression Char} :
    text ∈ (maybe sign * r).matches' ↔
      text ∈ r.matches' ∨ ∃ c rest, isSign c = true ∧ rest ∈ r.matches' ∧ text = c :: rest := by
  rw [matches'_mul, Language.mem_mul]
  constructor
  · rintro ⟨front, hfront, rest, hrest, rfl⟩
    obtain rfl | hfront := mem_maybe.1 hfront
    · exact .inl hrest
    · obtain ⟨c, hc, rfl⟩ := mem_oneOf.1 hfront
      exact .inr ⟨c, rest, isSign_iff.2 (by simpa using hc), hrest, rfl⟩
  · -- Without a sign, the part that may be missing is empty.
    rintro (h | ⟨c, rest, hc, hrest, rfl⟩)
    · exact ⟨[], mem_maybe.2 (.inl rfl), text, h, rfl⟩
    · refine ⟨[c], mem_maybe.2 (.inr (mem_oneOf.2 ⟨c, ?_, rfl⟩)), rest, hrest, rfl⟩
      simpa using isSign_iff.1 hc

/-- A sign in front of a text is taken for one, unless the rest of the expression wants it. -/
theorem mem_splitSign {r : RegularExpression Char}
    (h : ∀ c rest, isSign c = true → c :: rest ∉ r.matches') :
    text ∈ (maybe sign * r).matches' ↔ (splitSign text).2 ∈ r.matches' := by
  rw [mem_maybe_sign_mul]
  constructor
  · rintro (hrest | ⟨c, rest, hc, hrest, rfl⟩)
    · -- a text that needs no sign does not lose one either
      unfold splitSign
      split
      · exact absurd hrest (h '+' _ rfl)
      · exact absurd hrest (h '-' _ rfl)
      · exact hrest
    · obtain rfl | rfl := isSign_iff.1 hc
      · exact hrest
      · exact hrest
  · intro hrest
    unfold splitSign at hrest
    split at hrest
    · exact .inr ⟨'+', _, rfl, hrest, rfl⟩
    · exact .inr ⟨'-', _, rfl, hrest, rfl⟩
    · exact .inl hrest

/-! ## What is read -/

/-- No digits start with a sign. -/
theorem notMem_digits_of_isSign (hc : isSign c = true) : c :: rest ∉ digits.matches' := by
  intro h
  rw [isSign_of_isDigit ((mem_digits.1 h).2 c List.mem_cons_self)] at hc
  exact nomatch hc

/-- The exponents that are read are the digits that may have a sign. -/
theorem isSome_exponentValue?_iff :
    (exponentValue? text).isSome = true ↔ text ∈ (maybe sign * digits).matches' := by
  rw [mem_splitSign fun _ _ => notMem_digits_of_isSign, mem_digits, exponentValue?]
  simp

/-- Without a point, what is read as a mantissa is one digit or more. -/
theorem isSome_mantissaValue?_of_forall (h : ∀ c ∈ text, (c == '.') = false) :
    (mantissaValue? text).isSome = true ↔ text ≠ [] ∧ ∀ c ∈ text, c.isDigit = true := by
  rw [mantissaValue?, splitFirst_of_forall h]
  simp

/-- With a point, what is read as a mantissa has digits only around it, and one at least. -/
theorem isSome_mantissaValue?_append {whole fraction : List Char}
    (h : ∀ c ∈ whole, (c == '.') = false) :
    (mantissaValue? (whole ++ '.' :: fraction)).isSome = true ↔
      (whole ≠ [] ∨ fraction ≠ []) ∧ (∀ c ∈ whole, c.isDigit = true) ∧
        ∀ c ∈ fraction, c.isDigit = true := by
  rw [mantissaValue?, splitFirst_append h rfl]
  simp [or_iff_not_imp_left]

/-- The mantissas that are read are those of the regular expression. -/
theorem isSome_mantissaValue?_iff :
    (mantissaValue? text).isSome = true ↔ text ∈ mantissa.matches' := by
  have hdigit (front : List Char) (h : ∀ c ∈ front, c.isDigit = true) : ∀ c ∈ front, (c == '.') =
      false :=
    fun c hc => beq_false_of_ne (ne_of_isDigit (h c hc)).2.2.1
  rw [mem_mantissa, mem_digits]
  -- The reader cuts at the first point. Digits are no points, so the expression has its point at
  -- the same place.
  obtain hpoint | ⟨whole, c, fraction, rfl, hwhole, hc⟩ := cut_cases (· == '.') text
  · rw [isSome_mantissaValue?_of_forall hpoint]
    refine (or_iff_left ?_).symm
    rintro ⟨whole, fraction, rfl, -⟩
    exact nomatch hpoint '.' (List.mem_append_right _ List.mem_cons_self)
  · obtain rfl := eq_of_beq hc
    rw [isSome_mantissaValue?_append hwhole]
    constructor
    · exact fun h => .inr ⟨whole, fraction, rfl, h⟩
    · rintro (⟨-, h⟩ | ⟨whole', fraction', htext, h⟩)
      · exact nomatch h '.' (List.mem_append_right _ List.mem_cons_self)
      · obtain ⟨rfl, rfl⟩ := splitFirst_unique hwhole hc (hdigit whole' h.2.1) hc htext
        exact h

/-- No mantissa has a mark in it. -/
theorem isMark_of_mem_mantissa (h : text ∈ mantissa.matches') : ∀ c ∈ text, isMark c = false := by
  have hmark := of_madeOf (p := (!isMark ·)) (by decide) h
  simpa using hmark

/-- With a mark, what is read is a mantissa in front of it and an exponent behind it. -/
theorem isSome_decimalValue?_append {front : List Char} (hfront : ∀ d ∈ front, isMark d = false)
    (hc : isMark c = true) :
    (decimalValue? (front ++ c :: rest)).isSome = true ↔
      (mantissaValue? front).isSome = true ∧ (exponentValue? rest).isSome = true := by
  have hsplit : splitFirst (fun c => c == 'e' || c == 'E') (front ++ c :: rest) =
      (front, some rest) :=
    splitFirst_append hfront hc
  simp only [decimalValue?, hsplit]
  cases mantissaValue? front with
  | none => simp
  | some d => simp

/-- What is read without a sign is a mantissa that may have an exponent. -/
theorem isSome_decimalValue?_iff :
    (decimalValue? text).isSome = true ↔ text ∈ (mantissa * maybe exponent).matches' := by
  rw [mem_mul_maybe]
  obtain hmark | ⟨front, c, rest, rfl, hfront, hc⟩ := cut_cases isMark text
  · rw [decimalValue?_of_forall fun c hc =>
      by simpa [isMark] using hmark c hc, isSome_mantissaValue?_iff]
    refine (or_iff_left ?_).symm
    rintro ⟨front, -, rest, hrest, rfl⟩
    obtain ⟨c, rest, hc, -, rfl⟩ := mem_exponent.1 hrest
    have hno := hmark c (List.mem_append_right front List.mem_cons_self)
    rw [isMark_iff.2 hc] at hno
    exact nomatch hno
  · rw [isSome_decimalValue?_append hfront hc, isSome_mantissaValue?_iff, isSome_exponentValue?_iff]
    constructor
    · rintro ⟨hmantissa, hrest⟩
      exact .inr ⟨front, hmantissa, c :: rest,
        mem_exponent.2 ⟨c, rest, isMark_iff.1 hc, hrest, rfl⟩, rfl⟩
    · rintro (h | ⟨front', hmantissa, _, hexponent, htext⟩)
      · have hno := isMark_of_mem_mantissa h c (List.mem_append_right front List.mem_cons_self)
        rw [hc] at hno
        exact nomatch hno
      · -- the expression may put its mark anywhere, but a mantissa has none, so it is the first one
        obtain ⟨c', rest', hc', hrest, rfl⟩ := mem_exponent.1 hexponent
        obtain ⟨rfl, rfl⟩ :=
          splitFirst_unique (isMark_of_mem_mantissa hmantissa) (isMark_iff.2 hc') hfront hc htext
        exact ⟨hmantissa, hrest⟩

/-- No mantissa is empty. -/
theorem ne_nil_of_mem_mantissa (h : text ∈ mantissa.matches') : text ≠ [] := by
  obtain h | ⟨whole, fraction, rfl, -⟩ := mem_mantissa.1 h
  · exact (mem_digits.1 h).1
  · exact List.append_ne_nil_of_right_ne_nil whole (List.cons_ne_nil _ _)

/-- A mantissa has digits and points only. -/
theorem isMantissaChar_of_mem (h : text ∈ mantissa.matches') :
    ∀ c ∈ text, isMantissaChar c = true :=
  of_madeOf (by decide) h

/-- Unsigned numerals start with a digit or a point. -/
theorem isMantissaChar_of_cons_mem (h : c :: rest ∈ (mantissa * maybe exponent).matches') :
    isMantissaChar c = true := by
  obtain h | ⟨front, hfront, tail, -, htext⟩ := mem_mul_maybe.1 h
  · exact isMantissaChar_of_mem h c List.mem_cons_self
  · obtain ⟨d, front, rfl⟩ := List.exists_cons_of_ne_nil (ne_nil_of_mem_mantissa hfront)
    obtain ⟨rfl, -⟩ := List.cons.inj htext
    exact isMantissaChar_of_mem hfront d List.mem_cons_self

/-- No number without its sign starts with a sign. -/
theorem notMem_of_isSign (hc : isSign c = true) :
    c :: rest ∉ (mantissa * maybe exponent).matches' := by
  intro h
  have hfirst := isMantissaChar_of_cons_mem h
  obtain rfl | rfl := isSign_iff.1 hc
  · exact nomatch hfirst
  · exact nomatch hfirst

/-- Exactly the numerals are read. -/
theorem isSome_ofNumeral?_iff : (ofNumeral? text).isSome = true ↔ text ∈ numeral.matches' := by
  rw [ofNumeral?, Option.isSome_map, isSome_decimalValue?_iff, numeral, mem_splitSign fun _ _ =>
    notMem_of_isSign]

/-! ## What is refused -/

/-- What makes a text no numeral at first sight. -/
inductive Malformed : List Char → Prop where
  /-- The names of doubles have letters, and most of these are in no numeral. -/
  | foreign {c : Char} (front rest : List Char) (h : isNumeralChar c = false) :
      Malformed (front ++ c :: rest)
  | signs {c d : Char} (front rest : List Char) (hc : isSign c = true) (hd : isSign d = true) :
      Malformed (front ++ c :: d :: rest)
  | points (front middle rest : List Char) : Malformed (front ++ '.' :: (middle ++ '.' :: rest))
  /-- An exponent needs digits. -/
  | unfinished {c : Char} (front : List Char) (h : isMark c = true ∨ isSign c = true) :
      Malformed (front ++ [c])

example : Malformed "-Infinity".toList := .foreign ['-'] "nfinity".toList rfl

example : Malformed "NaN".toList := .foreign [] "aN".toList rfl

/-- At most one of two characters is a sign. -/
def Apart (c d : Char) : Prop := ¬ (isSign c = true ∧ isSign d = true)

/-- In a text without signs no two of them meet. -/
theorem isChain_apart_of_forall (h : ∀ c ∈ text, (!isSign c) = true) : text.IsChain Apart := by
  refine (List.pairwise_of_forall_mem_list fun c hc _ _ hsigns => ?_).isChain
  exact absurd hsigns.1 (by simpa using h c hc)

/-- In front of what starts with no sign there may be one, and no two of them meet. -/
theorem isChain_apart_of_sign {r : RegularExpression Char} (hr : ∀ t ∈ r.matches', t.IsChain Apart)
    (hsign : ∀ c rest, isSign c = true → c :: rest ∉ r.matches')
    (h : text ∈ (maybe sign * r).matches') : text.IsChain Apart := by
  obtain h | ⟨c, rest, -, hrest, rfl⟩ := mem_maybe_sign_mul.1 h
  · exact hr text h
  · refine (hr rest hrest).cons fun d hd hsigns => ?_
    obtain ⟨tail, rfl⟩ := List.head?_eq_some_iff.1 hd
    exact hsign d tail hsigns.2 hrest

/-- In an exponent no two signs meet. -/
theorem isChain_apart_of_mem_exponent (h : text ∈ exponent.matches') : text.IsChain Apart := by
  obtain ⟨c, rest, hc, hrest, rfl⟩ := mem_exponent.1 h
  refine (isChain_apart_of_sign ?_ (fun _ _ => notMem_digits_of_isSign) hrest).cons
    fun d _ hsigns => ?_
  · exact fun t ht => isChain_apart_of_forall (of_madeOf (by decide) ht)
  · obtain rfl | rfl := hc
    · exact nomatch hsigns.1
    · exact nomatch hsigns.1

/-- No two signs stand side by side in a numeral. -/
theorem isChain_apart_of_mem_numeral (h : text ∈ numeral.matches') : text.IsChain Apart := by
  refine isChain_apart_of_sign (fun t ht => ?_) (fun _ _ => notMem_of_isSign) h
  obtain ht | ⟨front, hfront, rest, hrest, rfl⟩ := mem_mul_maybe.1 ht
  · exact isChain_apart_of_forall (of_madeOf (by decide) ht)
  · have hnone : ∀ c ∈ front, (!isSign c) = true := of_madeOf (by decide) hfront
    refine (isChain_apart_of_forall hnone).append (isChain_apart_of_mem_exponent hrest) ?_
    intro c hc d _ hsigns
    exact absurd hsigns.1 (by simpa using hnone c (List.mem_of_getLast? hc))

/-- A text that is made of no points has none. -/
theorem count_point_of_madeOf {r : RegularExpression Char} (hr : madeOf (· != '.') r = true)
    (h : text ∈ r.matches') : text.count '.' = 0 :=
  List.count_eq_zero.2 fun hmem => nomatch of_madeOf hr h '.' hmem

/-- A mantissa has no more than one point. -/
theorem count_point_le_of_mem_mantissa (h : text ∈ mantissa.matches') : text.count '.' ≤ 1 := by
  obtain h | ⟨whole, fraction, rfl, -, hwhole, hfraction⟩ := mem_mantissa.1 h
  · exact (count_point_of_madeOf (by decide) h).le.trans zero_le_one
  · have hwhole := count_point_of_madeOf (by decide) (mem_star_digit.2 hwhole)
    have hfraction := count_point_of_madeOf (by decide) (mem_star_digit.2 hfraction)
    rw [List.count_append, List.count_cons_self, hwhole, hfraction]

/-- There is at most one point in a numeral. -/
theorem count_point_le_of_mem_numeral (h : text ∈ numeral.matches') : text.count '.' ≤ 1 := by
  -- All points are in the mantissa, since exponents are made of no points.
  have hunsigned : ∀ t ∈ (mantissa * maybe exponent).matches', t.count '.' ≤ 1 := by
    intro t ht
    obtain ht | ⟨front, hfront, rest, hrest, rfl⟩ := mem_mul_maybe.1 ht
    · exact count_point_le_of_mem_mantissa ht
    · rw [List.count_append, count_point_of_madeOf (by decide) hrest]
      exact count_point_le_of_mem_mantissa hfront
  obtain h | ⟨c, rest, hc, hrest, rfl⟩ := mem_maybe_sign_mul.1 h
  · exact hunsigned text h
  · have hne : c ≠ '.' := fun heq => nomatch heq ▸ hc
    rw [List.count_cons_of_ne hne]
    exact hunsigned rest hrest

/-- The text has an end, and it is a digit or a point. -/
def Finished (text : List Char) : Prop := ∃ front c, text = front ++ [c] ∧ isMantissaChar c = true

/-- Whatever is in front of it, a text is finished by its end. -/
theorem Finished.append (h : Finished text) (front : List Char) : Finished (front ++ text) := by
  obtain ⟨middle, c, rfl, hc⟩ := h
  exact ⟨front ++ middle, c, (List.append_assoc front middle [c]).symm, hc⟩

/-- A text of digits and points is finished if there are any. -/
theorem finished_of_forall (hne : text ≠ []) (h : ∀ c ∈ text, isMantissaChar c = true) :
    Finished text := by
  obtain ⟨front, c, rfl⟩ := (List.eq_nil_or_concat' text).resolve_left hne
  exact ⟨front, c, rfl, h c (List.mem_append_right front List.mem_cons_self)⟩

/-- A mantissa ends with a digit or with its point. -/
theorem finished_of_mem_mantissa (h : text ∈ mantissa.matches') : Finished text :=
  finished_of_forall (ne_nil_of_mem_mantissa h) (isMantissaChar_of_mem h)

/-- An exponent ends with a digit. -/
theorem finished_of_mem_exponent (h : text ∈ exponent.matches') : Finished text := by
  obtain ⟨c, rest, -, hrest, rfl⟩ := mem_exponent.1 h
  have hdigits : ∀ t ∈ digits.matches', Finished t := fun t ht =>
    finished_of_forall (mem_digits.1 ht).1 (of_madeOf (by decide) ht)
  obtain h | ⟨d, tail, -, htail, rfl⟩ := mem_maybe_sign_mul.1 hrest
  · exact (hdigits rest h).append [c]
  · exact (hdigits tail htail).append [c, d]

/-- A numeral ends in a digit or a point. -/
theorem finished_of_mem_numeral (h : text ∈ numeral.matches') : Finished text := by
  have hunsigned : ∀ t ∈ (mantissa * maybe exponent).matches', Finished t := by
    intro t ht
    obtain ht | ⟨front, -, rest, hrest, rfl⟩ := mem_mul_maybe.1 ht
    · exact finished_of_mem_mantissa ht
    · exact (finished_of_mem_exponent hrest).append front
  obtain h | ⟨c, rest, -, hrest, rfl⟩ := mem_maybe_sign_mul.1 h
  · exact hunsigned text h
  · exact (hunsigned rest hrest).append [c]

/-- No malformed text is a numeral. -/
theorem Malformed.notMem (h : Malformed text) : text ∉ numeral.matches' := by
  intro hmem
  -- Each case contradicts one of the facts above on characters, signs, points and the end.
  cases h with
  | @foreign c front rest hc =>
    have hall := of_madeOf (p := isNumeralChar) (by decide) hmem c
      (List.mem_append_right _ List.mem_cons_self)
    rw [hc] at hall
    exact nomatch hall
  | signs front rest hc hd =>
    exact (List.isChain_append_cons_cons.1 (isChain_apart_of_mem_numeral hmem)).2.1 ⟨hc, hd⟩
  | points front middle rest =>
    have hcount := count_point_le_of_mem_numeral hmem
    simp only [List.count_append, List.count_cons_self] at hcount
    omega
  | @unfinished c front hc =>
    obtain ⟨front', d, htext, hd⟩ := finished_of_mem_numeral hmem
    obtain ⟨-, rfl⟩ := List.append_singleton_inj.1 htext
    obtain (rfl | rfl) | (rfl | rfl) := hc.imp isMark_iff.1 isSign_iff.1
    all_goals exact nomatch hd

/-! ## All ways to write a double -/

/-- Reads a text in any of the ways to write a double. There are names for infinity and for what is
no number, in lower or upper case. -/
def ofText? (text : List Char) : Option Float :=
  let (negative, unsigned) := splitSign text
  let name := unsigned.map Char.toLower
  if name = "inf".toList ∨ name = "infinity".toList then some (ofMagnitude negative infinityBits)
  else if name = "nan".toList then some nan
  else (decimalValue? unsigned).map (Decimal.toFloat negative)

/-- Digits and points are the same in small letters. -/
theorem toLower_of_isMantissaChar (h : isMantissaChar c = true) : c.toLower = c := by
  obtain h | h := Bool.or_eq_true_iff.1 h
  · have hmem := isDigit_iff_mem.1 h
    fin_cases hmem <;> rfl
  · obtain rfl := eq_of_beq h
    rfl

/-- Lower case letters that no mantissa has do not come from an unsigned numeral. -/
theorem map_toLower_ne (h : text ∈ (mantissa * maybe exponent).matches')
    (hc : isMantissaChar c = false) : text.map Char.toLower ≠ c :: rest := by
  intro hname
  obtain ⟨d, tail, rfl, hd, -⟩ := List.map_eq_cons_iff.1 hname
  have hfirst := isMantissaChar_of_cons_mem h
  rw [toLower_of_isMantissaChar hfirst] at hd
  rw [hd, hc] at hfirst
  exact nomatch hfirst

/-- Numerals are no names. -/
theorem ofText?_of_mem_numeral (h : text ∈ numeral.matches') : ofNumeral? text = ofText? text := by
  rw [numeral, mem_splitSign fun _ _ => notMem_of_isSign] at h
  have hinf : (splitSign text).2.map Char.toLower ≠ "inf".toList := map_toLower_ne h rfl
  have hinfinity : (splitSign text).2.map Char.toLower ≠ "infinity".toList := map_toLower_ne h rfl
  have hnan : (splitSign text).2.map Char.toLower ≠ "nan".toList := map_toLower_ne h rfl
  simp only [ofText?, ofNumeral?, hinf, hinfinity, hnan, or_self, if_false]

/-! ## Numbers of a session -/

/-- What reads a number takes all numerals, and white space around them. -/
theorem exists_value_iff {content : List Char} :
    (∃ v, Input.value .number content = .ok v) ↔ Text.trim content ∈ numeral.matches' := by
  rw [← isSome_ofNumeral?_iff, Input.value]
  cases ofNumeral? (Text.trim content) with
  | none => simp
  | some x => simp

/-- Numbers in a source are numerals, and stand for the doubles that these are read as. -/
theorem exists_literal_of_mem {source : String} {t : Token} (h : t ∈ (Lexed.ofSource source).tokens)
    (hkind : t.kind = .number) :
    ∃ x, t.literal = some (.number x) ∧ ofNumeral? t.lexeme.toList = some x := by
  obtain h | rfl := List.mem_append.1 h |>.imp_right List.mem_singleton.1
  · obtain ⟨⟨piece, span⟩, -, htoken⟩ := List.mem_filterMap.1 h
    obtain ⟨rfl, rfl⟩ := Prod.mk.inj (Piece.gives_of_token? htoken)
    rw [hkind, Piece.token?] at htoken
    obtain ⟨x, hread, ht⟩ := Option.map_eq_some_iff.1 htoken
    exact ⟨x, (congrArg Token.literal ht).symm, hread⟩
  · exact nomatch hkind

/-- A text is read as a number if it is a numeral, and only then: an optional sign, a mantissa of
digits with at most one point, an optional exponent with a sign or none. So nothing is read that has
a character of no numeral, as the names of infinity and of what is no number have, two signs side by
side, two points, or nothing behind the mark or the sign of an exponent. A numeral is read as the
double that it is for a reader that takes these names as well, and every number in a source is a
numeral that is read as the number's literal. -/
theorem numerals_accepted :
    (∀ text, (ofNumeral? text).isSome = true ↔ text ∈ numeral.matches') ∧
      (∀ text, Malformed text → ofNumeral? text = none) ∧
      (∀ content, (∃ v, Input.value .number content = .ok v) ↔
        Text.trim content ∈ numeral.matches') ∧
      (∀ text ∈ numeral.matches', ofNumeral? text = ofText? text) ∧
      ∀ source, ∀ t ∈ (Lexed.ofSource source).tokens, t.kind = .number →
        ∃ x, t.literal = some (.number x) ∧ ofText? t.lexeme.toList = some x ∧
          ofNumeral? t.lexeme.toList = some x := by
  refine ⟨fun _ => isSome_ofNumeral?_iff, fun text h => ?_, fun _ => exists_value_iff, fun _ =>
    ofText?_of_mem_numeral, fun source t ht hkind => ?_⟩
  · rw [← Option.not_isSome_iff_eq_none, isSome_ofNumeral?_iff]
    exact h.notMem
  · obtain ⟨x, hliteral, hread⟩ := exists_literal_of_mem ht hkind
    have hnumeral := isSome_ofNumeral?_iff.1 (Option.isSome_of_eq_some hread)
    exact ⟨x, hliteral, (ofText?_of_mem_numeral hnumeral).symm.trans hread, hread⟩

end Number

end Treewalk
