import Treewalk.Number.Layout
import Treewalk.Proofs.Number.Numeral
import Treewalk.Proofs.Number.Rounding

/-!
# Printed numbers read back

What is printed for a double that is not infinite is a numeral, and reading it gives the same
double, with the sign of a zero as well (`ofNumeral?_text`). A decimal may be laid out with more
zeros than it has digits, or with a point and an exponent, but its value stays the same, and
numerals are read by their value (`IsNumeral`).

The characters of a printed number are few (`isNumeric_of_mem_text`), so that it stands out in any
other text.
-/

namespace Treewalk.Number

/-! ## Digits -/

section

variable {digits : List Char}

/-- The digits of a number have its value. -/
theorem digitsValue_digitsOf (n : Nat) : digitsValue (Layout.digitsOf n) = n :=
  Nat.ofDigitChars_ten_toDigits

/-- The digits of a number are digits. -/
theorem isDigit_of_mem_digitsOf {n : Nat} : ∀ c ∈ Layout.digitsOf n, c.isDigit = true := fun _ hc =>
  Nat.isDigit_of_mem_toDigits (by decide) (by decide) hc

/-- Every number has a digit. -/
theorem digitsOf_ne_nil (n : Nat) : Layout.digitsOf n ≠ [] := Nat.toDigits_ne_nil

/-- Zeros behind the digits multiply by powers of ten. -/
theorem digitsValue_append_zeros (digits : List Char) (k : Nat) :
    digitsValue (digits ++ List.replicate k '0') = 10 ^ k * digitsValue digits := by
  have happend := Nat.ofDigitChars_append (b := 10) (l := digits) (m := List.replicate k '0') 0
  rw [Nat.ofDigitChars_replicate_zero] at happend
  exact happend

/-- Zeros in front of the digits do not matter. -/
theorem digitsValue_zeros_append (k : Nat) (digits : List Char) :
    digitsValue (List.replicate k '0' ++ digits) = digitsValue digits := by
  have happend := Nat.ofDigitChars_append (b := 10) (l := List.replicate k '0') (m := digits) 0
  rw [Nat.ofDigitChars_replicate_zero, Nat.mul_zero] at happend
  exact happend

/-- Zeros are digits. -/
theorem isDigit_of_mem_zeros {k : Nat} : ∀ c ∈ List.replicate k '0', c.isDigit = true := by
  intro c hc
  rw [List.eq_of_mem_replicate hc]
  rfl

end

/-! ## Numerals and their values -/

/-- Is a text a numeral without a sign that has a value? -/
structure IsNumeral (text : List Char) (value : ℚ) : Prop where
  starts : ∃ c rest, text = c :: rest ∧ c.isDigit = true
  read : ∃ d, decimalValue? text = some d ∧ d.value = value

section

variable {digits fraction : List Char} {value : ℚ}

/-- Digits are a numeral with their own value. -/
theorem isNumeral_whole (hne : digits ≠ []) (hdigits : ∀ c ∈ digits, c.isDigit = true) :
    IsNumeral digits (digitsValue digits) where
  starts := by
    obtain ⟨c, rest, rfl⟩ := List.exists_cons_of_ne_nil hne
    exact ⟨c, rest, rfl, hdigits c List.mem_cons_self⟩
  read := by
    have hmark : ∀ c ∈ digits, c ≠ 'e' ∧ c ≠ 'E' := fun c hc => (ne_of_isDigit (hdigits c hc)).2.2.2
    refine ⟨_, (decimalValue?_of_forall hmark).trans (mantissaValue?_whole hne hdigits), ?_⟩
    rw [Decimal.value, zpow_zero, mul_one]

/-- No exponent begins in digits with a point between them. -/
theorem ne_mark_of_mem_decimal (hdigits : ∀ c ∈ digits, c.isDigit = true)
    (hfraction : ∀ c ∈ fraction, c.isDigit = true) :
    ∀ c ∈ digits ++ '.' :: fraction, c ≠ 'e' ∧ c ≠ 'E' := by
  intro c hc
  obtain hc | rfl | hc := by simpa using hc
  · exact (ne_of_isDigit (hdigits c hc)).2.2.2
  · decide
  · exact (ne_of_isDigit (hfraction c hc)).2.2.2

/-- Digits with a point among them are a numeral with the value of all, scaled by those behind
    it. -/
theorem isNumeral_decimal (hne : digits ≠ []) (hdigits : ∀ c ∈ digits, c.isDigit = true)
    (hfraction : ∀ c ∈ fraction, c.isDigit = true) :
    IsNumeral (digits ++ '.' :: fraction)
      (digitsValue (digits ++ fraction) * 10 ^ (-(fraction.length : Int))) where
  starts := by
    obtain ⟨c, rest, rfl⟩ := List.exists_cons_of_ne_nil hne
    exact ⟨c, rest ++ '.' :: fraction, rfl, hdigits c List.mem_cons_self⟩
  read := by
    have hmark := ne_mark_of_mem_decimal hdigits hfraction
    exact ⟨_, (decimalValue?_of_forall hmark).trans (mantissaValue?_decimal hne hdigits hfraction),
      rfl⟩

/-- The exponent behind its mark is read with its sign. -/
theorem exponentValue?_digitsOf (power : Int) :
    exponentValue? ((if 0 ≤ power then [] else ['-']) ++ Layout.digitsOf power.natAbs) =
      some power := by
  -- The first digit is no sign, so a sign in front can only be the one put there.
  have hread (n : Nat) : splitSign (Layout.digitsOf n) = (false, Layout.digitsOf n) := by
    obtain ⟨c, rest, hcons⟩ := List.exists_cons_of_ne_nil (digitsOf_ne_nil n)
    rw [hcons]
    exact splitSign_of_isDigit (isDigit_of_mem_digitsOf c (hcons ▸ List.mem_cons_self)) rest
  have hvalid (n : Nat) :
      ((Layout.digitsOf n).isEmpty || !(Layout.digitsOf n).all Char.isDigit) = false := by
    simpa [digitsOf_ne_nil] using fun c => isDigit_of_mem_digitsOf (n := n) c
  split
  · rw [List.nil_append, exponentValue?, hread]
    simp only [hvalid, digitsValue_digitsOf, Bool.false_eq_true, if_false, Option.some.injEq]
    omega
  · rw [List.singleton_append, exponentValue?, splitSign]
    simp only [hvalid, digitsValue_digitsOf, Bool.false_eq_true, if_false, if_true,
      Option.some.injEq]
    omega

/-- An exponent behind a numeral multiplies its value. -/
theorem isNumeral_exponent (hne : digits ≠ []) (hdigits : ∀ c ∈ digits, c.isDigit = true)
    (hfraction : ∀ c ∈ fraction, c.isDigit = true) (power : Int) :
    IsNumeral (digits ++ '.' :: fraction ++
        'E' :: ((if 0 ≤ power then [] else ['-']) ++ Layout.digitsOf power.natAbs))
      (digitsValue (digits ++ fraction) * 10 ^ (power - fraction.length)) where
  starts := by
    obtain ⟨c, rest, rfl⟩ := List.exists_cons_of_ne_nil hne
    exact ⟨c, _, rfl, hdigits c List.mem_cons_self⟩
  read := by
    have hmark : ∀ c ∈ digits ++ '.' :: fraction, (c == 'e' || c == 'E') = false := fun c hc => by
      simpa using ne_mark_of_mem_decimal hdigits hfraction c hc
    refine ⟨⟨digitsValue (digits ++ fraction), -(fraction.length : Int) + power⟩, ?_, ?_⟩
    · rw [decimalValue?, splitFirst_append hmark rfl]
      simp only [mantissaValue?_decimal hne hdigits hfraction, exponentValue?_digitsOf,
        Option.map_some]
    · rw [Decimal.value, neg_add_eq_sub]

end

/-! ## Layouts -/

/-- Is this one of the characters that printed numbers consist of? -/
def isNumeric (c : Char) : Bool := c.isDigit || c == '-' || c == '.' || c == 'E'

/-- A digit may be part of a number that is printed. -/
theorem isNumeric_of_isDigit {c : Char} (h : c.isDigit = true) : isNumeric c = true := by
  rw [isNumeric, h]
  rfl

namespace Layout

/-- A decimal that is laid out without an exponent is a numeral for its value. -/
theorem isNumeral_plain (d : Decimal) : IsNumeral (printed.plain d) d.value := by
  have hdigits := isDigit_of_mem_digitsOf (n := d.digits)
  have hne := digitsOf_ne_nil d.digits
  unfold plain
  dsimp only
  split
  · next hle =>
    -- A whole number, with a zero for each power of ten.
    have hpow : (10 : ℚ) ^ d.exponent = 10 ^ d.exponent.toNat := by
      rw [← zpow_natCast, Int.toNat_of_nonneg hle]
    have hzeros : ∀ c ∈ digitsOf d.digits ++ List.replicate d.exponent.toNat '0', c.isDigit =
        true :=
      List.forall_mem_append.2 ⟨hdigits, isDigit_of_mem_zeros⟩
    have hnumeral := isNumeral_whole (List.append_ne_nil_of_left_ne_nil hne _) hzeros
    rw [digitsValue_append_zeros, digitsValue_digitsOf, Nat.cast_mul, mul_comm] at hnumeral
    have hvalue : d.value = d.digits * (10 ^ d.exponent.toNat : Nat) := by
      rw [Decimal.value, hpow]
      norm_num
    rw [hvalue]
    simpa [printed] using hnumeral
  · next hlt =>
    have hplaces : -((-d.exponent).toNat : Int) = d.exponent := by omega
    split
    · next hshort =>
      -- The point stands inside of the digits.
      generalize hsplit : (digitsOf d.digits).length - (-d.exponent).toNat = front
      have hfront : (digitsOf d.digits).take front ≠ [] :=
        List.length_pos_iff.1 (by rw [List.length_take]; omega)
      have htake : ∀ c ∈ (digitsOf d.digits).take front, c.isDigit = true := fun c hc =>
        hdigits c (List.mem_of_mem_take hc)
      have hdrop : ∀ c ∈ (digitsOf d.digits).drop front, c.isDigit = true := fun c hc =>
        hdigits c (List.mem_of_mem_drop hc)
      have hwhole := isNumeral_decimal hfront htake hdrop
      have hlength : (digitsOf d.digits).length - front = (-d.exponent).toNat := by omega
      rwa [List.take_append_drop, digitsValue_digitsOf, List.length_drop, hlength, hplaces]
        at hwhole
    · next hlong =>
      -- The point stands in front of the digits, with zeros between it and them.
      have hfraction :
          ∀ c ∈ List.replicate ((-d.exponent).toNat - (digitsOf d.digits).length) '0' ++
            digitsOf d.digits, c.isDigit = true :=
        List.forall_mem_append.2 ⟨isDigit_of_mem_zeros, hdigits⟩
      have hzeros :=
        isNumeral_decimal (List.cons_ne_nil '0' []) (isDigit_of_mem_zeros (k := 1)) hfraction
      have hlength : (-d.exponent).toNat - (digitsOf d.digits).length + (digitsOf d.digits).length =
          (-d.exponent).toNat := by omega
      have hvalue := digitsValue_zeros_append ((-d.exponent).toNat - (digitsOf d.digits).length + 1)
        (digitsOf d.digits)
      rw [List.replicate_succ, List.cons_append, digitsValue_digitsOf] at hvalue
      simp only [List.singleton_append] at hzeros
      rwa [hvalue, List.length_append, List.length_replicate, hlength,
        hplaces] at hzeros

/-- A decimal that is laid out with an exponent is a numeral for its value. -/
theorem isNumeral_scientific (d : Decimal) : IsNumeral (printed.scientific d) d.value := by
  have hdigits := isDigit_of_mem_digitsOf (n := d.digits)
  obtain ⟨first, others, hcons⟩ := List.exists_cons_of_ne_nil (digitsOf_ne_nil d.digits)
  have hread := digitsValue_digitsOf d.digits
  rw [hcons] at hdigits hread
  have hmark (power : Int) : (if 0 ≤ power then printed.mark else printed.negativeMark).toList =
      'E' :: (if 0 ≤ power then [] else ['-']) := by
    split <;> rfl
  rw [scientific]
  simp only [hcons, hmark, List.take_succ_cons, List.take_zero, List.drop_succ_cons, List.drop_zero,
    List.length_cons, List.append_assoc, List.cons_append]
  cases others with
  | nil =>
    -- A single digit gets a zero behind the point, so the digits are ten times as much.
    have hnumeral :=
      isNumeral_exponent (List.cons_ne_nil first []) hdigits (isDigit_of_mem_zeros (k := 1))
      (d.exponent + (([] : List Char).length + 1 : Nat) - 1)
    have hvalue : d.value = (digitsValue ([first] ++ List.replicate 1 '0') : Nat) *
        (10 : ℚ) ^ (d.exponent + (([] : List Char).length +
          1 : Nat) - 1 - (List.replicate 1 '0').length) := by
      have hexponent : d.exponent + (([] : List Char).length +
        1 : Nat) - 1 - (List.replicate 1 '0').length =
          d.exponent - 1 := by simp
      rw [digitsValue_append_zeros, hread, Decimal.value, hexponent, zpow_sub₀ (by norm_num)]
      push_cast
      field_simp
    rw [hvalue]
    simpa [printed] using hnumeral
  | cons second others =>
    have hnumeral := isNumeral_exponent (List.cons_ne_nil first [])
      (fun c hc => hdigits c (List.mem_singleton.1 hc ▸ List.mem_cons_self))
      (fun c hc => hdigits c (List.mem_cons_of_mem _ hc))
      (d.exponent + ((second :: others).length + 1 : Nat) - 1)
    have hexponent : d.exponent + ((second :: others).length + 1 : Nat) - 1 - (second ::
      others).length =
        d.exponent := by omega
    simp only [List.singleton_append] at hnumeral
    rw [hread, hexponent] at hnumeral
    rw [Decimal.value]
    simpa using hnumeral

/-- However a decimal is printed, it is a numeral for its value. -/
theorem isNumeral_decimal (d : Decimal) : IsNumeral (printed.decimal d) d.value := by
  unfold decimal
  dsimp only
  split
  · exact isNumeral_plain d
  · exact isNumeral_scientific d

/-- A decimal is printed with characters of numbers only. -/
theorem isNumeric_of_mem_decimal {d : Decimal} : ∀ c ∈ printed.decimal d, isNumeric c = true := by
  -- Both layouts put together digits, zeros, a point, a mark and a sign, each of which is known by
  -- now.
  have hdigits : ∀ {n : Nat}, ∀ c ∈ digitsOf n, isNumeric c = true := fun c hc =>
    isNumeric_of_isDigit (isDigit_of_mem_digitsOf c hc)
  have htake : ∀ {n k : Nat}, ∀ c ∈ (digitsOf n).take k, isNumeric c = true := fun c hc =>
    hdigits c (List.mem_of_mem_take hc)
  have hdrop : ∀ {n k : Nat}, ∀ c ∈ (digitsOf n).drop k, isNumeric c = true := fun c hc =>
    hdigits c (List.mem_of_mem_drop hc)
  have hzeros : ∀ {k : Nat}, ∀ c ∈ List.replicate k '0', isNumeric c = true := fun c hc =>
    isNumeric_of_isDigit (isDigit_of_mem_zeros c hc)
  unfold decimal
  dsimp only
  split
  · unfold plain
    dsimp only
    split
    · exact List.forall_mem_append.2 ⟨List.forall_mem_append.2 ⟨hdigits, hzeros⟩, by simp [printed]⟩
    · split
      · exact List.forall_mem_append.2 ⟨htake, List.forall_mem_cons.2 ⟨rfl, hdrop⟩⟩
      · exact List.forall_mem_cons.2 ⟨rfl, List.forall_mem_cons.2 ⟨rfl,
          List.forall_mem_append.2 ⟨hzeros, hdigits⟩⟩⟩
  · unfold scientific
    dsimp only
    refine List.forall_mem_append.2 ⟨List.forall_mem_append.2
      ⟨List.forall_mem_append.2 ⟨htake, ?_⟩, ?_⟩, hdigits⟩
    · split
      · exact List.forall_mem_cons.2 ⟨rfl, hdrop⟩
      · exact by simp [printed, isNumeric]
    · split <;> simp [printed, isNumeric]

end Layout

/-- Is a double neither infinite nor no number? -/
def IsFinite (x : Float) : Prop := ∃ b, shape x = .finite b

section

variable {x : Float} {b : Binary}

/-- The text of a finite double is its layout. -/
theorem text_eq_finite (hx : shape x = .finite b) :
    text x = String.ofList (printed.finite x b) := by
  rw [text, Layout.text, hx]

/-- Digits, a sign, a point and the mark of an exponent are all that printed numbers consist of. -/
theorem isNumeric_of_mem_text (hx : IsFinite x) : ∀ c ∈ (text x).toList, isNumeric c = true := by
  obtain ⟨b, hx⟩ := hx
  rw [text_eq_finite hx, String.toList_ofList, Layout.finite]
  split
  · exact List.forall_mem_cons.2 ⟨rfl, Layout.isNumeric_of_mem_decimal⟩
  · exact Layout.isNumeric_of_mem_decimal

/-- A printed number begins with a digit or a minus sign. -/
theorem exists_cons_text (hx : IsFinite x) :
    ∃ c rest, (text x).toList = c :: rest ∧ (c = '-' ∨ c.isDigit = true) := by
  obtain ⟨b, hx⟩ := hx
  obtain ⟨⟨c, rest, hcons, hc⟩, -⟩ := Layout.isNumeral_decimal (shortestOf printed.tie x b)
  rw [text_eq_finite hx, String.toList_ofList, Layout.finite, hcons]
  split
  · exact ⟨_, _, rfl, .inl rfl⟩
  · exact ⟨_, _, rfl, .inr hc⟩

end

/-- **Printed numbers read back.** What is printed for a double that is not infinite is read as the
    same double. -/
theorem ofNumeral?_text {x : Float} (hx : IsFinite x) : ofNumeral? (text x).toList = some x := by
  obtain ⟨b, hx⟩ := hx
  -- What is printed is a numeral with the value of the shortest digits, and these are rounded back
  -- to the double.
  obtain ⟨⟨c, rest, hcons, hc⟩, d, hread, hvalue⟩ :=
    Layout.isNumeral_decimal (shortestOf printed.tie x b)
  have hfloat : d.toFloat b.negative = x := by
    rw [Decimal.toFloat_congr _ hvalue, toFloat_shortestOf _ hx]
  rw [text_eq_finite hx, String.toList_ofList, Layout.finite]
  -- The sign is split off by the reader before the numeral is read, and put back behind.
  cases hnegative : b.negative with
  | true =>
    rw [if_pos rfl, ofNumeral?, splitSign]
    dsimp only
    rw [hread, ← hnegative, Option.map_some, hfloat]
  | false =>
    rw [hcons] at hread ⊢
    rw [if_neg Bool.false_ne_true, ofNumeral?, splitSign_of_isDigit hc]
    dsimp only
    rw [hread, ← hnegative, Option.map_some, hfloat]

end Treewalk.Number
