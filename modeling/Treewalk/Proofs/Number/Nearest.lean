import Treewalk.Proofs.Number.Numeral
import Treewalk.Proofs.Number.Rounding

/-!
# Rounding to the nearest double

A number that is zero or positive is rounded to the double that is closest to it. Of two that are
just as close it is the one with the even mantissa, and from halfway between the largest double and
the next power of two on it is infinity (`IsNearest`). Quotients of naturals are rounded in this way
(`isNearest_ofQuotient`), and so are decimals when they are read (`Decimal.isNearest_toFloat`) and
numerals without an exponent (`Denotes.exists_nearest`).

Rounding measures a number in the unit of the doubles around it, a power of two, and goes to the
nearest integer (`Rounds`). Doubles with this unit or a larger one are integers as well, so they are
no closer. Doubles with a smaller unit are below all integers that use all bits of a mantissa, and
one of these is between.
-/

namespace Treewalk.Number

/-! ## Bits of doubles -/

section

variable {negative : Bool} {bits : Nat}

open Float.Model in
/-- A pattern of bits whose magnitude is no larger than that of infinity is that of a double. -/
theorem valid_of_le {pattern : UInt64} (hbits : bits ≤ infinityBits)
    (hpattern : pattern.toNat = if negative then 2 ^ 63 + bits else bits) :
    Format.binary64.Valid pattern.toBitVec where
  eq_packedNaN := by
    -- With all bits of the exponent set, the magnitude is that of infinity, which has no fraction.
    intro hexponent hmantissa
    have hfield : pattern.toNat / 2 ^ 52 % 2 ^ 11 = 2047 := by
      have hset := congrArg BitVec.toNat hexponent
      simpa [UnpackedFloat.unpackExponent, BitVec.extractLsb, BitVec.extractLsb',
        Nat.shiftRight_eq_div_pow]
        using hset
    have hfraction : pattern.toNat % 2 ^ 52 ≠ 0 := by
      intro hzero
      refine hmantissa (BitVec.eq_of_toNat_eq ?_)
      simpa [UnpackedFloat.unpackMantissa, BitVec.extractLsb, BitVec.extractLsb'] using hzero
    rw [infinityBits, Nat.pow_eq] at hbits
    split at hpattern <;> omega

/-- The double with some magnitude bits has these bits. -/
theorem toNat_toBits_ofMagnitude (hbits : bits ≤ infinityBits) :
    (ofMagnitude negative bits).toBits.toNat = if negative then 2 ^ 63 + bits else bits := by
  have hpattern : (UInt64.ofNat (if negative then Nat.pow 2 63 + bits else bits)).toNat =
      if negative then 2 ^ 63 + bits else bits := by
    rw [UInt64.toNat_ofNat', Nat.pow_eq]
    apply Nat.mod_eq_of_lt
    rw [infinityBits, Nat.pow_eq] at hbits
    split <;> omega
  rw [ofMagnitude]
  generalize UInt64.ofNat (if negative then Nat.pow 2 63 + bits else bits) = pattern at hpattern
  -- The double that is made of this pattern is the one that is read from it.
  have hdouble : Float.ofBits pattern = ⟨⟨pattern, valid_of_le hbits hpattern⟩⟩ :=
    Float.ofBits_toBits ⟨⟨pattern, valid_of_le hbits hpattern⟩⟩
  rw [hdouble]
  exact hpattern

/-- The magnitude bits of infinity are those of infinity. -/
theorem shape_infinity : shape (ofMagnitude false infinityBits) = .infinite false := by
  unfold shape
  rw [toNat_toBits_ofMagnitude (Nat.le_refl _)]
  rfl

/-- The magnitude bits of a value are those of the double with this value. -/
theorem shape_bits {mantissa : Nat} {exponent : Int}
    (hb : Binary.Canonical ⟨false, mantissa, exponent⟩) :
    shape (ofMagnitude false (Binary.bits ⟨false, mantissa, exponent⟩)) =
      .finite ⟨false, mantissa, exponent⟩ := by
  obtain ⟨hmantissa, hle, hexponent, hfull⟩ := hb
  dsimp only at hmantissa hle hexponent hfull
  generalize hvalue : Binary.bits ⟨false, mantissa, exponent⟩ = bits
  rw [Binary.bits] at hvalue
  dsimp only at hvalue
  have hbits : bits ≤ infinityBits := by
    rw [infinityBits, Nat.pow_eq]
    omega
  have hsign : decide (Nat.pow 2 63 ≤ bits) = false := by
    rw [Nat.pow_eq, decide_eq_false_iff_not]
    omega
  unfold shape
  rw [toNat_toBits_ofMagnitude hbits, if_neg Bool.false_ne_true]
  dsimp only
  rw [hsign]
  simp only [Nat.pow_eq]
  -- The field is zero if the mantissa is not full, and only then.
  split
  · omega
  · split
    · congr 2 <;> omega
    · congr 2 <;> omega

end

/-! ## Rounding to integers -/

/-- A quotient is rounded to an integer that is no more than a half away, and to an even one if it
is just that far away. -/
theorem roundQuotient_spec {den : Nat} (hden : 0 < den) (num : Nat) :
    |(num / den : ℚ) - roundQuotient num den| ≤ 1 / 2 ∧
      (|(num / den : ℚ) - roundQuotient num den| = 1 / 2 → roundQuotient num den % 2 = 0) := by
  have hpos : (0 : ℚ) < den := Nat.cast_pos.2 hden
  -- The part of the quotient behind the point.
  obtain ⟨part, hpart⟩ : ∃ part : ℚ, part = (num % den : Nat) / den := ⟨_, rfl⟩
  have hquotient : (num / den : ℚ) = (num / den : Nat) + part := by
    rw [hpart, eq_comm, ← eq_sub_iff_add_eq', div_eq_iff hpos.ne', sub_mul,
      div_mul_cancel₀ _ hpos.ne', eq_sub_iff_add_eq']
    exact_mod_cast Nat.div_add_mod' num den
  have hlow : 0 ≤ part := hpart ▸ by positivity
  have hlt : part < 1 := by
    rw [hpart, div_lt_one hpos]
    exact_mod_cast Nat.mod_lt num hden
  have hhalf : 2 * (num % den) < den ↔ part < 1 / 2 := by
    rw [hpart, div_lt_iff₀ hpos, one_div_mul_eq_div, lt_div_iff₀' two_pos]
    exact_mod_cast Iff.rfl
  have htie : 2 * (num % den) = den ↔ part = 1 / 2 := by
    rw [hpart, div_eq_iff hpos.ne', one_div_mul_eq_div, eq_div_iff two_ne_zero, mul_comm]
    exact_mod_cast Iff.rfl
  rw [roundQuotient, hquotient]
  split
  · next hdown =>
    rw [hhalf, htie] at hdown
    rw [add_sub_cancel_left, abs_of_nonneg hlow]
    obtain hbelow | ⟨hequal, heven⟩ := hdown
    · exact ⟨hbelow.le, fun heq => absurd heq hbelow.ne⟩
    · exact ⟨hequal.le, fun _ => heven⟩
  · next hup =>
    rw [hhalf, htie] at hup
    push Not at hup
    have hdistance : ((num / den : Nat) : ℚ) + part - ((num / den + 1 : Nat) : ℚ) = part - 1 := by
      push_cast
      ring
    rw [hdistance, abs_of_neg (by linarith)]
    refine ⟨by linarith [hup.1], fun heq => ?_⟩
    have hodd := hup.2 (by linarith)
    omega

/-- What is no more than a half away from an integer is no closer to another one, and as close only
    if it is a half away. -/
theorem abs_sub_le_of_le_half {x : ℚ} {n : Nat} (h : |x - n| ≤ 1 / 2) (k : Nat) :
    |x - n| ≤ |x - k| ∧ (|x - n| = |x - k| → k = n ∨ |x - n| = 1 / 2) := by
  obtain rfl | hne := eq_or_ne k n
  · exact ⟨le_refl _, fun _ => .inl rfl⟩
  · have hone : (1 : ℚ) ≤ |(n : ℚ) - k| := by
      have hint : 1 ≤ |(n : ℤ) - k| := Int.one_le_abs (by omega)
      exact_mod_cast hint
    have htriangle := abs_sub_le (n : ℚ) x k
    rw [abs_sub_comm (n : ℚ) x] at htriangle
    exact ⟨by linarith, fun heq => .inr (by linarith)⟩

/-! ## The nearest double -/

/-- The value of a binary. -/
def Binary.value (b : Binary) : ℚ := if b.negative then -b.magnitude else b.magnitude

/-- The double is the one that a number, zero or positive, is rounded to: no double is closer to the
    number, and if another one is just as close then the mantissa is even. From halfway between the
    largest double and the next power of two on, numbers are rounded to infinity. -/
inductive IsNearest (x : Float) (value : ℚ) : Prop where
  | finite {b : Binary} (hx : shape x = .finite b) (hsign : b.negative = false)
      (hrange : value < 2 ^ 1024 - 2 ^ 970)
      (hnearest : ∀ y c, shape y = .finite c → |value - b.value| ≤ |value - c.value|)
      (heven : ∀ y c, shape y = .finite c → |value - b.value| = |value - c.value| →
        c.value = b.value ∨ b.mantissa % 2 = 0)
  | infinite (hx : shape x = .infinite false) (hrange : 2 ^ 1024 - 2 ^ 970 ≤ value)

section

variable {num den n : Nat} {e : Int} {c : Binary}

/-- An integer with at most fifty-three bits, or the next one, is the mantissa of a double, unless
    this would be beyond the largest one. -/
theorem exists_canonical (hn : n ≤ 2 ^ 53) (he : -1074 ≤ e) (hfull : e = -1074 ∨ 2 ^ 52 ≤ n)
    (hrange : (e + 1074).toNat * 2 ^ 52 + n < infinityBits) :
    ∃ mantissa exponent, Binary.Canonical ⟨false, mantissa, exponent⟩ ∧
      Binary.bits ⟨false, mantissa, exponent⟩ = (e + 1074).toNat * 2 ^ 52 + n ∧
      Binary.magnitude ⟨false, mantissa, exponent⟩ = n * 2 ^ e ∧
        (n % 2 = 0 → mantissa % 2 = 0) := by
  rw [infinityBits, Nat.pow_eq] at hrange
  obtain hlt | rfl := Nat.lt_or_eq_of_le hn
  · exact ⟨n, e, ⟨hlt, he, by dsimp only; omega, hfull⟩, rfl, rfl, id⟩
  · -- The mantissa has got one bit more, and starts over with the next exponent.
    refine ⟨2 ^ 52, e + 1, ⟨by norm_num,
      by dsimp only; omega, by dsimp only; omega, .inr (le_refl _)⟩, ?_, ?_, fun _ => by decide⟩
    · simp only [Binary.bits]
      omega
    · simp only [Binary.magnitude]
      rw [zpow_add₀ two_ne_zero, zpow_one]
      push_cast
      ring

/-- A number is as far from an integer, with a power of two as the unit, as it is when measured in
    this unit. -/
theorem abs_sub_mul_zpow (value : ℚ) (k : Nat) (e : Int) :
    |value - k * 2 ^ e| = |value * 2 ^ (-e) - k| * 2 ^ e := by
  have hpos : (0 : ℚ) < 2 ^ e := zpow_pos two_pos e
  rw [← abs_of_pos hpos, ← abs_mul, abs_of_pos hpos, sub_mul, mul_assoc, ← zpow_add₀ two_ne_zero,
    neg_add_cancel, zpow_zero, mul_one]

/-- With the exponent of a quotient, no double is closer to the quotient than the nearest
    integer. -/
theorem nearest_magnitude {value : ℚ} (hround : |value * 2 ^ (-e) - n| ≤ 1 / 2)
    (htie : |value * 2 ^ (-e) - n| = 1 / 2 → n % 2 = 0)
    (hfull : e = -1074 ∨ 2 ^ (e + 52) ≤ value) (hc : c.Canonical) :
    |value - n * 2 ^ e| ≤ |value - c.magnitude| ∧
      (|value - n * 2 ^ e| = |value - c.magnitude| → c.magnitude = n * 2 ^ e ∨ n % 2 = 0) := by
  have hpos : (0 : ℚ) < 2 ^ e := zpow_pos two_pos e
  obtain hge | hlt := le_or_gt e c.exponent
  · -- The double is an integer in the same unit.
    obtain ⟨k, hk⟩ : ∃ k : Nat, c.magnitude = k * 2 ^ e := by
      refine ⟨c.mantissa * 2 ^ (c.exponent - e).toNat, ?_⟩
      have hexponent : c.exponent = ((c.exponent - e).toNat : Int) + e := by omega
      rw [Binary.magnitude, Nat.cast_mul, Nat.cast_pow, mul_assoc, ← zpow_natCast]
      rw [Nat.cast_ofNat, ← zpow_add₀ two_ne_zero, ← hexponent]
    obtain ⟨hnearest, hequal⟩ := abs_sub_le_of_le_half hround k
    rw [hk, abs_sub_mul_zpow, abs_sub_mul_zpow]
    refine ⟨by gcongr, fun heq => ?_⟩
    obtain rfl | hhalf := hequal (mul_right_cancel₀ hpos.ne' heq)
    · exact .inl rfl
    · exact .inr (htie hhalf)
  · -- The double is below the smallest integer with all bits, which is no closer than the nearest
    -- one.
    have hge : (2 : ℚ) ^ (e + 52) ≤ value := hfull.resolve_left (by have := hc.le_exponent; omega)
    have hbelow : c.magnitude < 2 ^ (e + 52) :=
      hc.magnitude_lt.trans_le (zpow_le_zpow_right₀ one_le_two (by omega))
    have hunit : (2 : ℚ) ^ (e + 52) = (2 ^ 52 : Nat) * 2 ^ e := by
      rw [add_comm, zpow_add₀ two_ne_zero]
      norm_cast
    have hnearest := (abs_sub_le_of_le_half hround (2 ^ 52)).1
    have hcloser : |value - n * 2 ^ e| ≤ |value - (2 ^ 52 : Nat) * 2 ^ e| := by
      rw [abs_sub_mul_zpow, abs_sub_mul_zpow]
      gcongr
    rw [← hunit, abs_of_nonneg (sub_nonneg.2 hge)] at hcloser
    have hfar : |value - c.magnitude| = value - c.magnitude := abs_of_nonneg (by linarith)
    rw [hfar]
    exact ⟨by linarith, fun heq => by linarith⟩

/-! ## Numbers and what they are rounded to -/

/-- A number with the unit and the integer that it is rounded to: measured in the unit it has no
    more than fifty-three bits in front of the point, and just as many unless the unit is the
    smallest one. -/
structure Rounds (value : ℚ) (e : Int) (n : Nat) : Prop where
  le_exponent : -1074 ≤ e
  value_lt : value < 2 ^ (e + 53)
  full : e = -1074 ∨ 2 ^ (e + 52) ≤ value
  round : |value * 2 ^ (-e) - n| ≤ 1 / 2
  tie : |value * 2 ^ (-e) - n| = 1 / 2 → n % 2 = 0

namespace Rounds

variable {value : ℚ}

/-- Measured in its unit, a number has no more than fifty-three bits. -/
theorem scaled_lt (h : Rounds value e n) : value * 2 ^ (-e) < 2 ^ 53 := by
  have hpos : (0 : ℚ) < 2 ^ (-e) := zpow_pos two_pos _
  calc value * 2 ^ (-e) < 2 ^ (e + 53) * 2 ^ (-e) := by
        have := h.value_lt
        gcongr
    _ = 2 ^ 53 := by
      rw [← zpow_add₀ two_ne_zero, add_right_comm, add_neg_cancel, zero_add]
      norm_cast

/-- Measured in its unit, a number has fifty-three bits unless the unit is the smallest one. -/
theorem le_scaled (h : Rounds value e n) : e = -1074 ∨ 2 ^ 52 ≤ value * 2 ^ (-e) := by
  have hpos : (0 : ℚ) < 2 ^ (-e) := zpow_pos two_pos _
  refine h.full.imp_right fun hge => ?_
  calc (2 : ℚ) ^ 52 = 2 ^ (e + 52) * 2 ^ (-e) := by
        rw [← zpow_add₀ two_ne_zero, add_right_comm, add_neg_cancel, zero_add]
        norm_cast
    _ ≤ value * 2 ^ (-e) := by gcongr

/-- The rounded integer may be one more bit long, but then it is the power of two itself. -/
theorem n_le (h : Rounds value e n) : n ≤ 2 ^ 53 := by
  have hround := (abs_le.1 h.round).1
  have hlt : (n : ℚ) < 2 ^ 53 + 1 := by linarith [h.scaled_lt]
  exact Nat.lt_succ_iff.1 (by exact_mod_cast hlt)

/-- The rounded integer has fifty-three bits unless the unit is the smallest one. -/
theorem n_full (h : Rounds value e n) : e = -1074 ∨ 2 ^ 52 ≤ n := by
  refine h.le_scaled.imp_right fun hge => ?_
  have hround := (abs_le.1 h.round).2
  have hlt : (2 ^ 52 : ℚ) < n + 1 := by linarith
  exact Nat.lt_succ_iff.1 (by exact_mod_cast hlt)

/-- Measured in the largest unit, halfway between the largest double and the next power of two is a
    half below this power. -/
theorem halfway_eq : (2 : ℚ) ^ 1024 - 2 ^ 970 = (2 ^ 53 - 1 / 2) * 2 ^ (971 : Int) := by
  have hsum : 1024 = 53 + 971 := rfl
  have hpower : (2 : ℚ) ^ 1024 = 2 ^ 53 * 2 ^ 971 := by rw [hsum, pow_add]
  have hhalf : (2 : ℚ) ^ 971 = 2 ^ 970 * 2 := pow_succ 2 970
  rw [zpow_ofNat, sub_mul, ← hpower, hhalf, mul_comm, mul_assoc, mul_one_div_cancel two_ne_zero,
    mul_one]

/-- Rounding leads to infinity from halfway between the largest double and the next power of two
    on. -/
theorem lt_infinityBits_iff (h : Rounds value e n) :
    (e + 1074).toNat * 2 ^ 52 + n < infinityBits ↔ value < 2 ^ 1024 - 2 ^ 970 := by
  have hn := h.n_le
  have hfull := h.n_full
  have hle := h.le_exponent
  rw [infinityBits, Nat.pow_eq]
  obtain hsmall | rfl | hlarge : e ≤ 970 ∨ e = 971 ∨ 972 ≤ e := by omega
  · refine iff_of_true (by omega) ?_
    calc value < 2 ^ (e + 53) := h.value_lt
      _ ≤ 2 ^ (1023 : Int) := zpow_le_zpow_right₀ one_le_two (by omega)
      _ < 2 ^ 1024 - 2 ^ 970 := by
        have hlt : (2 : ℚ) ^ 970 < 2 ^ 1023 := pow_lt_pow_right₀ one_lt_two (by decide)
        have hdouble : (2 : ℚ) ^ 1024 = 2 ^ 1023 * 2 := pow_succ 2 1023
        rw [zpow_ofNat, hdouble, mul_two, lt_sub_iff_add_lt]
        exact (add_lt_add_iff_left _).2 hlt
  · have hscale : value < 2 ^ 1024 - 2 ^ 970 ↔ value * 2 ^ (-971 : Int) < 2 ^ 53 - 1 / 2 := by
      rw [halfway_eq, zpow_neg, ← div_eq_mul_inv, div_lt_iff₀ (zpow_pos two_pos _)]
    rw [hscale]
    have hround := abs_le.1 h.round
    constructor
    · intro hbits
      have hlt : n + 1 ≤ 2 ^ 53 := by omega
      have hcast : (n : ℚ) + 1 ≤ 2 ^ 53 := by exact_mod_cast hlt
      refine lt_of_le_of_ne (by linarith [hround.2]) fun heq => ?_
      -- A half below, a tie would have gone to the even integer above.
      have hnext : (n : ℚ) + 1 = 2 ^ 53 := le_antisymm hcast (by linarith [hround.2])
      have hodd : n + 1 = 2 ^ 53 := by exact_mod_cast hnext
      have hhalf : value * 2 ^ (-971 : Int) - n = 1 / 2 := by linarith
      have heven := h.tie (by rw [hhalf, abs_of_pos one_half_pos])
      omega
    · intro hlt
      have hcast : (n : ℚ) < 2 ^ 53 := by linarith [hround.1]
      have hn' : n < 2 ^ 53 := by exact_mod_cast hcast
      omega
  · refine iff_of_false (by omega) (not_lt.2 ?_)
    calc (2 : ℚ) ^ 1024 - 2 ^ 970 ≤ 2 ^ (1024 : Int) := by norm_num
      _ ≤ 2 ^ (e + 52) := zpow_le_zpow_right₀ one_le_two (by omega)
      _ ≤ value := h.full.resolve_left (by omega)

/-- No double is closer than the integer that is rounded to, zero and negative ones included. -/
theorem nearest (h : Rounds value e n) (hvalue : 0 ≤ value) (hc : c.Canonical) :
    |value - n * 2 ^ e| ≤ |value - c.value| ∧
      (|value - n * 2 ^ e| = |value - c.value| → c.value = n * 2 ^ e ∨ n % 2 = 0) := by
  have hmagnitude := nearest_magnitude h.round h.tie h.full hc
  rw [Binary.value]
  split
  · -- Zero is closer than negative doubles.
    have hzero := nearest_magnitude h.round h.tie h.full
      (c := ⟨false, 0, -1074⟩) ⟨by decide, le_refl _, by decide, .inl rfl⟩
    have hpos : 0 ≤ c.magnitude := by
      rw [Binary.magnitude]
      positivity
    rw [Binary.magnitude_eq_zero_iff.2 rfl, sub_zero, abs_of_nonneg hvalue] at hzero
    rw [sub_neg_eq_add, abs_of_nonneg (add_nonneg hvalue hpos)]
    refine ⟨by linarith [hzero.1], fun heq => ?_⟩
    have hnone : c.magnitude = 0 := le_antisymm (by linarith [hzero.1]) hpos
    rw [hnone, neg_zero]
    exact hzero.2 (by linarith)
  · exact hmagnitude

/-- The double with the bits that are put together from unit and integer is the one that the number
is rounded to. -/
theorem isNearest (h : Rounds value e n) (hvalue : 0 ≤ value) :
    IsNearest (ofMagnitude false (min ((e + 1074).toNat * 2 ^ 52 + n) infinityBits)) value := by
  have hrange := h.lt_infinityBits_iff
  obtain hlt | hge := lt_or_ge ((e + 1074).toNat * 2 ^ 52 + n) infinityBits
  · obtain ⟨mantissa, exponent, hb, hbits, hmagnitude, heven⟩ :=
      exists_canonical h.n_le h.le_exponent h.n_full hlt
    have hshape := shape_bits hb
    rw [min_eq_left hlt.le, ← hbits]
    rw [hbits] at hshape ⊢
    -- The double that these bits make is the rounded number, also where rounding up has carried
    -- into the exponent.
    have hb' : Binary.value ⟨false, mantissa, exponent⟩ = n * 2 ^ e := hmagnitude
    -- No finite double is nearer, and where another one is as near, the last bit is zero here.
    refine .finite hshape rfl (hrange.1 hlt) ?_ ?_
    · intro y c hy
      rw [hb']
      exact (h.nearest hvalue (canonical_of_shape hy)).1
    · intro y c hy heq
      rw [hb'] at heq ⊢
      exact ((h.nearest hvalue (canonical_of_shape hy)).2 heq).imp_right heven
  · rw [min_eq_right hge]
    exact .infinite shape_infinity (not_lt.1 fun hlt => hge.not_gt (hrange.2 hlt))

end Rounds

end

/-- What is at most half of the smallest double is rounded to zero. -/
theorem isNearest_zero {value : ℚ} (hvalue : 0 ≤ value) (hle : value ≤ 2 ^ (-1075 : Int)) :
    IsNearest (ofMagnitude false 0) value := by
  have hrounds : Rounds value (-1074) 0 := by
    refine ⟨le_refl _, hle.trans_lt (zpow_lt_zpow_right₀ one_lt_two (by decide)), .inl rfl, ?_,
      fun _ => rfl⟩
    rw [Nat.cast_zero, sub_zero, abs_of_nonneg (by positivity)]
    calc value * 2 ^ (-(-1074) : Int) ≤ 2 ^ (-1075 : Int) * 2 ^ (-(-1074) : Int) := by gcongr
      _ = 1 / 2 := by
        rw [← zpow_add₀ two_ne_zero]
        norm_num
  exact hrounds.isNearest hvalue

/-- Quotients are rounded to the nearest double. -/
theorem isNearest_ofQuotient {num den : Nat} (hden : 0 < den) :
    IsNearest (ofQuotient false num den) (num / den) := by
  have hvalue : (0 : ℚ) ≤ num / den := by positivity
  rw [ofQuotient]
  split
  · next hzero =>
    rw [hzero, Nat.cast_zero, zero_div]
    exact isNearest_zero (le_refl 0) (by positivity)
  · -- What rounding needs to know is how the unit was chosen and that the quotient was rounded to
    -- even.
    next hnum =>
    obtain ⟨hexponent, hlt, hfull⟩ := quotientExponent_spec hnum hden
    obtain ⟨hround, htie⟩ :=
      roundQuotient_spec (scaleQuotient_pos hden num (quotientExponent num den))
      (scaleQuotient num den (quotientExponent num den)).1
    rw [scaleQuotient_div] at hround htie
    exact Rounds.isNearest ⟨hexponent, hlt, hfull, hround, htie⟩ hvalue

/-- Decimals are read as the nearest double. -/
theorem Decimal.isNearest_toFloat (d : Decimal) : IsNearest (d.toFloat false) d.value := by
  have hvalue : 0 ≤ d.strip.value := by
    rw [value]
    positivity
  rw [toFloat, round, ← d.value_strip]
  split
  · -- Decimals far below the smallest double and far above the largest one are decided by their
    -- size alone, without the quotient.
    next hsmall =>
    refine isNearest_zero hvalue ?_
    obtain hzero | hlog := hsmall
    · rw [value_eq_zero_iff.2 hzero]
      positivity
    · exact (value_lt_of_log2_lt hlog).le.trans (zpow_le_zpow_right₀ one_le_two (by decide))
  · next hsmall =>
    push Not at hsmall
    split
    · next hlarge =>
      refine .infinite shape_infinity (le_trans ?_ (lt_value_of_lt_exponent hsmall.1 hlarge).le)
      rw [zpow_ofNat, sub_le_self_iff]
      positivity
    · rw [← Decimal.quotient_div]
      exact isNearest_ofQuotient (Nat.pow_pos (by decide))

/-! ## Numerals -/

/-- The number that a numeral stands for: its digits are a whole number, and the digits behind a
    point are as many tenths, hundredths and so on. -/
inductive Denotes : List Char → ℚ → Prop where
  | whole {digits : List Char} (hne : digits ≠ []) (hdigits : ∀ c ∈ digits, c.isDigit = true) :
      Denotes digits (Nat.ofDigitChars 10 digits 0)
  | decimal {digits fraction : List Char} (hne : digits ≠ [])
      (hdigits : ∀ c ∈ digits, c.isDigit = true) (hfraction : ∀ c ∈ fraction, c.isDigit = true) :
      Denotes (digits ++ '.' :: fraction)
        (Nat.ofDigitChars 10 digits 0 + Nat.ofDigitChars 10 fraction 0 / 10 ^ fraction.length)

/-- Digits with a fraction are all digits as one number, scaled by the length of the fraction. -/
theorem value_decimal (digits fraction : List Char) :
    Decimal.value ⟨digitsValue (digits ++ fraction), -(fraction.length : Int)⟩ =
      Nat.ofDigitChars 10 digits 0 + Nat.ofDigitChars 10 fraction 0 / 10 ^ fraction.length := by
  have happend : digitsValue (digits ++ fraction) =
      10 ^ fraction.length * Nat.ofDigitChars 10 digits 0 + Nat.ofDigitChars 10 fraction 0 := by
    rw [← Nat.ofDigitChars_eq_ofDigitChars_zero, ← Nat.ofDigitChars_append]
    rfl
  have hpos : (10 : ℚ) ^ fraction.length ≠ 0 := by positivity
  rw [Decimal.value, happend, zpow_neg, zpow_natCast, ← div_eq_mul_inv]
  push_cast
  rw [add_div, mul_div_cancel_left₀ _ hpos]

/-- Digits, with a fraction or without, are read as the nearest double. -/
theorem Denotes.exists_nearest {text : List Char} {value : ℚ} (h : Denotes text value) :
    ∃ x, ofNumeral? text = some x ∧ IsNearest x value := by
  cases h with
  | whole hne hdigits =>
    have hread := Decimal.isNearest_toFloat ⟨digitsValue text, 0⟩
    rw [Decimal.value, zpow_zero, mul_one] at hread
    exact ⟨_, ofNumeral?_whole hne hdigits, hread⟩
  | @decimal digits fraction hne hdigits hfraction =>
    have hread := Decimal.isNearest_toFloat
      ⟨digitsValue (digits ++ fraction), -(fraction.length : Int)⟩
    rw [value_decimal] at hread
    exact ⟨_, ofNumeral?_decimal hne hdigits hfraction, hread⟩

end Treewalk.Number
