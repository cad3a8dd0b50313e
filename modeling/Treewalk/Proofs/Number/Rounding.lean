import Mathlib
import Treewalk.Number.Shortest

/-!
# Exact values are read exactly

A double that is not infinite stands for a mantissa times a power of two (`Binary.magnitude`), and a
decimal for its digits times a power of ten (`Decimal.value`). Rounding takes a value to the nearest
double, so if the value is that of a double, rounding it gives this double back: for quotients of
naturals (`Binary.Canonical.nearestBits_eq`), and for decimals (`Decimal.toFloat_of_value_eq`).

It follows that the shortest digits of a double read back as it (`toFloat_shortestOf`): a candidate
is accepted by reading it, and the exact value, which is there in case that no candidate is
accepted, is read exactly.

That a double is made up of its bits (`Float.ofBits_toBits`) is a fact about the type itself, and of
all modules only `Mathlib` as a whole brings it in.
-/

namespace Treewalk.Number

/-! ## Values -/

/-- The value of a binary, sign aside. -/
def Binary.magnitude (b : Binary) : ℚ := b.mantissa * 2 ^ b.exponent

/-- The value of a decimal. -/
def Decimal.value (d : Decimal) : ℚ := d.digits * 10 ^ d.exponent

/-- A power is a quotient of naturals, one of which is one. -/
theorem toNat_pow_div {base : Nat} (hbase : 0 < base) (exponent : Int) :
    ((base ^ exponent.toNat : Nat) : ℚ) / (base ^ (-exponent).toNat : Nat) =
      (base : ℚ) ^ exponent := by
  have hne : (base : ℚ) ≠ 0 := Nat.cast_ne_zero.2 hbase.ne'
  rw [Nat.cast_pow, Nat.cast_pow, ← zpow_natCast, ← zpow_natCast, ← zpow_sub₀ hne]
  congr 1
  omega

/-- The quotient of a binary number is its magnitude. -/
theorem Binary.quotient_div (b : Binary) : (b.quotient.1 : ℚ) / b.quotient.2 = b.magnitude := by
  simp only [quotient, Nat.pow_eq, Nat.cast_mul, mul_div_assoc, toNat_pow_div two_pos]
  rfl

/-- The quotient of a decimal number is its value. -/
theorem Decimal.quotient_div (d : Decimal) : (d.quotient.1 : ℚ) / d.quotient.2 = d.value := by
  simp only [quotient, Nat.pow_eq, Nat.cast_mul, mul_div_assoc, toNat_pow_div (Nat.succ_pos 9)]
  rfl

/-- A decimal is zero if it has no digits but zero. -/
theorem Decimal.value_eq_zero_iff {d : Decimal} : d.value = 0 ↔ d.digits = 0 := by
  simp [value, zpow_ne_zero]

/-- The magnitude is zero just if the mantissa is. -/
theorem Binary.magnitude_eq_zero_iff {b : Binary} : b.magnitude = 0 ↔ b.mantissa = 0 := by
  simp [magnitude, zpow_ne_zero]

/-! ## Doubles -/

namespace Binary

/-- Is this how a double is read off its bits? The mantissa has at most fifty-three bits, and all of
    them unless the exponent is the smallest. -/
structure Canonical (b : Binary) : Prop where
  mantissa_lt : b.mantissa < 2 ^ 53
  le_exponent : -1074 ≤ b.exponent
  exponent_le : b.exponent ≤ 971
  full : b.exponent = -1074 ∨ 2 ^ 52 ≤ b.mantissa

/-- The magnitude bits of the double with this value. -/
def bits (b : Binary) : Nat := (b.exponent + 1074).toNat * 2 ^ 52 + b.mantissa

end Binary

section

variable {x : Float} {b : Binary}

/-- What is read off a finite double is canonical. -/
theorem canonical_of_shape (h : shape x = .finite b) : b.Canonical := by
  have hlt := x.toBits.toNat_lt
  unfold shape at h
  simp only [Nat.pow_eq, Nat.reducePow] at h
  split at h
  · split at h <;> cases h
  · split at h
    · cases h
      constructor <;> dsimp only <;> omega
    · cases h
      constructor <;> dsimp only <;> omega

/-- A double that is not infinite is the one with the bits of its value. -/
theorem ofMagnitude_bits (h : shape x = .finite b) : ofMagnitude b.negative b.bits = x := by
  have hlt := x.toBits.toNat_lt
  have hbits : (if b.negative then 2 ^ 63 + b.bits else b.bits) = x.toBits.toNat := by
    -- The cases are those of the exponent bits: all of them set, none of them set, and others in
    -- between.
    unfold shape at h
    simp only [Nat.pow_eq, Nat.reducePow] at h
    split at h
    · split at h <;> cases h
    · split at h
      · cases h
        simp only [Binary.bits, decide_eq_true_eq, Nat.reducePow, neg_add_cancel, Int.toNat_zero,
          zero_mul, zero_add]
        split <;> omega
      · cases h
        simp only [Binary.bits, decide_eq_true_eq, Nat.reducePow]
        split <;> omega
  rw [ofMagnitude, Nat.pow_eq, hbits, UInt64.ofNat_toNat, Float.ofBits_toBits]

end

/-! ## Rounding quotients -/

section

variable {num den : Nat} {b : Binary}

/-- Scaling keeps the denominator positive. -/
theorem scaleQuotient_pos (hden : 0 < den) (num : Nat) (exponent : Int) :
    0 < (scaleQuotient num den exponent).2 :=
  Nat.mul_pos hden (Nat.pow_pos two_pos)

/-- Scaling divides the quotient by a power of two. -/
theorem scaleQuotient_div (num den : Nat) (exponent : Int) :
    ((scaleQuotient num den exponent).1 : ℚ) / (scaleQuotient num den exponent).2 =
      num / den * 2 ^ (-exponent) := by
  have hpow := toNat_pow_div two_pos (-exponent)
  rw [neg_neg] at hpow
  rw [scaleQuotient, Nat.pow_eq, Nat.pow_eq, Nat.cast_mul, Nat.cast_mul, mul_div_mul_comm, hpow]
  rfl

/-- A quotient that is a natural number is rounded to it. -/
theorem roundQuotient_of_div_eq {n : Nat} (hden : 0 < den) (h : (num : ℚ) / den = n) :
    roundQuotient num den = n := by
  have hnum : num = n * den := by
    rw [div_eq_iff (Nat.cast_ne_zero.2 hden.ne')] at h
    exact_mod_cast h
  rw [hnum, roundQuotient, Nat.mul_mod_left, Nat.mul_div_cancel n hden]
  exact if_pos (.inl hden)

/-- The binary logarithms give the size of a quotient up to a factor of two, to either side. -/
theorem log2_bounds (hnum : num ≠ 0) (hden : den ≠ 0) :
    (2 : ℚ) ^ ((num.log2 : Int) - den.log2 - 1) < num / den ∧
      (num / den : ℚ) < 2 ^ ((num.log2 : Int) - den.log2 + 1) := by
  have hdenpos : (0 : ℚ) < den := Nat.cast_pos.2 (Nat.pos_of_ne_zero hden)
  -- Both numbers lie between two powers of two, and their quotient between the quotients of these.
  have hlow : (2 : ℚ) ^ (num.log2 : Int) ≤ num := by exact_mod_cast Nat.log2_self_le hnum
  have hhigh : (num : ℚ) < 2 ^ ((num.log2 : Int) + 1) := by exact_mod_cast Nat.lt_log2_self
  have hlow' : (2 : ℚ) ^ (den.log2 : Int) ≤ den := by exact_mod_cast Nat.log2_self_le hden
  have hhigh' : (den : ℚ) < 2 ^ ((den.log2 : Int) + 1) := by exact_mod_cast Nat.lt_log2_self
  constructor
  · rw [lt_div_iff₀ hdenpos]
    calc (2 : ℚ) ^ ((num.log2 : Int) - den.log2 - 1) * den
        < 2 ^ ((num.log2 : Int) - den.log2 - 1) * 2 ^ ((den.log2 : Int) + 1) := by gcongr
      _ = 2 ^ (num.log2 : Int) := by
        rw [← zpow_add₀ two_ne_zero]
        congr 1
        omega
      _ ≤ num := hlow
  · rw [div_lt_iff₀ hdenpos]
    calc (num : ℚ) < 2 ^ ((num.log2 : Int) + 1) := hhigh
      _ = 2 ^ ((num.log2 : Int) - den.log2 + 1) * 2 ^ (den.log2 : Int) := by
        rw [← zpow_add₀ two_ne_zero]
        congr 1
        omega
      _ ≤ 2 ^ ((num.log2 : Int) - den.log2 + 1) * den := by gcongr

/-- Whether a scaled quotient fits fifty-three bits shows in its value. -/
theorem scaleQuotient_div_lt_iff (hden : 0 < den) (exponent : Int) :
    (scaleQuotient num den exponent).1 / (scaleQuotient num den exponent).2 < 2 ^ 53 ↔
      (num / den : ℚ) < 2 ^ (exponent + 53) := by
  have hpos := scaleQuotient_pos hden num exponent
  have hcast : (0 : ℚ) < (scaleQuotient num den exponent).2 := Nat.cast_pos.2 hpos
  have hscaled : (num / den : ℚ) * 2 ^ (-exponent) < 2 ^ 53 ↔
      (num / den : ℚ) < 2 ^ (exponent + 53) := by
    rw [zpow_neg, ← div_eq_mul_inv, div_lt_iff₀ (zpow_pos two_pos exponent), ← zpow_natCast,
      ← zpow_add₀ two_ne_zero, add_comm]
    rfl
  rw [← hscaled, ← scaleQuotient_div, div_lt_iff₀ hcast, Nat.div_lt_iff_lt_mul hpos]
  exact_mod_cast Iff.rfl

/-- The exponent that a quotient is rounded with leaves fifty-three bits in front of the point, or
    fewer if it is the smallest one. -/
theorem quotientExponent_spec (hnum : num ≠ 0) (hden : 0 < den) :
    -1074 ≤ quotientExponent num den ∧ (num / den : ℚ) < 2 ^ (quotientExponent num den + 53) ∧
      (quotientExponent num den = -1074 ∨
        2 ^ (quotientExponent num den + 52) ≤ (num / den : ℚ)) := by
  obtain ⟨hlow, hhigh⟩ := log2_bounds hnum hden.ne'
  rw [quotientExponent]
  generalize hguess : max ((num.log2 : Int) - den.log2 - 53) (-1074) = guess
  rw [Nat.pow_eq]
  split
  · next hfits =>
    -- The guess is right, as it leaves enough bits unless it is the smallest exponent.
    refine ⟨by omega, (scaleQuotient_div_lt_iff hden guess).1 hfits, ?_⟩
    by_cases hmin : guess = -1074
    · exact .inl hmin
    · refine .inr ((zpow_le_zpow_right₀ one_le_two ?_).trans hlow.le)
      omega
  · next hlong =>
    -- The guess leaves one bit too many.
    rw [scaleQuotient_div_lt_iff hden, not_lt] at hlong
    refine ⟨by omega, hhigh.trans_le (zpow_le_zpow_right₀ one_le_two (by omega)), .inr ?_⟩
    rwa [add_assoc]

namespace Binary.Canonical

/-- The value of a double is below the next power of two. -/
theorem magnitude_lt (hb : b.Canonical) : b.magnitude < 2 ^ (b.exponent + 53) := by
  have hmantissa : (b.mantissa : ℚ) < 2 ^ (53 : Int) := by exact_mod_cast hb.mantissa_lt
  rw [magnitude, add_comm, zpow_add₀ two_ne_zero]
  gcongr

/-- If all bits of the mantissa are used, the value is not below the power of two in front of it. -/
theorem le_magnitude (hfull : 2 ^ 52 ≤ b.mantissa) : 2 ^ (b.exponent + 52) ≤ b.magnitude := by
  have hmantissa : (2 : ℚ) ^ (52 : Int) ≤ b.mantissa := by exact_mod_cast hfull
  rw [magnitude, add_comm, zpow_add₀ two_ne_zero]
  gcongr

/-- The smallest value is a power of two. -/
theorem min_le_magnitude (hb : b.Canonical) (hne : b.mantissa ≠ 0) :
    (2 : ℚ) ^ (-1074 : Int) ≤ b.magnitude := by
  have hmantissa : (1 : ℚ) ≤ b.mantissa := by exact_mod_cast Nat.one_le_iff_ne_zero.2 hne
  calc (2 : ℚ) ^ (-1074 : Int) ≤ 2 ^ b.exponent := zpow_le_zpow_right₀ one_le_two hb.le_exponent
    _ = 1 * 2 ^ b.exponent := (one_mul _).symm
    _ ≤ b.magnitude := by
      rw [magnitude]
      gcongr

/-- The exponent that a quotient is rounded with is that of its value, if the value is that of a
    double. -/
theorem quotientExponent_eq (hb : b.Canonical) (hne : b.mantissa ≠ 0) (hden : 0 < den)
    (h : (num : ℚ) / den = b.magnitude) : quotientExponent num den = b.exponent := by
  have hnum : num ≠ 0 := by
    rintro rfl
    rw [Nat.cast_zero, zero_div] at h
    exact hne (magnitude_eq_zero_iff.1 h.symm)
  obtain ⟨hmin, hlt, hge⟩ := quotientExponent_spec hnum hden
  have hle := hb.le_exponent
  rw [h] at hlt hge
  -- The value is between the same powers of two for both exponents, unless one of them is the
  -- smallest.
  have hnotabove : b.exponent = -1074 ∨ b.exponent ≤ quotientExponent num den := by
    refine hb.full.imp_right fun hfull => ?_
    have hpow := (le_magnitude hfull).trans_lt hlt
    rw [zpow_lt_zpow_iff_right₀ one_lt_two] at hpow
    omega
  have hnotbelow : quotientExponent num den = -1074 ∨ quotientExponent num den ≤ b.exponent := by
    refine hge.imp_right fun hfull => ?_
    have hpow := hfull.trans_lt hb.magnitude_lt
    rw [zpow_lt_zpow_iff_right₀ one_lt_two] at hpow
    omega
  omega

/-- A quotient with the value of a double is rounded to this double. -/
theorem nearestBits_eq (hb : b.Canonical) (hne : b.mantissa ≠ 0) (hden : 0 < den)
    (h : (num : ℚ) / den = b.magnitude) : nearestBits num den = b.bits := by
  -- In the unit of the binary number the quotient is an integer, so nothing is lost by rounding it.
  have hround : roundQuotient (scaleQuotient num den b.exponent).1
    (scaleQuotient num den b.exponent).2 =
      b.mantissa := by
    apply roundQuotient_of_div_eq (scaleQuotient_pos hden num b.exponent)
    rw [scaleQuotient_div, h, magnitude, mul_assoc, ← zpow_add₀ two_ne_zero, add_neg_cancel,
      zpow_zero, mul_one]
  have hmantissa := hb.mantissa_lt
  have hexponent := hb.exponent_le
  simp only [nearestBits, hb.quotientExponent_eq hne hden h, hround, infinityBits, Nat.pow_eq]
  rw [Binary.bits]
  omega

end Binary.Canonical

end

/-! ## Rounding decimals -/

namespace Decimal

variable {d d' : Decimal}

/-- Taking zeros off the end does not change the value. -/
theorem value_stripFrom (n : Nat) (exponent : Int) :
    (stripFrom n exponent).value = n * 10 ^ exponent := by
  fun_induction stripFrom n exponent with
  | case1 n exponent hzero ih =>
    have hn : (n : ℚ) = (n / 10 : Nat) * 10 := by exact_mod_cast (by omega : n = n / 10 * 10)
    rw [ih, hn, zpow_add₀ (by norm_num), zpow_one]
    ring
  | case2 n exponent hzero => rfl

/-- Moving factors ten from the digits into the exponent keeps the value. -/
theorem value_strip (d : Decimal) : d.strip.value = d.value := value_stripFrom d.digits d.exponent

/-- Taking zeros off the end leaves none, unless the number is zero. -/
theorem mod_stripFrom {n : Nat} (hn : n ≠ 0) (exponent : Int) :
    (stripFrom n exponent).digits % 10 ≠ 0 := by
  fun_induction stripFrom n exponent with
  | case1 n exponent hzero ih => exact ih (by omega)
  | case2 n exponent hzero => exact fun h => hzero ⟨h, hn⟩

/-- With no factor ten among their digits, decimals with the same value are the same. -/
theorem eq_of_value_eq (hd : d.digits % 10 ≠ 0) (hd' : d'.digits % 10 ≠ 0)
    (h : d.value = d'.value) : d = d' := by
  -- The digits of the smaller exponent have a factor ten for each step up to the larger one, so
  -- there is none.
  have hdigits {d d' : Decimal} (h : d.value = d'.value) (hle : d.exponent ≤ d'.exponent) :
      d.digits = d'.digits * 10 ^ (d'.exponent - d.exponent).toNat := by
    have hpow : (10 : ℚ) ^ d'.exponent =
        10 ^ (d'.exponent - d.exponent).toNat * 10 ^ d.exponent := by
      rw [← zpow_natCast, ← zpow_add₀ (by norm_num)]
      congr 1
      omega
    rw [value, value, hpow, ← mul_assoc, mul_left_inj' (zpow_ne_zero _ (by norm_num))] at h
    exact_mod_cast h
  have hexponent {d d' : Decimal} (h : d.value = d'.value) (hd : d.digits % 10 ≠ 0) : d'.exponent ≤
      d.exponent := by
    by_contra hlt
    rw [hdigits h (by omega)] at hd
    obtain ⟨k, hk⟩ :=
      Nat.exists_eq_succ_of_ne_zero (by omega : (d'.exponent - d.exponent).toNat ≠ 0)
    rw [hk, Nat.pow_succ, ← Nat.mul_assoc] at hd
    exact hd (Nat.mul_mod_left _ _)
  have heq : d.exponent = d'.exponent := le_antisymm (hexponent h.symm hd') (hexponent h hd)
  have hsame := hdigits h heq.le
  rw [heq, sub_self, Int.toNat_zero, pow_zero, mul_one] at hsame
  cases d
  cases d'
  simp_all

/-- A decimal is read by its value. -/
theorem toFloat_congr (negative : Bool) (h : d.value = d'.value) :
    d.toFloat negative = d'.toFloat negative := by
  by_cases hd : d.digits = 0
  · -- Zeros may differ in their exponents, which are not looked at.
    have hd' : d'.digits = 0 := value_eq_zero_iff.1 (h ▸ value_eq_zero_iff.2 hd)
    have hzero {d : Decimal} (hd : d.digits = 0) : d.toFloat negative = ofMagnitude negative 0 := by
      have hstrip : d.strip.digits = 0 :=
        value_eq_zero_iff.1 (d.value_strip ▸ value_eq_zero_iff.2 hd)
      rw [toFloat, round, if_pos (.inl hstrip)]
    rw [hzero hd, hzero hd']
  · have hd' : d'.digits ≠ 0 := fun hd' => hd (value_eq_zero_iff.1 (h ▸ value_eq_zero_iff.2 hd'))
    have hstrip : d.strip = d'.strip :=
      eq_of_value_eq (mod_stripFrom hd _) (mod_stripFrom hd' _)
        (by rw [value_strip, value_strip, h])
    rw [toFloat, toFloat, hstrip]

/-- What is cut off as too small is much smaller than every double. -/
theorem value_lt_of_log2_lt (h : (d.digits.log2 : Int) + 3 * d.exponent < -1100) :
    d.value < 2 ^ (-1099 : Int) := by
  have hdigits : (d.digits : ℚ) <
    2 ^ ((d.digits.log2 : Int) + 1) := by exact_mod_cast Nat.lt_log2_self
  -- The exponent is negative, and ten is more than two to the power of three.
  have hpow : (10 : ℚ) ^ d.exponent ≤ 2 ^ (3 * d.exponent) := by
    obtain ⟨k, hk⟩ : ∃ k : Nat, d.exponent = -k := ⟨(-d.exponent).toNat, by omega⟩
    rw [zpow_mul, hk, zpow_neg, zpow_neg, zpow_natCast, zpow_natCast]
    gcongr
    norm_num
  calc d.value < 2 ^ ((d.digits.log2 : Int) + 1) * 10 ^ d.exponent := by
        rw [value]
        gcongr
    _ ≤ 2 ^ ((d.digits.log2 : Int) + 1) * 2 ^ (3 * d.exponent) := by gcongr
    _ = 2 ^ ((d.digits.log2 : Int) + 1 + 3 * d.exponent) := (zpow_add₀ two_ne_zero _ _).symm
    _ ≤ 2 ^ (-1099 : Int) := zpow_le_zpow_right₀ one_le_two (by omega)

/-- What is cut off as too large is larger than every double. -/
theorem lt_value_of_lt_exponent (hne : d.digits ≠ 0) (h : 400 < d.exponent) :
    2 ^ (1024 : Int) < d.value := by
  have hdigits : (1 : ℚ) ≤ d.digits := by exact_mod_cast Nat.one_le_iff_ne_zero.2 hne
  -- Eight is less than ten, so three bits for each decimal place are a lower bound.
  have hpow : (2 : ℚ) ^ (3 * d.exponent) ≤ 10 ^ d.exponent := by
    obtain ⟨k, hk⟩ : ∃ k : Nat, d.exponent = k := ⟨d.exponent.toNat, by omega⟩
    rw [zpow_mul, hk, zpow_natCast, zpow_natCast]
    gcongr
    norm_num
  calc (2 : ℚ) ^ (1024 : Int) < 2 ^ (3 * d.exponent) := zpow_lt_zpow_right₀ one_lt_two (by omega)
    _ ≤ 10 ^ d.exponent := hpow
    _ = 1 * 10 ^ d.exponent := (one_mul _).symm
    _ ≤ d.value := by
      rw [value]
      gcongr

/-- A decimal with the value of a double is read as this double. -/
theorem toFloat_of_value_eq {x : Float} {b : Binary} (hx : shape x = .finite b)
    (h : d.value = b.magnitude) : d.toFloat b.negative = x := by
  have hb := canonical_of_shape hx
  have hstrip : d.strip.value = b.magnitude := d.value_strip.trans h
  by_cases hne : b.mantissa = 0
  · -- Zero is told from all other values by its digits.
    have hdigits : d.strip.digits = 0 := by
      rw [← value_eq_zero_iff, hstrip, Binary.magnitude_eq_zero_iff, hne]
    have hbits : b.bits = 0 := by
      rw [Binary.bits, hb.full.resolve_right (by omega), hne]
      rfl
    rw [toFloat, round, if_pos (.inl hdigits), ← hbits, ofMagnitude_bits hx]
  · -- The value is in the range of doubles, so it is not cut off before it is rounded.
    have hdigits : d.strip.digits ≠ 0 := fun h0 => hne (Binary.magnitude_eq_zero_iff.1
      (hstrip ▸ value_eq_zero_iff.2 h0))
    have hsmall : ¬(d.strip.digits = 0 ∨
        (d.strip.digits.log2 : Int) + 3 * d.strip.exponent < -1100) := by
      rintro (h0 | hlt)
      · exact hdigits h0
      · have hpow := (hb.min_le_magnitude hne).trans_lt (hstrip ▸ value_lt_of_log2_lt hlt)
        rw [zpow_lt_zpow_iff_right₀ one_lt_two] at hpow
        omega
    have hlarge : ¬400 < d.strip.exponent := by
      intro hlt
      have hlt' := (hstrip ▸ lt_value_of_lt_exponent hdigits hlt).trans hb.magnitude_lt
      rw [zpow_lt_zpow_iff_right₀ one_lt_two] at hlt'
      have := hb.exponent_le
      omega
    have hnum : d.strip.quotient.1 ≠ 0 := Nat.mul_ne_zero hdigits (Nat.pow_pos (by decide)).ne'
    have hden : 0 < d.strip.quotient.2 := Nat.pow_pos (by decide)
    rw [toFloat, round, if_neg hsmall, if_neg hlarge, ofQuotient, if_neg hnum,
      hb.nearestBits_eq hne hden (d.strip.quotient_div.trans hstrip), ofMagnitude_bits hx]

end Decimal

/-! ## Shortest digits -/

/-- The exact decimal of a value has the value. -/
theorem Binary.value_exactDecimal (b : Binary) : b.exactDecimal.value = b.magnitude := by
  simp only [exactDecimal, Decimal.value, magnitude, Nat.pow_eq, Nat.cast_mul, Nat.cast_pow,
    Nat.cast_ofNat]
  -- A negative power of two is as many fives over a power of ten; the others are integers.
  obtain ⟨k, hk | hk⟩ := b.exponent.eq_nat_or_neg
  · have hmin : min (k : Int) 0 = 0 := by omega
    have hneg : (-(k : Int)).toNat = 0 := by omega
    rw [hk, hmin, hneg, Int.toNat_natCast, zpow_natCast, pow_zero, zpow_zero, mul_one, mul_one]
  · have hmin : min (-(k : Int)) 0 = -k := by omega
    have hneg : (-(k : Int)).toNat = 0 := by omega
    have hten : (10 : ℚ) = 5 * 2 := by norm_num
    rw [hk, hmin, hneg, neg_neg, Int.toNat_natCast, pow_zero, mul_one, zpow_neg, zpow_neg,
      zpow_natCast, zpow_natCast, hten, mul_pow]
    field_simp

/-- The shortest digits of a double read back as the double. -/
theorem toFloat_shortestOf (tie : Tie) {x : Float} {b : Binary} (hx : shape x = .finite b) :
    (shortestOf tie x b).toFloat b.negative = x := by
  unfold shortestOf
  dsimp only
  split
  · next hzero =>
    apply Decimal.toFloat_of_value_eq hx
    rw [Decimal.value_eq_zero_iff.2 rfl, Binary.magnitude_eq_zero_iff.2 hzero]
  · rw [Decimal.toFloat_congr _ (Decimal.value_strip _)]
    generalize hfound : List.findSome? _ _ = found
    cases found with
    | none =>
      -- Whether seventeen digits always do need not be known: what is left is the exact decimal.
      exact Decimal.toFloat_of_value_eq hx b.value_exactDecimal
    | some d =>
      -- A candidate has been found because it reads back.
      obtain ⟨n, -, hd⟩ := List.exists_of_findSome?_eq_some hfound
      exact of_decide_eq_true (List.find?_some
        (p := fun d : Decimal => decide (d.toFloat b.negative = x)) hd)

end Treewalk.Number
