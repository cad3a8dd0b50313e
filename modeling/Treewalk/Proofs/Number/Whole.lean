import Treewalk.Proofs.Number.Nearest

/-!
# Doubles that are whole

The integer that a double stands for is read off its mantissa and exponent without rounding. So it
is there exactly if the value of the double is an integer, and is this value (`toInt?_eq_some_iff`).
Both zeros have the value zero.
-/

namespace Treewalk.Number

/-- The double is finite and has this value. -/
def HasValue (x : Float) (value : ℚ) : Prop := ∃ b, shape x = .finite b ∧ b.value = value

variable {b : Binary} {x : Float} {i : Int}

/-- No magnitude is negative. -/
theorem Binary.magnitude_nonneg (b : Binary) : 0 ≤ b.magnitude := by
  unfold Binary.magnitude
  positivity

/-- The magnitude is whole if the division leaves no remainder. -/
theorem Binary.magnitude_eq_iff {n : Nat} :
    b.magnitude = n ↔ b.quotient.1 % b.quotient.2 = 0 ∧ b.quotient.1 / b.quotient.2 = n := by
  have hpos : 0 < b.quotient.2 := Nat.pow_pos (by decide)
  have hne : (b.quotient.2 : ℚ) ≠ 0 := Nat.cast_ne_zero.2 hpos.ne'
  rw [← b.quotient_div, div_eq_iff hne, ← Nat.cast_mul, Nat.cast_inj]
  constructor
  · intro h
    rw [h]
    exact ⟨Nat.mul_mod_left .., Nat.mul_div_cancel _ hpos⟩
  · rintro ⟨hmod, rfl⟩
    exact (Nat.div_mul_cancel (Nat.dvd_of_mod_eq_zero hmod)).symm

/-- As an integer the magnitude is the quotient, if this leaves no remainder. -/
theorem Binary.magnitude_eq_intCast_iff :
    b.magnitude = i ↔ b.quotient.1 % b.quotient.2 = 0 ∧
      ((b.quotient.1 / b.quotient.2 : Nat) : Int) = i := by
  constructor
  · intro h
    -- Magnitudes are not negative, so the integer is a natural number.
    have hnonneg : 0 ≤ i := by
      have hmagnitude := b.magnitude_nonneg
      rw [h] at hmagnitude
      exact_mod_cast hmagnitude
    obtain ⟨n, rfl⟩ := Int.eq_ofNat_of_zero_le hnonneg
    rw [Int.cast_natCast, magnitude_eq_iff] at h
    exact ⟨h.1, congrArg Nat.cast h.2⟩
  · rintro ⟨hmod, rfl⟩
    rw [Int.cast_natCast]
    exact magnitude_eq_iff.2 ⟨hmod, rfl⟩

/-- The integer is the value, if this is one. -/
theorem Binary.toInt?_eq_some_iff : b.toInt? = some i ↔ b.value = i := by
  unfold Binary.toInt? Binary.value
  cases b.negative with
  | false =>
    rw [if_neg Bool.false_ne_true, magnitude_eq_intCast_iff]
    split <;> simp [*]
  | true =>
    -- The negated value is an integer if the magnitude is.
    have hneg : -b.magnitude = (i : ℚ) ↔ b.magnitude = ((-i : Int) : ℚ) := by
      rw [Int.cast_neg, neg_eq_iff_eq_neg]
    rw [if_pos rfl, hneg, magnitude_eq_intCast_iff]
    split <;> simp [*, neg_eq_iff_eq_neg]

/-- A double stands for an integer if that is its value. -/
theorem toInt?_eq_some_iff : toInt? x = some i ↔ HasValue x i := by
  unfold toInt? HasValue
  -- Only a finite double has a value at all.
  cases hshape : shape x with
  | finite b =>
    rw [Binary.toInt?_eq_some_iff]
    constructor
    · exact fun h => ⟨b, rfl, h⟩
    · rintro ⟨b', hb, h⟩
      cases hb
      exact h
  | nan => simp
  | infinite negative => simp

/-- Both zeros have the value zero. -/
theorem hasValue_zero (negative : Bool) : HasValue (ofMagnitude negative 0) 0 := by
  have hbits : (ofMagnitude negative 0).toBits.toNat = if negative then 2 ^ 63 + 0 else 0 :=
    toNat_toBits_ofMagnitude (Nat.zero_le _)
  refine ⟨⟨negative, 0, -1074⟩, ?_, ?_⟩
  · rw [shape, hbits]
    cases negative <;> rfl
  · simp [Binary.value, Binary.magnitude]

end Treewalk.Number
