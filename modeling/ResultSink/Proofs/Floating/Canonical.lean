import ResultSink.Floating.Basic

/-! Canonical words by their bits. A word is a sign, an exponent and a fraction. Canonical form
replaces the word of a negative zero by the word of zero, and every word with a full exponent and
some bit of the fraction set by the one with only the first bit of the fraction set; it leaves every
other word as it is. -/

namespace ResultSink.Floating

variable {f : Format}

/-- The bits of the exponent. -/
def exponent (x : Floating f) : BitVec f.exponentBits :=
  x.word.extractLsb' f.fractionBits f.exponentBits

/-- The bits of the fraction. -/
def fraction (x : Floating f) : BitVec f.fractionBits :=
  x.word.extractLsb' 0 f.fractionBits

/-- The canonical word that denotes no number, by its sign, exponent and fraction. -/
def nanBits (f : Format) : BitVec f.width :=
  0#1 ++ BitVec.allOnes f.exponentBits ++ BitVec.intMin f.fractionBits

/-- The canonical word of a number, by its bits. The word of negative zero has no bit but its sign
set. -/
def canonicalBits (x : Floating f) : BitVec f.width :=
  if x.exponent = BitVec.allOnes f.exponentBits ∧ x.fraction ≠ 0#f.fractionBits then nanBits f
  else if x.word = BitVec.intMin f.width then 0#f.width
  else x.word

/-! ### Fields and magnitudes -/

theorem toNat_exponent (x : Floating f) :
    x.exponent.toNat = x.word.toNat / 2 ^ f.fractionBits % 2 ^ f.exponentBits := by
  simp [exponent, BitVec.extractLsb'_toNat, Nat.shiftRight_eq_div_pow]

theorem toNat_fraction (x : Floating f) :
    x.fraction.toNat = x.word.toNat % 2 ^ f.fractionBits := by
  simp [fraction, BitVec.extractLsb'_toNat]

theorem magnitude_eq_fields (x : Floating f) :
    x.magnitude = x.exponent.toNat * 2 ^ f.fractionBits + x.fraction.toNat := by
  rw [magnitude, Format.signWeight, Nat.add_comm f.exponentBits, Nat.pow_add, Nat.mod_mul,
    toNat_exponent, toNat_fraction, Nat.mul_comm, Nat.add_comm]

/-- A word denotes no number exactly if its exponent is full and its fraction is not zero. -/
theorem isNaN_iff {x : Floating f} :
    x.isNaN = true ↔
      x.exponent = BitVec.allOnes f.exponentBits ∧ x.fraction ≠ 0#f.fractionBits := by
  have exponent : x.exponent.toNat ≤ 2 ^ f.exponentBits - 1 := Nat.le_pred_of_lt x.exponent.isLt
  have fraction := x.fraction.isLt
  rw [isNaN, decide_eq_true_iff, magnitude_eq_fields, Format.infinity, BitVec.toNat_eq,
    BitVec.toNat_allOnes, ne_eq, BitVec.toNat_eq, BitVec.toNat_zero]
  constructor
  · intro above
    have full : x.exponent.toNat = 2 ^ f.exponentBits - 1 := by
      refine Nat.le_antisymm exponent (Nat.le_of_not_lt fun less => ?_)
      have step := Nat.mul_le_mul_right (2 ^ f.fractionBits) (Nat.succ_le_of_lt less)
      rw [Nat.succ_mul] at step
      omega
    rw [full] at above
    exact ⟨full, by omega⟩
  · rintro ⟨full, some⟩
    rw [full]
    omega

/-- A word denotes zero exactly if none of its bits is set but the sign. -/
theorem isZero_iff {x : Floating f} :
    x.isZero = true ↔ x.word = 0#f.width ∨ x.word = BitVec.intMin f.width := by
  have bound := x.word.isLt
  have sign : 2 ^ (f.width - 1) = f.signWeight := by
    rw [Format.width, Format.signWeight, Nat.add_assoc, Nat.add_sub_cancel_left]
  have width : 2 ^ f.width = 2 * f.signWeight := by
    rw [Format.width, Format.signWeight, Nat.add_assoc, Nat.pow_add, Nat.pow_one]
  have positive : 0 < f.signWeight := Nat.two_pow_pos _
  rw [isZero, decide_eq_true_iff, magnitude, BitVec.toNat_eq, BitVec.toNat_eq, BitVec.toNat_zero,
    BitVec.toNat_intMin, sign, width, Nat.mod_eq_of_lt (show f.signWeight < _ by omega)]
  rw [width] at bound
  by_cases plain : x.word.toNat < f.signWeight
  · rw [Nat.mod_eq_of_lt plain]
    omega
  · rw [Nat.mod_eq_sub_mod (Nat.le_of_not_lt plain), Nat.mod_eq_of_lt (by omega)]
    omega

/-! ### The canonical word -/

theorem word_zero : (zero : Floating f).word = 0#f.width := by
  simp [zero, ofMagnitude]

theorem word_nan (h : 0 < f.fractionBits) : (nan : Floating f).word = nanBits f := by
  have first : (BitVec.intMin f.fractionBits).toNat = 2 ^ (f.fractionBits - 1) :=
    BitVec.toNat_intMin_of_pos h
  have below : 2 ^ (f.fractionBits - 1) < 2 ^ f.fractionBits := first ▸ BitVec.isLt _
  have fields : (nanBits f).toNat =
      (0#1 ++ BitVec.allOnes f.exponentBits ++ BitVec.intMin f.fractionBits).toNat := rfl
  have bits : (nanBits f).toNat = f.infinity + 2 ^ (f.fractionBits - 1) := by
    rw [fields, BitVec.toNat_append, first, ← Nat.shiftLeft_add_eq_or_of_lt below,
      Nat.shiftLeft_eq, BitVec.toNat_append, BitVec.toNat_allOnes]
    simp [Format.infinity]
  rw [nan, ofMagnitude, ← bits]
  simp

/-- What canonical form does to the bits of a word. -/
theorem word_canonical (x : Floating f) : x.canonical.word = x.canonicalBits := by
  unfold canonical canonicalBits
  by_cases none : x.isNaN = true
  · have bits := isNaN_iff.1 none
    have wide : 0 < f.fractionBits := by
      refine Nat.pos_of_ne_zero fun narrow => bits.2 (BitVec.eq_of_toNat_eq ?_)
      have single : 2 ^ f.fractionBits = 1 := by rw [narrow, Nat.pow_zero]
      have small := x.fraction.isLt
      rw [BitVec.toNat_zero]
      omega
    rw [if_pos none, if_pos bits, word_nan wide]
  · rw [if_neg none, if_neg (mt isNaN_iff.2 none)]
    by_cases zero : x.isZero = true
    · rw [if_pos zero, word_zero]
      rcases isZero_iff.1 zero with unsigned | signed
      · rw [unsigned, ite_self]
      · rw [if_pos signed]
    · rw [if_neg zero, if_neg fun signed => zero (isZero_iff.2 (.inr signed))]

example : (ofBits 0xfff0000000000001 : Double).canonicalBits = 0x7ff8000000000000 := by decide

end ResultSink.Floating
