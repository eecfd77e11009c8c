import ResultSink.Proofs.Floating.Reach
import ResultSink.Proofs.Value.WholeText

/-! Doubles too large for a decimal. The unscaled value of a double is a product of doubles, rounded
to 128 bits, and a product beyond them becomes the end of their range on its side. Only a precision
that excludes the ends refuses such a double afterwards. -/

namespace ResultSink

namespace Int128

/-- The number of 128 bits that is farthest from zero on a side. -/
def extreme (negative : Bool) : Int128 := clamp (if negative then -2 ^ 127 else 2 ^ 127 - 1)

theorem toInt_extreme (negative : Bool) :
    (extreme negative).toInt = if negative then -2 ^ 127 else 2 ^ 127 - 1 := by
  cases negative <;> rfl

/-- A number beyond 128 bits becomes the end of the range on its side. -/
theorem clamp_signed {negative : Bool} {n : Nat} (h : 2 ^ 127 ≤ n) :
    clamp (Floating.signed negative n) = extreme negative := by
  apply Int128.ext
  rw [toInt_extreme]
  cases negative with
  | false =>
    rw [Floating.signed, if_neg Bool.false_ne_true, if_neg Bool.false_ne_true, clamp,
      dif_neg (by omega), dif_pos (by omega)]
  | true =>
    rw [Floating.signed, if_pos rfl, if_pos rfl]
    unfold clamp
    split
    · rfl
    · rw [dif_neg (by omega)]
      show -(n : Int) = -2 ^ 127
      omega

/-- The ends have as many digits as the greatest power of ten within the range. -/
theorem natAbs_extreme_lt_iff {negative : Bool} {digits : Nat} :
    (extreme negative).toInt.natAbs < 10 ^ digits ↔ maxDecimalScale < digits := by
  have least : 10 ^ 38 ≤ (extreme negative).toInt.natAbs := by cases negative <;> decide
  have most : (extreme negative).toInt.natAbs < 10 ^ 39 := by cases negative <;> decide
  constructor
  · intro below
    refine Nat.lt_of_not_le fun few => ?_
    have power : 10 ^ digits ≤ 10 ^ maxDecimalScale := Nat.pow_le_pow_right (by decide) few
    exact absurd below (Nat.not_lt.2 (Nat.le_trans power least))
  · intro many
    exact Nat.lt_of_lt_of_le most (Nat.pow_le_pow_right (by decide) many)

end Int128

namespace Value

variable {x : Double} {negative : Bool} {places : Nat}

/-- A double of the magnitude `2 ^ 127` or more is rounded to an end of the range. -/
theorem roundToInt128_of_reaches (h : x.Reaches negative 127) :
    unscaledAt.roundToInt128 x = Int128.extreme negative := by
  unfold unscaledAt.roundToInt128 Floating.toInt?
  rcases h with infinite | ⟨m, u, finite, reached⟩
  · rw [infinite, Floating.isNegative_of_datum infinite]
    cases negative <;> decide
  · rw [finite]
    exact Int128.clamp_signed (Floating.le_nearestWhole reached)

/-- No scale brings such a double back into the range, as every power of ten is 1 or more. -/
theorem unscaledAt_of_reaches (finite : x.isFinite = true) (h : x.Reaches negative 127)
    (small : places ≤ maxDecimalScale) :
    (double x).unscaledAt places = .ok (some (Int128.extreme negative)) := by
  have wide : 2 ≤ Format.double.exponentBits := by decide
  have positive : ¬(10 ^ places : Int) < 0 := Int.not_lt.2 (Int.pow_nonneg (by decide))
  have power : 2 ^ 0 * 1 ≤ (10 ^ places : Int).natAbs := by
    rw [Int.natAbs_pow]
    exact Nat.pow_pos (by decide)
  have factor : (Floating.ofInt (10 ^ places) : Double).Reaches false 0 := by
    have reached := Floating.reaches_ofQuotient (f := .double)
      (s := decide ((10 ^ places : Int) < 0)) Nat.one_ne_zero power wide
    rwa [decide_eq_false positive] at reached
  have product := h.mul finite factor (isFinite_ofInt_pow small) wide
  rw [Bool.bne_false] at product
  unfold unscaledAt
  dsimp only [toDouble?]
  rw [if_pos finite, roundToInt128_of_reaches product]

/-- A decimal type of a scale that exists takes an unscaled value, or refuses it for its digits. -/
theorem castDecimal_of_unscaled {v : Value} {k : Int128} {own : UInt8} (precision : Option UInt8)
    (small : own.toNat ≤ maxDecimalScale) (found : v.unscaledAt own.toNat = .ok (some k)) :
    ((∀ digits ∈ precision, k.toInt.natAbs < 10 ^ digits.toNat) ∧
        v.castDecimal precision own = .ok (.decimal k own)) ∨
      (¬∀ digits ∈ precision, k.toInt.natAbs < 10 ^ digits.toNat) ∧
        Refused (v.castDecimal precision own) := by
  rw [← fitsPrecision_iff]
  unfold castDecimal
  rw [if_neg (Nat.not_lt_of_le small), found]
  dsimp only
  split
  · next fits => exact .inl ⟨fits, rfl⟩
  · next tight => exact .inr ⟨tight, _, rfl⟩

/-- A finite double of the magnitude `2 ^ 127` or more is refused by a decimal type for its scale
alone, or for a precision of at most 38 digits. Every other decimal type takes it for the end of the
range. -/
theorem huge_double_saturates (finite : x.isFinite = true) (huge : x.Reaches negative 127)
    (precision own : Option UInt8) :
    let answer := (double x).cast (.decimal precision own)
    (Refused answer ↔ maxDecimalScale < (own.getD 0).toNat ∨
      ∃ digits ∈ precision, digits.toNat ≤ maxDecimalScale) ∧
      (¬Refused answer →
        answer = .ok (.decimal (Int128.extreme negative) (own.getD 0))) := by
  intro answer
  have cast : answer = (double x).castDecimal precision (own.getD 0) := rfl
  by_cases large : maxDecimalScale < (own.getD 0).toNat
  · have refused : Refused answer := ⟨_, cast.trans (if_pos large)⟩
    exact ⟨iff_of_true refused (.inl large), fun taken => absurd refused taken⟩
  · have small := Nat.le_of_not_lt large
    have ends := castDecimal_of_unscaled precision small (unscaledAt_of_reaches finite huge small)
    simp only [Int128.natAbs_extreme_lt_iff, ← cast] at ends
    rcases ends with ⟨many, taken⟩ | ⟨few, refused⟩
    · have kept : ¬Refused answer := by
        rintro ⟨e, refused⟩
        cases taken.symm.trans refused
      refine ⟨iff_of_false kept ?_, fun _ => taken⟩
      rintro (scale | ⟨digits, given, least⟩)
      · exact large scale
      · exact absurd (many digits given) (Nat.not_lt.2 least)
    · push Not at few
      exact ⟨iff_of_true refused (.inr few), fun kept => absurd refused kept⟩

/-- The least finite double. Its product with `10 ^ 38` is an infinity. -/
theorem huge_double_saturates_least :
    let x : Double := .ofBits 0xffefffffffffffff
    x.isFinite = true ∧ x.Reaches true 127 ∧
      (double x).cast (.decimal none (some 38)) = .ok (.decimal { toInt := -2 ^ 127 } 38) ∧
      Refused ((double x).cast (.decimal (some 38) (some 38))) := by
  intro x
  have finite : x.isFinite = true := by decide
  have huge : x.Reaches true 127 := .inr ⟨2 ^ 53 - 1, 971, by decide, by decide +kernel⟩
  refine ⟨finite, huge, ?_, ?_⟩
  · obtain ⟨refused, taken⟩ := huge_double_saturates finite huge none (some 38)
    exact taken fun h => absurd (refused.1 h) (by decide)
  · exact (huge_double_saturates finite huge (some 38) (some 38)).1.2 (.inr ⟨38, rfl, by decide⟩)

/-- The double `2 ^ 128` becomes the greatest decimal of types without a precision and of 39 digits,
where a decimal whose digits leave the range is refused. -/
theorem huge_double_taken :
    let x : Double := .ofBits 0x47f0000000000000
    let greatest := decimal { toInt := 2 ^ 127 - 1 } 0
    x.isFinite = true ∧ x.Reaches false 128 ∧
      (∀ precision ∈ [none, some 39],
        (double x).cast (.decimal precision (some 0)) = .ok greatest ∧
          ¬Refused ((double x).cast (.decimal precision (some 0)))) ∧
      Refused (greatest.cast (.decimal none (some 1))) := by
  intro x greatest
  refine ⟨by decide, .inr ⟨2 ^ 52, 76, by decide, by decide +kernel⟩, ?_, ⟨_, rfl⟩⟩
  have taken : ∀ precision ∈ [none, some 39],
      (double x).cast (.decimal precision (some 0)) = .ok greatest := by decide +kernel
  intro precision given
  refine ⟨taken precision given, ?_⟩
  rw [taken precision given]
  rintro ⟨e, refused⟩
  cases refused

end Value

end ResultSink
