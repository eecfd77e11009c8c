import ResultSink.Proofs.Floating.Powers
import ResultSink.Value.Order

/-! The difference of two numbers, without its sign. It is the same both ways, nothing between a
finite number and itself, and at least one between whole numbers that differ. -/

namespace ResultSink

namespace Floating

variable {f : Format} {x y : Floating f} {s t : Bool} {m n : ℕ}

theorem abs_ofMagnitude (h : n < f.signWeight) :
    (ofMagnitude s n : Floating f).abs = ofMagnitude false n := by
  rw [abs, magnitude_ofMagnitude h]

theorem abs_ofScaled (n : ℕ) (e : ℤ) :
    (ofScaled s n e : Floating f).abs = ofScaled false n e :=
  abs_ofMagnitude (roundMagnitude_lt_signWeight _ _)

/-- A difference and the one the other way round have the same size. -/
theorem abs_sub_comm (x y : Floating f) : (x.sub y).abs = (y.sub x).abs := by
  unfold sub
  cases x.datum with
  | nan => cases y.datum <;> rfl
  | infinite s =>
    cases y.datum with
    | nan => rfl
    | infinite t =>
      dsimp only
      by_cases same : s = t
      · rw [if_pos same, if_pos same.symm]
      · rw [if_neg same, if_neg (Ne.symm same), abs_ofMagnitude infinity_lt_signWeight,
          abs_ofMagnitude infinity_lt_signWeight]
    | finite t n v =>
      dsimp only
      rw [abs_ofMagnitude infinity_lt_signWeight, abs_ofMagnitude infinity_lt_signWeight]
  | finite s m u =>
    cases y.datum with
    | nan => rfl
    | infinite t =>
      dsimp only
      rw [abs_ofMagnitude infinity_lt_signWeight, abs_ofMagnitude infinity_lt_signWeight]
    | finite t n v =>
      dsimp only
      rw [abs_ofScaled, abs_ofScaled, min_comm v u, ← Int.natAbs_neg, neg_sub]

/-- A finite number does not differ from itself. -/
theorem abs_sub_self (h : x.isFinite = true) : (x.sub x).abs = ofMagnitude false 0 := by
  rw [sub, datum_of_isFinite h]
  dsimp only
  rw [abs_ofScaled, sub_self, Int.natAbs_zero, ofScaled, ofQuotient, scaleByTwo, Nat.zero_mul,
    Format.roundMagnitude_zero]

/-- What is not finite differs from itself by no number. -/
theorem abs_sub_self_of_not_isFinite (h : x.isFinite = false) :
    (x.sub x).abs = (nan : Floating f).abs := by
  have large : ¬x.magnitude < f.infinity := of_decide_eq_false h
  unfold sub
  cases number : x.isNaN with
  | true =>
    rw [show x.datum = .nan from if_pos number]
  | false =>
    rw [datum_of_infinite ((not_isNaN_iff.1 number).resolve_left (by rw [h]; exact nofun))]
    dsimp only
    rw [if_pos rfl]

/-- The number that a finite word denotes. -/
def value (x : Floating f) : ℚ := if x.isNegative then -x.size else x.size

theorem cast_signed (s : Bool) (n : ℕ) : (signed s n : ℚ) = if s then -(n : ℚ) else n := by
  cases s <;> simp [signed]

theorem value_eq (x : Floating f) :
    x.value = (signed x.isNegative x.significand : ℚ) * 2 ^ x.unit := by
  rw [value, size, cast_signed]
  split
  · rw [neg_mul]
  · rfl

/-- The difference of two finite numbers is exact before it is rounded. -/
theorem exists_abs_sub (hx : x.isFinite = true) (hy : y.isFinite = true) :
    ∃ (n : ℕ) (e : ℤ),
      (x.sub y).abs = ofScaled false n e ∧ (n : ℚ) * 2 ^ e = |x.value - y.value| := by
  have unit {u v : ℤ} (h : v ≤ u) : (2 : ℚ) ^ (u - v).toNat * 2 ^ v = 2 ^ u := by
    rw [← zpow_natCast, Int.toNat_of_nonneg (by omega), ← zpow_add₀ two_ne_zero, sub_add_cancel]
  rw [sub, datum_of_isFinite hx, datum_of_isFinite hy]
  dsimp only
  rw [abs_ofScaled]
  refine ⟨_, _, rfl, ?_⟩
  have positive := zpow_pos (two_pos (α := ℚ)) (min x.unit y.unit)
  rw [Nat.cast_natAbs, Int.cast_abs, ← abs_of_pos positive, ← abs_mul, value_eq, value_eq]
  congr 1
  push_cast
  rw [sub_mul, mul_assoc, mul_assoc, unit (min_le_left _ _),
    unit (min_le_right _ _)]

/-- A whole number that a format holds is the number its word denotes. -/
theorem value_ofInt {n : ℤ} (h : (ofInt n : Floating f).Denotes (n < 0) n.natAbs) :
    (ofInt n : Floating f).value = n := by
  have sign : (ofInt n : Floating f).isNegative = decide (n < 0) :=
    isNegative_ofMagnitude (roundMagnitude_lt_signWeight _ _)
  rw [value, sign, h.size_eq, ← cast_signed, signed_natAbs]

end Floating

theorem near_comm (x y : Double) : near x y = near y x := by
  rw [near, near, Floating.abs_sub_comm]

/-- A double is near to itself exactly if it is finite. -/
theorem near_self (x : Double) : near x x = x.isFinite := by
  cases h : x.isFinite with
  | true =>
    rw [near, Floating.abs_sub_self h]
    decide
  | false =>
    rw [near, Floating.abs_sub_self_of_not_isFinite h]
    decide

/-- Numbers that are one apart are not near. -/
theorem near_eq_false {x y : Double} (hx : x.isFinite = true) (hy : y.isFinite = true)
    (apart : 1 ≤ |x.value - y.value|) : near x y = false := by
  obtain ⟨n, e, difference, exact⟩ := Floating.exists_abs_sub hx hy
  have number : (Floating.ofScaled false n e : Double).isNaN = false :=
    Floating.isNaN_ofQuotient _ _
  have one : Format.double.roundMagnitude 1 1 ≤
      Format.double.roundMagnitude (scaleByTwo n e).1 (scaleByTwo n e).2 := by
    refine Format.roundMagnitude_mono Nat.one_ne_zero (scaleByTwo_pos n e).ne' ?_
    rw [scaleByTwo_quotient, exact, Nat.cast_one, div_one]
    exact apart
  have place : (Floating.ofScaled false n e : Double).place =
      Format.double.roundMagnitude (scaleByTwo n e).1 (scaleByTwo n e).2 :=
    Floating.place_ofMagnitude (Floating.roundMagnitude_lt_signWeight _ _)
  have step : epsilon.place < (Format.double.roundMagnitude 1 1 : ℤ) := by decide
  rw [near, difference, Floating.below, Floating.order?_of_numbers number (by decide), place]
  simp only [Option.some.injEq, decide_eq_false_iff_not, compare_lt_iff_lt]
  omega

/-- Whole numbers that doubles hold are near only if they are the same. -/
theorem near_ofInt {m n : ℤ} (small : m.natAbs < 2 ^ 53) (small' : n.natAbs < 2 ^ 53) :
    near (Floating.ofInt m) (Floating.ofInt n) = decide (m = n) := by
  have denotes {n : ℤ} (small : n.natAbs < 2 ^ 53) :
      (Floating.ofInt n : Double).Denotes (n < 0) n.natAbs := by
    have range : n.natAbs < 2 ^ 2 ^ (Format.double.exponentBits - 1) :=
      small.trans (Nat.pow_lt_pow_right (by decide) (by decide))
    exact Floating.ofInt_denotes (Format.holds_of_le small.le) range (by decide)
  by_cases same : m = n
  · rw [same, near_self, (denotes small').isFinite, decide_eq_true rfl]
  · rw [decide_eq_false same]
    refine near_eq_false (denotes small).isFinite (denotes small').isFinite ?_
    rw [Floating.value_ofInt (denotes small), Floating.value_ofInt (denotes small')]
    exact_mod_cast Int.one_le_abs (sub_ne_zero.2 same)

end ResultSink
