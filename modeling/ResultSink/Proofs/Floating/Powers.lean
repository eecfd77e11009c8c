import ResultSink.Proofs.Floating.Widening

/-! Powers and quotients that stay in range. A product of numbers from 1 on lies between 1 and the
product of their bounds, rounded or not, so a power by repeated squaring stays finite as long as its
bound does; and a quotient by such a power is no greater than what is divided. -/

namespace ResultSink

namespace Floating

variable {f : Format} {s : Bool} {x y : Floating f} {num den j k : ℕ}

theorem size_ofMagnitude_le {m n : ℕ} (h : m ≤ n) (small : n < f.signWeight) :
    (ofMagnitude s m : Floating f).size ≤ (ofMagnitude s n : Floating f).size := by
  refine size_le_size ?_
  rwa [magnitude_ofMagnitude small, magnitude_ofMagnitude (h.trans_lt small)]

/-- A power of two within the range is not rounded. -/
theorem size_twoPow (h : k < 2 ^ (f.exponentBits - 1)) (wide : 2 ≤ f.exponentBits) :
    (ofQuotient s (2 ^ k) 1 : Floating f).size = 2 ^ k := by
  have exact := ofQuotient_denotes (f.holds_twoPow k) Nat.one_ne_zero
    (Nat.pow_lt_pow_right (by decide) h) wide s
  rw [Nat.mul_one] at exact
  rw [exact.size_eq, Nat.cast_pow, Nat.cast_ofNat]

theorem size_ofQuotient_le (hd : den ≠ 0) (h : (num : ℚ) / den ≤ 2 ^ k)
    (small : k < 2 ^ (f.exponentBits - 1)) (wide : 2 ≤ f.exponentBits) :
    (ofQuotient s num den : Floating f).size ≤ 2 ^ k := by
  rw [← size_twoPow (s := s) small wide]
  refine size_ofMagnitude_le (Format.roundMagnitude_mono hd Nat.one_ne_zero ?_)
    (roundMagnitude_lt_signWeight _ _)
  rwa [Nat.cast_pow, Nat.cast_ofNat, Nat.cast_one, div_one]

theorem le_size_ofQuotient (hd : den ≠ 0) (h : 2 ^ k ≤ (num : ℚ) / den)
    (small : k < 2 ^ (f.exponentBits - 1)) (wide : 2 ≤ f.exponentBits) :
    2 ^ k ≤ (ofQuotient s num den : Floating f).size := by
  rw [← size_twoPow (s := s) small wide]
  refine size_ofMagnitude_le (Format.roundMagnitude_mono Nat.one_ne_zero hd ?_)
    (roundMagnitude_lt_signWeight _ _)
  rwa [Nat.cast_pow, Nat.cast_ofNat, Nat.cast_one, div_one]

theorem isFinite_ofQuotient (hd : den ≠ 0) (h : (num : ℚ) / den ≤ 2 ^ k)
    (small : k < 2 ^ (f.exponentBits - 1)) (wide : 2 ≤ f.exponentBits) :
    (ofQuotient s num den : Floating f).isFinite = true := by
  rw [isFinite, ofQuotient, magnitude_ofMagnitude (roundMagnitude_lt_signWeight _ _)]
  exact decide_eq_true (Format.roundMagnitude_lt_infinity hd h small wide)

/-- A finite number from 1 to a power of two. -/
structure Within (x : Floating f) (k : ℕ) : Prop where
  finite : x.isFinite = true
  least : 1 ≤ x.size
  most : x.size ≤ 2 ^ k

theorem within_ofQuotient (hd : den ≠ 0) (least : 1 ≤ (num : ℚ) / den)
    (most : (num : ℚ) / den ≤ 2 ^ k) (small : k < 2 ^ (f.exponentBits - 1))
    (wide : 2 ≤ f.exponentBits) : (ofQuotient s num den : Floating f).Within k where
  finite := isFinite_ofQuotient hd most small wide
  least := by
    rw [← pow_zero (2 : ℚ)] at least ⊢
    exact le_size_ofQuotient hd least (Nat.two_pow_pos _) wide
  most := size_ofQuotient_le hd most small wide

theorem within_ofInt {n : ℤ} (least : 1 ≤ n.natAbs) (most : n.natAbs ≤ 2 ^ k)
    (small : k < 2 ^ (f.exponentBits - 1)) (wide : 2 ≤ f.exponentBits) :
    (ofInt n : Floating f).Within k := by
  refine within_ofQuotient Nat.one_ne_zero ?_ ?_ small wide
  · rw [Nat.cast_one, div_one]
    exact_mod_cast least
  · rw [Nat.cast_one, div_one]
    exact_mod_cast most

/-- The product of two numbers stays between 1 and the product of their bounds. -/
theorem Within.mul (hx : x.Within j) (hy : y.Within k) (small : j + k < 2 ^ (f.exponentBits - 1))
    (wide : 2 ≤ f.exponentBits) : (x.mul y).Within (j + k) := by
  have product : ((x.significand * y.significand : ℕ) : ℚ) * 2 ^ (x.unit + y.unit) =
      x.size * y.size := by
    rw [size, size, zpow_add₀ two_ne_zero]
    push_cast
    ring
  have rounded : x.mul y = ofScaled (x.isNegative != y.isNegative)
      (x.significand * y.significand) (x.unit + y.unit) := by
    rw [Floating.mul, datum_of_isFinite hx.finite, datum_of_isFinite hy.finite]
  rw [rounded]
  refine within_ofQuotient (scaleByTwo_pos _ _).ne' ?_ ?_ small wide
  · rw [scaleByTwo_quotient, product]
    exact one_le_mul_of_one_le_of_one_le hx.least hy.least
  · rw [scaleByTwo_quotient, product, pow_add]
    exact mul_le_mul hx.most hy.most (zero_le_one.trans hy.least) (by positivity)

/-- Taking a bit of the exponent: the result is multiplied by the square if the bit is set. -/
theorem Within.take_bit {n i : ℕ} (result : x.Within (k * (n % 2 ^ i)))
    (square : y.Within (k * 2 ^ i)) (room : k * 2 ^ (i + 1) ≤ 2 ^ (f.exponentBits - 1))
    (positive : 0 < k) (wide : 2 ≤ f.exponentBits) :
    (if n.testBit i then x.mul y else x).Within (k * (n % 2 ^ (i + 1))) := by
  have bits : n % 2 ^ (i + 1) = n % 2 ^ i + 2 ^ i * (n.testBit i).toNat := by
    rw [Nat.mod_pow_succ, Nat.toNat_testBit]
  have rest : n % 2 ^ i < 2 ^ i := Nat.mod_lt _ (Nat.two_pow_pos i)
  have less := Nat.mul_lt_mul_of_pos_left rest positive
  rw [Nat.pow_succ, Nat.mul_comm _ 2, Nat.mul_left_comm, Nat.two_mul] at room
  rw [bits]
  cases n.testBit i with
  | true =>
    rw [if_pos rfl, Bool.toNat_true, Nat.mul_one, Nat.mul_add]
    exact result.mul square (by omega) wide
  | false =>
    rwa [if_neg Bool.false_ne_true, Bool.toNat_false, Nat.mul_zero, Nat.add_zero]

/-- Squaring once more: the bound doubles, and has to stay in the range. -/
theorem Within.square {i : ℕ} (square : y.Within (k * 2 ^ i))
    (room : k * 2 ^ (i + 2) ≤ 2 ^ (f.exponentBits - 1)) (positive : 0 < k)
    (wide : 2 ≤ f.exponentBits) : (y.mul y).Within (k * 2 ^ (i + 1)) := by
  have some := Nat.mul_pos positive (Nat.two_pow_pos i)
  rw [Nat.pow_succ, Nat.pow_succ, Nat.mul_assoc, ← Nat.mul_assoc] at room
  rw [Nat.pow_succ, Nat.mul_comm _ 2, Nat.mul_left_comm, Nat.two_mul]
  exact square.mul square (by omega) wide

/-- A power by squaring. After a number of squarings the result has the power of the bits that were
taken, and the square the power of the next bit. -/
theorem Within.power {n : ℕ} (hx : x.Within k) (hn : n < 2 ^ 8)
    (small : k * 2 ^ 8 ≤ 2 ^ (f.exponentBits - 1)) (positive : 0 < k) (wide : 2 ≤ f.exponentBits) :
    (x.power n).Within (k * n) := by
  unfold Floating.power
  dsimp only
  set step := fun (acc : Floating f × Floating f) (i : ℕ) =>
    (if n.testBit i then acc.1.mul acc.2 else acc.1, acc.2.mul acc.2)
  have bound {i : ℕ} (hi : i < 8) : k * 2 ^ (i + 1) ≤ 2 ^ (f.exponentBits - 1) :=
    (Nat.mul_le_mul_left k (Nat.pow_le_pow_right (by decide) hi)).trans small
  -- The last square is not used, and may be an infinity.
  have taken (i : ℕ) (hi : i ≤ 8) :
      ((List.range i).foldl step (ofInt 1, x)).1.Within (k * (n % 2 ^ i)) ∧
        (i < 8 → ((List.range i).foldl step (ofInt 1, x)).2.Within (k * 2 ^ i)) := by
    induction i with
    | zero =>
      have one : (ofInt 1 : Floating f).Within 0 :=
        within_ofInt (le_refl 1) (by decide) (Nat.two_pow_pos _) wide
      refine ⟨?_, fun _ => ?_⟩
      · rwa [pow_zero, Nat.mod_one, Nat.mul_zero]
      · rwa [pow_zero, Nat.mul_one]
    | succ i ih =>
      obtain ⟨result, square⟩ := ih (by omega)
      have base := square (by omega)
      rw [List.range_succ, List.foldl_append, List.foldl_cons, List.foldl_nil]
      exact ⟨result.take_bit base (bound (by omega)) positive wide,
        fun more => base.square (bound more) positive wide⟩
  have whole := (taken 8 (le_refl 8)).1
  rwa [Nat.mod_eq_of_lt hn] at whole

/-- A number divided by one from 1 on is no greater, and stays finite. -/
theorem isFinite_div (finite : x.isFinite = true) (most : x.size ≤ 2 ^ j) (hy : y.Within k)
    (small : j < 2 ^ (f.exponentBits - 1)) (wide : 2 ≤ f.exponentBits) :
    (x.div y).isFinite = true := by
  have some : y.significand ≠ 0 := by
    intro none
    have least := hy.least
    rw [size, none, Nat.cast_zero, zero_mul] at least
    exact absurd least (not_le.2 zero_lt_one)
  have denominator : (scaleByTwo x.significand (x.unit - y.unit)).2 * y.significand ≠ 0 :=
    Nat.mul_ne_zero (scaleByTwo_pos _ _).ne' some
  rw [div, datum_of_isFinite finite, datum_of_isFinite hy.finite]
  dsimp only
  rw [if_neg some]
  refine isFinite_ofQuotient denominator ?_ small wide
  have quotient : ((scaleByTwo x.significand (x.unit - y.unit)).1 : ℚ) /
      ((scaleByTwo x.significand (x.unit - y.unit)).2 * y.significand : ℕ) = x.size / y.size := by
    rw [Nat.cast_mul, ← div_div, scaleByTwo_quotient, size, size, zpow_sub₀ two_ne_zero]
    field_simp
  rw [quotient]
  exact (div_le_self x.size_nonneg hy.least).trans most

end Floating

end ResultSink
