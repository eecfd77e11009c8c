import ResultSink.Proofs.Floating.Monotone

/-! The size of a number, and numbers of 32 bits as numbers of 64. Magnitudes are ordered as the
numbers they denote, so a comparison of words is one of sizes. The wider format keeps every number
of the narrower one, and converting keeps the order. -/

namespace ResultSink

/-- Two pairs compare alike if they stand alike. -/
theorem compare_congr {α β : Type} [LinearOrder α] [LinearOrder β] {a b : α} {c d : β}
    (le : a ≤ b ↔ c ≤ d) (ge : b ≤ a ↔ d ≤ c) : compare a b = compare c d := by
  rcases lt_trichotomy a b with less | same | more
  · rw [compare_lt_iff_lt.2 less, compare_lt_iff_lt.2 (lt_iff_lt_of_le_iff_le ge |>.1 less)]
  · rw [compare_eq_iff_eq.2 same, compare_eq_iff_eq.2 (le_antisymm (le.1 same.le) (ge.1 same.ge))]
  · rw [compare_gt_iff_gt.2 more, compare_gt_iff_gt.2 (lt_iff_lt_of_le_iff_le le |>.1 more)]

namespace Floating

variable {f : Format} {s : Bool} {x y : Floating f}

/-! ### Order -/

theorem order?_swap (x y : Floating f) : y.order? x = (x.order? y).map Ordering.swap := by
  unfold order?
  rw [Bool.or_comm]
  split
  · rfl
  · rw [Option.map_some, Std.OrientedOrd.eq_swap]

theorem order?_of_isNaN (h : x.isNaN = true ∨ y.isNaN = true) : x.order? y = none := by
  rw [order?, if_pos (by simpa using h)]

theorem order?_of_numbers (hx : x.isNaN = false) (hy : y.isNaN = false) :
    x.order? y = some (compare x.place y.place) := by
  simp [order?, hx, hy]

/-! ### Sizes -/

/-- The mantissa of a word, with its leading bit. -/
def significand (x : Floating f) : ℕ :=
  if x.magnitude / 2 ^ f.fractionBits = 0 then x.magnitude % 2 ^ f.fractionBits
  else 2 ^ f.fractionBits + x.magnitude % 2 ^ f.fractionBits

/-- The exponent of the last bit of a word. -/
def unit (x : Floating f) : ℤ :=
  f.minUnit + (x.magnitude / 2 ^ f.fractionBits - 1 : ℕ)

/-- The number that a finite word denotes, without its sign. -/
def size (x : Floating f) : ℚ := x.significand * 2 ^ x.unit

theorem size_nonneg (x : Floating f) : 0 ≤ x.size :=
  mul_nonneg (Nat.cast_nonneg _) (zpow_pos two_pos _).le

theorem datum_of_isFinite (finite : x.isFinite = true) :
    x.datum = .finite x.isNegative x.significand x.unit := by
  have small : x.magnitude < f.infinity := of_decide_eq_true finite
  unfold datum
  dsimp only
  rw [isNaN, if_neg (by simpa using Nat.le_of_lt small), if_neg (Nat.ne_of_lt small), significand,
    unit]
  split
  · next subnormal => simp [subnormal]
  · next normal =>
    generalize x.magnitude / 2 ^ f.fractionBits = e at normal ⊢
    congr 1
    omega

theorem significand_lt (x : Floating f) : x.significand < 2 ^ (f.fractionBits + 1) := by
  have fraction := Nat.mod_lt x.magnitude (Nat.two_pow_pos f.fractionBits)
  rw [Nat.pow_succ]
  unfold significand
  split <;> omega

theorem le_significand (normal : f.minUnit < x.unit) : 2 ^ f.fractionBits ≤ x.significand := by
  unfold unit at normal
  unfold significand
  rw [if_neg (by omega)]
  exact Nat.le_add_right _ _

theorem minUnit_le_unit (x : Floating f) : f.minUnit ≤ x.unit := by
  unfold unit
  omega

/-- A magnitude counts the units below its own and then its mantissa. -/
theorem magnitude_eq (x : Floating f) :
    x.magnitude = (x.unit - f.minUnit).toNat * 2 ^ f.fractionBits + x.significand := by
  have parts := Nat.div_add_mod x.magnitude (2 ^ f.fractionBits)
  rw [unit, add_sub_cancel_left, Int.toNat_natCast]
  unfold significand
  split
  · next subnormal => simpa [subnormal] using parts.symm
  · next normal =>
    obtain ⟨e, exponent⟩ := Nat.exists_eq_succ_of_ne_zero normal
    rw [exponent] at parts ⊢
    rw [Nat.succ_sub_one, Nat.mul_comm e, ← Nat.add_assoc, ← Nat.mul_succ]
    exact parts.symm

/-- Magnitudes stand in the order of the numbers they denote. -/
theorem size_lt_size (h : x.magnitude < y.magnitude) : x.size < y.size := by
  have small := x.significand_lt
  have least := x.minUnit_le_unit
  have least' := y.minUnit_le_unit
  rw [x.magnitude_eq, y.magnitude_eq] at h
  rw [Nat.pow_succ] at small
  unfold size
  rcases lt_trichotomy x.unit y.unit with less | same | more
  · have lead : 2 * 2 ^ f.fractionBits ≤ 2 * y.significand :=
      Nat.mul_le_mul_left 2 (le_significand (by omega))
    have fewer : (x.significand : ℚ) < 2 * y.significand := by
      exact_mod_cast (by omega : x.significand < 2 * y.significand)
    have units : (2 : ℚ) ^ (x.unit + 1) ≤ 2 ^ y.unit :=
      zpow_le_zpow_right₀ one_le_two (by omega)
    calc (x.significand : ℚ) * 2 ^ x.unit < 2 * y.significand * 2 ^ x.unit :=
          mul_lt_mul_of_pos_right fewer (zpow_pos two_pos _)
      _ = y.significand * 2 ^ (x.unit + 1) := by
          rw [zpow_add_one₀ two_ne_zero]
          ring
      _ ≤ y.significand * 2 ^ y.unit := mul_le_mul_of_nonneg_left units (Nat.cast_nonneg _)
  · rw [same] at h ⊢
    have less : x.significand < y.significand := Nat.lt_of_add_lt_add_left h
    exact mul_lt_mul_of_pos_right (Nat.cast_lt.2 less) (zpow_pos two_pos _)
  · -- A mantissa of a greater unit has its leading bit, and stands behind all of the lower unit.
    have lead := le_significand (x := x) (by omega)
    have small' := y.significand_lt
    rw [Nat.pow_succ] at small'
    have step := Format.units_add_le least' more
    omega

theorem size_congr (h : x.magnitude = y.magnitude) : x.size = y.size := by
  rw [size, size, significand, significand, unit, unit, h]

theorem size_le_size (h : x.magnitude ≤ y.magnitude) : x.size ≤ y.size :=
  h.eq_or_lt.elim (fun same => (size_congr same).le) fun less => (size_lt_size less).le

theorem Denotes.size_eq {n : ℕ} (h : x.Denotes s n) : x.size = n := by
  obtain ⟨m, u, number, whole⟩ := id h
  rw [datum_of_isFinite h.isFinite] at number
  cases number
  have power := scaleByTwo_quotient x.significand x.unit
  rw [scaleByTwo, ← whole, Nat.cast_mul, mul_div_cancel_right₀ _
    (Nat.cast_ne_zero.2 (Nat.two_pow_pos _).ne')] at power
  exact power.symm

/-! ### From 32 to 64 bits -/

theorem not_isNaN_iff : x.isNaN = false ↔ x.isFinite = true ∨ x.magnitude = f.infinity := by
  simp only [isNaN, isFinite, decide_eq_false_iff_not, decide_eq_true_eq]
  omega

theorem datum_of_infinite (infinite : x.magnitude = f.infinity) :
    x.datum = .infinite x.isNegative := by
  unfold datum
  dsimp only
  rw [isNaN, if_neg (by simp [infinite]), if_pos infinite]

/-- A 32-bit number of finite size, as a 64-bit number. -/
theorem convert_of_isFinite {x : Single} (finite : x.isFinite = true) :
    (x.convert : Double) = ofScaled x.isNegative x.significand x.unit := by
  rw [convert, datum_of_isFinite finite]

theorem convert_of_infinite {x : Single} (infinite : x.magnitude = Format.single.infinity) :
    (x.convert : Double) = ofMagnitude x.isNegative Format.double.infinity := by
  rw [convert, datum_of_infinite infinite]

theorem magnitude_ofScaled (m : ℕ) (u : ℤ) :
    (ofScaled s m u : Floating f).magnitude =
      f.roundMagnitude (scaleByTwo m u).1 (scaleByTwo m u).2 :=
  magnitude_ofMagnitude (roundMagnitude_lt_signWeight _ _)

/-- A finite 32-bit number becomes a finite 64-bit number. -/
theorem magnitude_convert_lt {x : Single} (finite : x.isFinite = true) :
    (x.convert : Double).magnitude < Format.double.infinity := by
  have small := x.significand_lt
  have whole := x.magnitude_eq
  have below : x.magnitude < Format.single.infinity := of_decide_eq_true finite
  have top : Format.single.infinity = 255 * 2 ^ 23 := by decide
  have unit : x.unit ≤ 106 := by
    have least : Format.single.minUnit = -149 := by decide
    have digits : Format.single.fractionBits = 23 := rfl
    rw [least, digits] at whole
    omega
  rw [convert_of_isFinite finite, magnitude_ofScaled]
  refine Format.roundMagnitude_lt_infinity (k := 24 + 106) (scaleByTwo_pos _ _).ne' ?_ (by decide)
    (by decide)
  have mantissa : (x.significand : ℚ) ≤ 2 ^ 24 := by exact_mod_cast small.le
  have power : (2 : ℚ) ^ x.unit ≤ 2 ^ 106 := by
    rw [← zpow_natCast]
    exact zpow_le_zpow_right₀ one_le_two unit
  rw [scaleByTwo_quotient, pow_add]
  exact mul_le_mul mantissa power (zpow_pos two_pos _).le (by positivity)

theorem keeps_size (x : Single) : Format.double.Keeps x.size := by
  have narrow : 2 ^ (Format.single.fractionBits + 1) ≤ 2 ^ (Format.double.fractionBits + 1) :=
    Nat.pow_le_pow_right (by decide) (by decide)
  have least : Format.double.minUnit ≤ Format.single.minUnit := by decide
  exact ⟨x.significand, x.unit, x.significand_lt.trans_le narrow, least.trans x.minUnit_le_unit,
    rfl⟩

theorem magnitude_convert_strictMono {x y : Single} (h : x.magnitude < y.magnitude)
    (number : y.isNaN = false) :
    (x.convert : Double).magnitude < (y.convert : Double).magnitude := by
  have finite : x.isFinite = true := by
    have below : y.magnitude ≤ Format.single.infinity :=
      Nat.le_of_not_lt (of_decide_eq_false number)
    exact decide_eq_true (h.trans_le below)
  have bounded := magnitude_convert_lt finite
  rcases not_isNaN_iff.1 number with finite' | infinite
  · rw [convert_of_isFinite finite, magnitude_ofScaled] at bounded ⊢
    rw [convert_of_isFinite finite', magnitude_ofScaled]
    refine Format.roundMagnitude_strictMono (scaleByTwo_pos _ _).ne' (scaleByTwo_pos _ _).ne'
      ?_ ?_ ?_ bounded
    · rw [scaleByTwo_quotient, scaleByTwo_quotient]
      exact size_lt_size h
    · rw [scaleByTwo_quotient]
      exact keeps_size x
    · rw [scaleByTwo_quotient]
      exact keeps_size y
  · rwa [convert_of_infinite infinite, magnitude_ofMagnitude infinity_lt_signWeight]

theorem magnitude_convert_congr {x y : Single} (h : x.magnitude = y.magnitude)
    (number : x.isNaN = false) :
    (x.convert : Double).magnitude = (y.convert : Double).magnitude := by
  rcases not_isNaN_iff.1 number with finite | infinite
  · have finite' : y.isFinite = true := by rwa [isFinite, ← h]
    rw [convert_of_isFinite finite, convert_of_isFinite finite', magnitude_ofScaled,
      magnitude_ofScaled, significand, significand, unit, unit, h]
  · rw [convert_of_infinite infinite, convert_of_infinite (h ▸ infinite),
      magnitude_ofMagnitude infinity_lt_signWeight, magnitude_ofMagnitude infinity_lt_signWeight]

theorem isNegative_convert {x : Single} (number : x.isNaN = false) :
    (x.convert : Double).isNegative = x.isNegative := by
  rcases not_isNaN_iff.1 number with finite | infinite
  · rw [convert_of_isFinite finite]
    exact isNegative_ofMagnitude (roundMagnitude_lt_signWeight _ _)
  · rw [convert_of_infinite infinite]
    exact isNegative_ofMagnitude infinity_lt_signWeight

theorem isNaN_convert (x : Single) : (x.convert : Double).isNaN = x.isNaN := by
  cases number : x.isNaN with
  | true =>
    have none : x.datum = .nan := if_pos number
    rw [convert, none]
    decide
  | false =>
    refine not_isNaN_iff.2 ?_
    rcases not_isNaN_iff.1 number with finite | infinite
    · exact .inl (decide_eq_true (magnitude_convert_lt finite))
    · rw [convert_of_infinite infinite]
      exact .inr (magnitude_ofMagnitude infinity_lt_signWeight)

/-- Converting from 32 to 64 bits keeps the order of magnitudes. -/
theorem magnitude_convert_le_iff {x y : Single} (number : x.isNaN = false)
    (number' : y.isNaN = false) :
    (x.convert : Double).magnitude ≤ (y.convert : Double).magnitude ↔
      x.magnitude ≤ y.magnitude := by
  rcases lt_trichotomy x.magnitude y.magnitude with less | same | more
  · exact iff_of_true (magnitude_convert_strictMono less number').le less.le
  · exact iff_of_true (magnitude_convert_congr same number).le same.le
  · exact iff_of_false (Nat.not_le.2 (magnitude_convert_strictMono more number))
      (Nat.not_le.2 more)

theorem place_convert_le_iff {x y : Single} (number : x.isNaN = false)
    (number' : y.isNaN = false) :
    (x.convert : Double).place ≤ (y.convert : Double).place ↔ x.place ≤ y.place := by
  have zero {z : Single} (number : z.isNaN = false) :
      (z.convert : Double).magnitude = 0 ↔ z.magnitude = 0 := by
    have least := magnitude_convert_le_iff number (show (zero : Single).isNaN = false by decide)
    have none : ((zero : Single).convert : Double).magnitude = 0 := by decide
    have none' : (zero : Single).magnitude = 0 := by decide
    rw [none, none'] at least
    omega
  have order := magnitude_convert_le_iff number number'
  have order' := magnitude_convert_le_iff number' number
  rw [place, place, place, place, isNegative_convert number, isNegative_convert number']
  exact ⟨signed_le_signed order.1 order'.1 (zero number).1 (zero number').1,
    signed_le_signed order.2 order'.2 (zero number).2 (zero number').2⟩

/-- Converting from 32 to 64 bits keeps the order of numbers. -/
theorem order?_convert (x y : Single) :
    (x.convert : Double).order? y.convert = x.order? y := by
  by_cases undefined : x.isNaN = true ∨ y.isNaN = true
  · rw [order?_of_isNaN undefined, order?_of_isNaN]
    rwa [isNaN_convert, isNaN_convert]
  · rw [not_or, Bool.not_eq_true, Bool.not_eq_true] at undefined
    obtain ⟨number, number'⟩ := undefined
    rw [order?_of_numbers number number', order?_of_numbers (x.isNaN_convert.trans number)
      (y.isNaN_convert.trans number'), compare_congr (place_convert_le_iff number number')
      (place_convert_le_iff number' number)]

end Floating

end ResultSink
