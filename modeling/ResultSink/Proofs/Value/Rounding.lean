import Mathlib.Algebra.Order.Field.Rat
import Mathlib.Tactic.FieldSimp
import Mathlib.Tactic.Linarith
import Mathlib.Tactic.Positivity
import Mathlib.Tactic.Ring
import ResultSink.Proofs.Value.Types

/-! Decimals that are rounded. A decimal becomes a whole number, or a decimal of a smaller scale, by
a division that is rounded to the nearest whole number. `Nearest` says which number that is, in
exact rational arithmetic. The division doubles its remainder in 128 bits, and `Overflows` says for
which decimals that does not fit; every other conversion gives the nearest number, if the target
holds it. -/

namespace ResultSink

/-! ### The nearest whole number -/

/-- The whole number nearest to a rational; of two equally near, the one farther from zero. -/
structure Nearest (x : ℚ) (m : ℤ) : Prop where
  close : |x - m| ≤ 1 / 2
  tie : |x - m| = 1 / 2 → |x| < |(m : ℚ)|

theorem Nearest.unique {x : ℚ} {m n : ℤ} (hm : Nearest x m) (hn : Nearest x n) : m = n := by
  -- Two whole numbers that are equally near lie on both sides of a half, which is a tie for both.
  wlog below : m < n generalizing m n
  · rcases Int.lt_trichotomy m n with h | h | h
    · exact absurd h below
    · exact h
    · exact (this hn hm h).symm
  have apart : (m : ℚ) + 1 ≤ n := by exact_mod_cast below
  have left := abs_le.1 hm.close
  have right := abs_le.1 hn.close
  have middle : x = m + 1 / 2 := by linarith
  have next : (n : ℚ) = m + 1 := by linarith
  have tie := hm.tie (by rw [middle]; norm_num)
  have tie' := hn.tie (by rw [middle, next]; norm_num [abs_of_neg])
  rw [middle] at tie tie'
  rw [next] at tie'
  rcases le_or_gt 0 m with positive | negative
  · have : (0 : ℚ) ≤ m := by exact_mod_cast positive
    rw [abs_of_nonneg this, abs_of_nonneg (by linarith)] at tie
    linarith
  · have : (m : ℚ) + 1 ≤ 0 := by exact_mod_cast negative
    rw [abs_of_nonpos (by linarith), abs_of_nonpos this] at tie'
    linarith

theorem Nearest.neg {x : ℚ} {m : ℤ} (h : Nearest x m) : Nearest (-x) (-m) := by
  have mirrored : -x - ((-m : ℤ) : ℚ) = -(x - m) := by push_cast; ring
  refine ⟨?_, ?_⟩
  · rw [mirrored, abs_neg]
    exact h.close
  · rw [mirrored, abs_neg, abs_neg, Int.cast_neg, abs_neg]
    exact h.tie

theorem Nearest.whole (m : ℤ) : Nearest m m := by
  refine ⟨?_, ?_⟩ <;> norm_num

/-- A number of magnitude less than a half rounds to zero. -/
theorem Nearest.zero {x : ℚ} (h : |x| < 1 / 2) : Nearest x 0 := by
  refine ⟨?_, fun tie => ?_⟩
  · simpa using h.le
  · simp only [Int.cast_zero, sub_zero] at tie
    exact absurd tie h.ne

/-- A quotient `q` with a remainder `r` is the nearest whole number, or the one above it where the
remainder is at least a half of the divisor. -/
theorem nearest_quotient {q r d : ℕ} (hr : r < d) :
    Nearest ((d * q + r : ℕ) / d) (if d ≤ 2 * r then q + 1 else q) := by
  have positive : (0 : ℚ) < d := by exact_mod_cast Nat.zero_lt_of_lt hr
  have parts : ((d * q + r : ℕ) : ℚ) / d = q + r / d := by
    push_cast
    rw [div_eq_iff positive.ne', add_mul, div_mul_cancel₀ _ positive.ne', mul_comm]
  have rest : (0 : ℚ) ≤ r / d := by positivity
  have quotient : (0 : ℚ) ≤ q := by positivity
  rw [parts]
  split_ifs with half
  · have more : (1 : ℚ) / 2 ≤ r / d := by
      rw [div_le_div_iff₀ two_pos positive]
      exact_mod_cast (by omega : 1 * d ≤ r * 2)
    have less : (r : ℚ) / d < 1 := (div_lt_one positive).2 (by exact_mod_cast hr)
    refine ⟨?_, fun _ => ?_⟩
    · push_cast
      rw [abs_le]
      constructor <;> linarith
    · push_cast
      rw [abs_of_nonneg (by linarith), abs_of_nonneg (by linarith)]
      linarith
  · have less : (r : ℚ) / d < 1 / 2 := by
      rw [div_lt_div_iff₀ positive two_pos]
      exact_mod_cast (by omega : r * 2 < 1 * d)
    have distance : |(q : ℚ) + r / d - ((q : ℤ) : ℚ)| < 1 / 2 := by
      rw [Int.cast_natCast, add_sub_cancel_left, abs_of_nonneg rest]
      exact less
    exact ⟨distance.le, fun tie => absurd tie distance.ne⟩

/-- Truncated division rounds toward zero, and where the remainder is at least a half of the divisor
the neighbour away from zero is the nearest. -/
theorem nearest_tdiv (n : ℤ) {d : ℕ} (hd : 0 < d) :
    Nearest (n / d) (if d ≤ 2 * (n.tmod d).natAbs then n.tdiv d + n.sign else n.tdiv d) := by
  have natural (a : ℕ) : Nearest (a / d)
      (if d ≤ 2 * (a % d) then ((a / d : ℕ) : ℤ) + (a : ℤ).sign else (a / d : ℕ)) := by
    have nearest := nearest_quotient (q := a / d) (Nat.mod_lt a hd)
    rw [Nat.div_add_mod] at nearest
    split_ifs at nearest ⊢ with half
    · have positive : a ≠ 0 := by
        rintro rfl
        rw [Nat.zero_mod] at half
        omega
      rwa [Int.sign_natCast_of_ne_zero positive]
    · exact nearest
  obtain ⟨a, rfl | rfl⟩ := n.eq_nat_or_neg
  · rw [← Int.ofNat_tmod, Int.natAbs_natCast, ← Int.ofNat_tdiv, Int.cast_natCast]
    exact natural a
  · have mirrored := (natural a).neg
    rw [← neg_div, apply_ite Neg.neg, neg_add] at mirrored
    rw [Int.neg_tmod, Int.natAbs_neg, Int.neg_tdiv, Int.sign_neg, ← Int.ofNat_tmod,
      Int.natAbs_natCast, ← Int.ofNat_tdiv, Int.cast_neg, Int.cast_natCast]
    exact mirrored

theorem int64?_eq_some_iff {n : ℤ} {i : Int64} : int64? n = some i ↔ i.toInt = n := by
  have low := i.le_toInt
  have high := i.toInt_lt
  unfold int64?
  split
  · next fits =>
    rw [Option.some.injEq]
    constructor
    · rintro rfl
      exact Int64.toInt_ofInt_of_le fits.1 fits.2
    · rintro rfl
      exact Int64.ofInt_toInt i
  · next outside =>
    refine ⟨fun found => (nomatch found), ?_⟩
    rintro rfl
    exact absurd ⟨low, high⟩ outside

/-! ### The rounding step -/

theorem roundDiv_eq_error_iff {n : ℤ} {d : ℕ} {step : Overflow} :
    roundDiv n d = .error step ↔ step = .product ∧ 2 ^ 126 ≤ (n.tmod d).natAbs := by
  generalize rest : (n.tmod d).natAbs = r
  unfold roundDiv
  rw [rest]
  dsimp only
  split
  · next big =>
    rw [Except.error.injEq, eq_comm]
    exact (and_iff_left (by omega)).symm
  · next small =>
    have fits : ¬2 ^ 126 ≤ r := by omega
    split <;> simp only [reduceCtorEq, fits, and_false]

theorem roundDiv_eq_ok {n m : ℤ} {d : ℕ} (hd : 0 < d) (h : roundDiv n d = .ok m) :
    Nearest (n / d) m := by
  have nearest := nearest_tdiv n hd
  unfold roundDiv at h
  dsimp only at h
  split at h
  · cases h
  · rw [← apply_ite Except.ok] at h
    exact Except.ok.inj h ▸ nearest

/-- Rounding off a number of digits leaves a remainder whose double does not fit in 128 bits. Only a
power of ten as great as the greatest unscaled values leaves one. -/
def Overflows (n : ℤ) (digits : ℕ) : Prop :=
  digits = maxDecimalScale ∧ 2 ^ 126 ≤ (n.tmod (10 ^ maxDecimalScale : ℕ)).natAbs

theorem natAbs_tmod_pow_lt (n : ℤ) (digits : ℕ) :
    (n.tmod (10 ^ digits : ℕ)).natAbs < 10 ^ digits := by
  rw [Int.natAbs_tmod, Int.natAbs_natCast]
  exact Nat.mod_lt _ (Nat.pow_pos (by decide))

theorem overflows_iff {n : ℤ} {digits : ℕ} (small : digits ≤ maxDecimalScale) :
    Overflows n digits ↔ 2 ^ 126 ≤ (n.tmod (10 ^ digits : ℕ)).natAbs := by
  refine ⟨fun ⟨widest, big⟩ => widest ▸ big, fun big => ?_⟩
  have widest : digits = maxDecimalScale := by
    by_contra other
    unfold maxDecimalScale at small other
    have power : 10 ^ digits ≤ 10 ^ 37 := Nat.pow_le_pow_right (by decide) (by omega)
    have rest := natAbs_tmod_pow_lt n digits
    omega
  exact ⟨widest, widest ▸ big⟩

theorem roundDiv_pow_eq_error_iff {n : ℤ} {digits : ℕ} (small : digits ≤ maxDecimalScale)
    {step : Overflow} :
    roundDiv n (10 ^ digits) = .error step ↔ step = .product ∧ Overflows n digits := by
  rw [roundDiv_eq_error_iff, overflows_iff small]

theorem decimalToInt_eq_error_iff {n : ℤ} {digits : ℕ} {step : Overflow} :
    decimalToInt n digits = .error step ↔ step = .product ∧ Overflows n digits := by
  unfold decimalToInt
  split
  · next small => exact roundDiv_pow_eq_error_iff small
  · next large =>
    refine ⟨fun h => (nomatch h), ?_⟩
    rintro ⟨-, rfl, -⟩
    exact absurd (le_refl _) large

/-- A 128-bit number without a number of digits at its end is the nearest whole number. With more
than 38 digits gone nothing is left, as no such number reaches a half of `10 ^ 39`. -/
theorem decimalToInt_eq_ok {n : Int128} {digits : ℕ} {m : ℤ}
    (h : decimalToInt n.toInt digits = .ok m) : Nearest (n.toInt / 10 ^ digits) m := by
  unfold decimalToInt at h
  split at h
  · have nearest := roundDiv_eq_ok (Nat.pow_pos (by decide)) h
    rwa [Nat.cast_pow, Nat.cast_ofNat] at nearest
  · next large =>
    cases h
    have size : (n.toInt.natAbs : ℚ) ≤ 2 ^ 127 := by
      have low := n.lower
      have high := n.upper
      exact_mod_cast (by omega : n.toInt.natAbs ≤ 2 ^ 127)
    have power : (10 : ℚ) ^ 39 ≤ 10 ^ digits :=
      pow_le_pow_right₀ (by norm_num) (by unfold maxDecimalScale at large; omega)
    apply Nearest.zero
    rw [abs_div, abs_of_pos (show (0 : ℚ) < 10 ^ digits by positivity),
      div_lt_div_iff₀ (by positivity) two_pos, ← Int.cast_abs, Int.abs_eq_natAbs, Int.cast_natCast]
    calc (n.toInt.natAbs : ℚ) * 2 ≤ 2 ^ 127 * 2 := by linarith
      _ < 1 * 10 ^ 39 := by norm_num
      _ ≤ 1 * 10 ^ digits := by linarith

/-- The rounding step in words of 128 bits that wrap. -/
def roundDivWrapping (n : ℤ) (d : ℕ) : ℤ :=
  if d ≤ (2 * ((n.tmod d).natAbs : ℤ)).bmod (2 ^ 128) then n.tdiv d + n.sign else n.tdiv d

/-- A double that does not fit in 128 bits wraps below zero. -/
theorem bmod_twice {r : ℕ} (small : r < 2 ^ 127) :
    (2 * (r : ℤ)).bmod (2 ^ 128) = 2 * r - if 2 ^ 126 ≤ r then 2 ^ 128 else 0 := by
  rw [Int.bmod_def]
  omega

/-- A double that wraps is less than the divisor, and the step then stays on the side of zero. -/
theorem nearest_roundDivWrapping_iff {n : ℤ} {digits : ℕ} (small : digits ≤ maxDecimalScale) :
    Nearest (n / 10 ^ digits) (roundDivWrapping n (10 ^ digits)) ↔ ¬Overflows n digits := by
  have nearest := nearest_tdiv n (Nat.pow_pos (n := digits) (show 0 < 10 by decide))
  have rest := natAbs_tmod_pow_lt n digits
  have power : 10 ^ digits ≤ 10 ^ 38 := Nat.pow_le_pow_right (by decide) small
  rw [Nat.cast_pow, Nat.cast_ofNat] at nearest
  unfold roundDivWrapping
  rw [overflows_iff small, bmod_twice (by omega)]
  by_cases big : 2 ^ 126 ≤ (n.tmod (10 ^ digits : ℕ)).natAbs
  · rw [if_pos big, if_neg (by omega)]
    rw [if_pos (by omega)] at nearest
    refine iff_of_false (fun other => ?_) (not_not.2 big)
    have same := nearest.unique other
    have sign : n.sign ≠ 0 := by
      intro zero
      rw [Int.sign_eq_zero_iff_zero.1 zero, Int.zero_tmod] at big
      omega
    omega
  · refine iff_of_true ?_ big
    rw [if_neg big, sub_zero]
    exact_mod_cast nearest

/-- The digits that a cast to a type rounds off a decimal of a scale: all behind the point on the
way to a whole number, and those that a decimal type has no place for. -/
def DataType.roundedDigits (scale : ℕ) : DataType → ℕ
  | tinyInt | smallInt | int | bigInt | date | time | timestamp | bit _ => scale
  | decimal _ own =>
    let places := (own.getD 0).toNat
    if places ≤ maxDecimalScale then scale - places else 0
  | boolean | float | double | char _ | varchar _ | text | blob => 0

namespace Value

variable {v : Value} {n : Int128} {scale : UInt8} {step : Overflow}

theorem toInt64?_eq_error_iff :
    (decimal n scale).toInt64? = .error step ↔
      step = .product ∧ Overflows n.toInt scale.toNat := by
  rw [← decimalToInt_eq_error_iff, toInt64?]
  cases decimalToInt n.toInt scale.toNat <;> simp [Except.map]

theorem castWhole_eq_overflow_iff {target : String} {narrow : Int64 → Option Value} :
    v.castWhole target narrow = .error (.overflow step) ↔ v.toInt64? = .error step := by
  unfold castWhole
  split
  · next e found => simp [found]
  · next found => simp [found]
  · next i found =>
    rw [found]
    cases narrow i <;> simp [orRefuse]

theorem castBit_eq_overflow_iff {width : UInt8} :
    (decimal n scale).castBit width = .error (.overflow step) ↔
      (decimal n scale).toInt64? = .error step := by
  unfold castBit
  dsimp only
  cases found : (decimal n scale).toInt64? with
  | error e => simp [Except.map]
  | ok i =>
    cases bits : i.bind fun i => uint64? i.toInt with
    | none => simp [Except.map, bits]
    | some b =>
      simp only [Except.map, bits]
      split <;> simp

theorem unscaledAt_eq_error_iff {places : ℕ} :
    (decimal n scale).unscaledAt places = .error step ↔
      step = .product ∧ Overflows n.toInt (scale.toNat - places) := by
  unfold unscaledAt
  dsimp only
  split
  · next up =>
    rw [Nat.sub_eq_zero_of_le up]
    refine ⟨fun h => (nomatch h), ?_⟩
    rintro ⟨-, none, -⟩
    cases none
  · rw [← decimalToInt_eq_error_iff]
    cases decimalToInt n.toInt (scale.toNat - places) <;> simp [Except.map]

theorem castDecimal_eq_overflow_iff {precision : Option UInt8} {places : UInt8} :
    (decimal n scale).castDecimal precision places = .error (.overflow step) ↔
      places.toNat ≤ maxDecimalScale ∧
        (decimal n scale).unscaledAt places.toNat = .error step := by
  unfold castDecimal
  split
  · next large => simp [Nat.not_le_of_lt large]
  · next small =>
    rw [and_iff_right (Nat.le_of_not_lt small)]
    split
    · next e found => simp [found]
    · next found => simp [found]
    · next k found =>
      rw [found]
      split <;> simp

/-- A decimal's cast overflows exactly where the digits that it rounds off do. -/
theorem cast_eq_overflow_iff {target : DataType} :
    (decimal n scale).cast target = .error (.overflow step) ↔
      step = .product ∧ Overflows n.toInt (target.roundedDigits scale.toNat) := by
  have never (left : target.roundedDigits scale.toNat = 0)
      (h : (decimal n scale).cast target ≠ .error (.overflow step)) :
      (decimal n scale).cast target = .error (.overflow step) ↔
        step = .product ∧ Overflows n.toInt (target.roundedDigits scale.toNat) := by
    rw [left]
    exact ⟨fun found => absurd found h, fun found => (nomatch found.2.1)⟩
  have text (other : DataType) (length : Option UInt32) :
      (decimal n scale).castText other length ≠ .error (.overflow step) := by
    unfold castText
    split
    · split <;> simp
    · simp
  cases target with
  | tinyInt | smallInt | int | bigInt | date | time | timestamp =>
    exact castWhole_eq_overflow_iff.trans toInt64?_eq_error_iff
  | bit width => exact castBit_eq_overflow_iff.trans toInt64?_eq_error_iff
  | decimal precision places =>
    refine castDecimal_eq_overflow_iff.trans ?_
    rw [unscaledAt_eq_error_iff, DataType.roundedDigits]
    split
    · next small => exact and_iff_right small
    · next large => exact ⟨fun h => absurd h.1 large, fun h => (nomatch h.2.1)⟩
  | float =>
    refine never rfl ?_
    show (decimal n scale).castFloat ≠ _
    unfold castFloat
    split
    · simp
    · split <;> simp
  | char length => exact never rfl (text _ length)
  | varchar length => exact never rfl (text _ length)
  | boolean | double | text | blob =>
    exact never rfl (by simp [cast, isNull, toDouble?, orRefuse, Except.map])

/-! ### Conversions that do not overflow -/

/-- A decimal at a number of places is its value times the power of ten, rounded where places are
taken off and exact where they are added. -/
theorem unscaledAt_eq_ok {places : ℕ} {found : Option Int128}
    (h : (decimal n scale).unscaledAt places = .ok found) :
    ∃ m, Nearest (n.toInt / 10 ^ scale.toNat * 10 ^ places) m ∧
      (scale.toNat ≤ places → (m : ℚ) = n.toInt / 10 ^ scale.toNat * 10 ^ places) ∧
      ∀ k, found = some k ↔ k.toInt = m := by
  have power (digits : ℕ) : (10 : ℚ) ^ digits ≠ 0 := by positivity
  unfold unscaledAt at h
  dsimp only at h
  split at h
  · next up =>
    cases h
    have exact : ((n.toInt * 10 ^ (places - scale.toNat) : ℤ) : ℚ) =
        n.toInt / 10 ^ scale.toNat * 10 ^ places := by
      have parts := pow_sub_mul_pow (10 : ℚ) up
      rw [← parts]
      push_cast
      field_simp [power]
    exact ⟨_, exact ▸ Nearest.whole _, fun _ => exact, fun k => Int128.ofInt?_eq_some_iff⟩
  · next down =>
    cases rounded : decimalToInt n.toInt (scale.toNat - places) with
    | error step =>
      rw [rounded] at h
      cases h
    | ok m =>
      rw [rounded] at h
      cases h
      have quotient : (n.toInt / 10 ^ scale.toNat * 10 ^ places : ℚ) =
          n.toInt / 10 ^ (scale.toNat - places) := by
        have parts := pow_sub_mul_pow (10 : ℚ) (Nat.le_of_not_le down)
        rw [← parts]
        field_simp [power]
      refine ⟨m, ?_, fun up => absurd up down, fun k => Int128.ofInt?_eq_some_iff⟩
      rw [quotient]
      exact decimalToInt_eq_ok rounded

theorem toInt64?_eq_ok {found : Option Int64} (h : (decimal n scale).toInt64? = .ok found) :
    ∃ m, Nearest (n.toInt / 10 ^ scale.toNat) m ∧ ∀ i, found = some i ↔ i.toInt = m := by
  unfold toInt64? at h
  dsimp only at h
  cases rounded : decimalToInt n.toInt scale.toNat with
  | error step =>
    rw [rounded] at h
    cases h
  | ok m =>
    rw [rounded] at h
    cases h
    exact ⟨m, decimalToInt_eq_ok rounded, fun i => int64?_eq_some_iff⟩

/-- A cast to a decimal type gives the unscaled value at the type's scale, if the type holds it. -/
theorem castDecimal_eq_ok_iff {precision : Option UInt8} {places : UInt8} {w : Value}
    (small : places.toNat ≤ maxDecimalScale) :
    v.castDecimal precision places = .ok w ↔
      ∃ k, v.unscaledAt places.toNat = .ok (some k) ∧
        (∀ digits ∈ precision, k.toInt.natAbs < 10 ^ digits.toNat) ∧ w = .decimal k places := by
  unfold castDecimal
  rw [if_neg (Nat.not_lt_of_le small)]
  split
  · next e found => simp [found]
  · next found => simp [found]
  · next k found =>
    simp only [found, Except.ok.injEq, Option.some.injEq, exists_eq_left', ← fitsPrecision_iff]
    split
    · next fits => simp [fits, eq_comm]
    · next tight => simp [tight]

/-! ### Decimals -/

/-- A conversion of a decimal overflows exactly if it rounds off 38 digits and leaves a remainder of
`2 ^ 126` or more; in words that wrap it is just these that are not rounded to the nearest whole
number. -/
theorem decimal_overflow_iff (n : Int128) (scale : UInt8) :
    (∀ step, (decimal n scale).toInt64? = .error step ↔
      step = .product ∧ Overflows n.toInt scale.toNat) ∧
    (∀ target step, (decimal n scale).cast target = .error (.overflow step) ↔
      step = .product ∧ Overflows n.toInt (target.roundedDigits scale.toNat)) ∧
    ∀ digits ≤ maxDecimalScale,
      (∀ step, roundDiv n.toInt (10 ^ digits) = .error step ↔
        step = .product ∧ Overflows n.toInt digits) ∧
      (Nearest (n.toInt / 10 ^ digits) (roundDivWrapping n.toInt (10 ^ digits)) ↔
        ¬Overflows n.toInt digits) :=
  ⟨fun _ => toInt64?_eq_error_iff, fun _ _ => cast_eq_overflow_iff, fun _ small =>
    ⟨fun _ => roundDiv_pow_eq_error_iff small, nearest_roundDivWrapping_iff small⟩⟩

/-- A remainder of `2 ^ 126` is the least that overflows. -/
theorem decimal_overflow_iff_least :
    38 ≤ maxDecimalScale ∧ roundDiv (2 ^ 126) (10 ^ 38) = .error .product ∧
      ∀ step, roundDiv (2 ^ 126 - 1) (10 ^ 38) ≠ .error step := by
  have small : 38 ≤ maxDecimalScale := le_refl _
  obtain ⟨-, -, least⟩ := decimal_overflow_iff { toInt := 2 ^ 126 } 38
  obtain ⟨-, -, below⟩ := decimal_overflow_iff { toInt := 2 ^ 126 - 1 } 38
  refine ⟨small, ((least 38 small).1 _).2 ⟨rfl, rfl, by decide⟩, fun step found => ?_⟩
  obtain ⟨-, overflows⟩ := ((below 38 small).1 step).1 found
  exact absurd overflows.2 (by decide)

/-- A decimal just below one stops at the step that would round it, and words that wrap round it
down. -/
theorem decimal_rounding_overflows :
    let n : Int128 := { toInt := 10 ^ 38 - 1 }
    (decimal n 38).toInt64? = .error .product ∧
      (decimal n 38).cast .bigInt = .error (.overflow .product) ∧
      Nearest (n.toInt / 10 ^ 38) 1 ∧ roundDivWrapping n.toInt (10 ^ 38) = 0 := by
  refine ⟨by decide, by decide, ⟨?_, ?_⟩, by decide⟩ <;> norm_num [abs_of_neg]

/-- A decimal that becomes a whole number, or a decimal of some places, becomes the nearest one: the
conversion succeeds exactly if the target holds it. Only a type with too many places is refused from
the start. -/
theorem decimal_rounds (n : Int128) (scale : UInt8) :
    let x : ℚ := n.toInt / 10 ^ scale.toNat
    (∀ found, (decimal n scale).toInt64? = .ok found →
      ∃ m, Nearest x m ∧ ∀ i, found = some i ↔ i.toInt = m) ∧
    ∀ precision own, let places : UInt8 := own.getD 0
      (maxDecimalScale < places.toNat →
        (decimal n scale).cast (.decimal precision own) =
          .error (.refused (.scaleTooLarge places))) ∧
      (places.toNat ≤ maxDecimalScale →
        (∀ step, (decimal n scale).cast (.decimal precision own) ≠ .error (.overflow step)) →
        ∃ m, Nearest (x * 10 ^ places.toNat) m ∧
          (scale.toNat ≤ places.toNat → (m : ℚ) = x * 10 ^ places.toNat) ∧
          ∀ w, (decimal n scale).cast (.decimal precision own) = .ok w ↔
            ∃ k : Int128, k.toInt = m ∧ (∀ digits ∈ precision, m.natAbs < 10 ^ digits.toNat) ∧
              w = .decimal k places) := by
  refine ⟨fun found h => toInt64?_eq_ok h, fun precision own => ⟨fun large => ?_, ?_⟩⟩
  · exact if_pos large
  · intro small quiet
    cases found : (decimal n scale).unscaledAt (own.getD 0).toNat with
    | error step =>
      exact absurd (castDecimal_eq_overflow_iff.2 ⟨small, found⟩) (quiet step)
    | ok unscaled =>
      obtain ⟨m, nearest, exact, held⟩ := unscaledAt_eq_ok found
      refine ⟨m, nearest, exact, fun w => (castDecimal_eq_ok_iff small).trans ?_⟩
      refine exists_congr fun k => ?_
      rw [found, Except.ok.injEq, held]
      exact and_congr_right fun same => by rw [same]

/-- The least unscaled value, as a whole number and with one place less. -/
theorem decimal_rounds_least :
    let v := decimal { toInt := -2 ^ 127 } 38
    v.toInt64? = .ok (some (-2)) ∧ Nearest (-2 ^ 127 / 10 ^ 38) (-2) ∧
      37 ≤ maxDecimalScale ∧ (∀ step, v.cast (.decimal none (some 37)) ≠ .error (.overflow step)) ∧
      ∃ m, Nearest (-2 ^ 127 / 10) m ∧ ∀ w, v.cast (.decimal none (some 37)) = .ok w ↔
        ∃ k : Int128, k.toInt = m ∧ w = .decimal k 37 := by
  intro v
  have whole : v.toInt64? = .ok (some (-2)) := by decide
  have answered : v.cast (.decimal none (some 37)) =
      .ok (.decimal { toInt := -17014118346046923173168730371588410573 } 37) := by decide
  have quiet : ∀ step, v.cast (.decimal none (some 37)) ≠ .error (.overflow step) := by
    intro step
    rw [answered]
    exact nofun
  obtain ⟨rounds, casts⟩ := decimal_rounds { toInt := -2 ^ 127 } 38
  obtain ⟨m, nearest, reached⟩ := rounds _ whole
  obtain ⟨m', nearest', -, held⟩ := (casts none (some 37)).2 (by decide) quiet
  refine ⟨whole, ?_, by decide, quiet, m', ?_, fun w => (held w).trans (by simp)⟩
  · obtain rfl := (reached (-2)).1 rfl
    exact_mod_cast nearest
  · have places : (-2 ^ 127 / 10 : ℚ) = -2 ^ 127 / 10 ^ 38 * 10 ^ 37 := by norm_num
    rw [places]
    exact_mod_cast nearest'

end Value

end ResultSink
