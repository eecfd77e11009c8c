import Mathlib.Data.Int.Log
import Mathlib.Data.Rat.Floor
import Mathlib.Tactic.FieldSimp
import Mathlib.Tactic.Linarith
import Mathlib.Tactic.Positivity
import Mathlib.Tactic.Ring
import ResultSink.Proofs.Floating.Reach

/-! Rounding keeps the order. A greater quotient never has a smaller leading digit nor, at the same
leading digit, a smaller mantissa, so the words that quotients are rounded to stand in the order of
the quotients. Whole numbers and the numbers of another format are rounded quotients, and their
order is kept as well; only what is between two neighbouring words is lost. -/

namespace ResultSink

/-- A quotient over a power of two, as the quotient of whole numbers that it is computed from. -/
theorem div_zpow_eq (num den : ℕ) (e : ℤ) :
    ((num * 2 ^ (-e).toNat : ℕ) : ℚ) / (den * 2 ^ e.toNat : ℕ) = num / den / 2 ^ e := by
  have parts : (2 : ℚ) ^ e = 2 ^ e.toNat / 2 ^ (-e).toNat := by
    rw [← zpow_natCast, ← zpow_natCast, ← zpow_sub₀ two_ne_zero]
    congr 1
    omega
  rw [parts]
  push_cast
  rw [div_div_div_eq]

theorem divToEven_le_succ (num den : ℕ) : divToEven num den ≤ num / den + 1 := by
  unfold divToEven
  dsimp only
  split
  · omega
  · split <;> omega

theorem divToEven_mono {num den num' den' : ℕ} (hd : 0 < den) (hd' : 0 < den')
    (h : (num : ℚ) / den ≤ num' / den') : divToEven num den ≤ divToEven num' den' := by
  have cross : num * den' ≤ num' * den := by
    have quotients := (div_le_div_iff₀ (Nat.cast_pos.2 hd) (Nat.cast_pos.2 hd')).1 h
    exact_mod_cast quotients
  have whole : num / den ≤ num' / den' := by
    rw [Nat.le_div_iff_mul_le hd']
    refine Nat.le_of_mul_le_mul_right ?_ hd
    calc num / den * den' * den = num / den * den * den' := Nat.mul_right_comm _ _ _
      _ ≤ num * den' := Nat.mul_le_mul_right _ (Nat.div_mul_le_self num den)
      _ ≤ num' * den := cross
  rcases Nat.lt_or_eq_of_le whole with less | same
  · exact Nat.le_trans (divToEven_le_succ num den)
      (Nat.le_trans less (le_divToEven num' den'))
  · -- Between the same neighbours the remainders decide, and they keep the order.
    have rest : num % den * den' ≤ num' % den' * den := by
      have parts := Nat.div_add_mod num den
      have parts' := Nat.div_add_mod num' den'
      rw [← parts, ← parts', same] at cross
      nlinarith
    have past : den < 2 * (num % den) → den' < 2 * (num' % den') := by
      intro above
      refine Nat.lt_of_mul_lt_mul_right (a := den) ?_
      nlinarith
    have half : den ≤ 2 * (num % den) → den' ≤ 2 * (num' % den') := by
      intro above
      refine Nat.le_of_mul_le_mul_right ?_ hd
      nlinarith
    unfold divToEven
    dsimp only
    rw [same]
    split_ifs <;> omega

/-- The leading binary digit of a quotient is its logarithm, rounded down. -/
theorem floorLog2_eq {num den : ℕ} (hn : num ≠ 0) (hd : den ≠ 0) :
    floorLog2 num den = Int.log 2 ((num : ℚ) / den) := by
  have numerator : (0 : ℚ) < num := Nat.cast_pos.2 (Nat.pos_of_ne_zero hn)
  have denominator : (0 : ℚ) < den := Nat.cast_pos.2 (Nat.pos_of_ne_zero hd)
  have positive : (0 : ℚ) < num / den := div_pos numerator denominator
  have low : (2 : ℚ) ^ Nat.log2 num ≤ num := by exact_mod_cast Nat.log2_self_le hn
  have low' : (2 : ℚ) ^ Nat.log2 den ≤ den := by exact_mod_cast Nat.log2_self_le hd
  have high : (num : ℚ) < 2 ^ (Nat.log2 num + 1) := by exact_mod_cast Nat.lt_log2_self
  have high' : (den : ℚ) < 2 ^ (Nat.log2 den + 1) := by exact_mod_cast Nat.lt_log2_self
  unfold floorLog2
  dsimp only
  generalize exponent : (Nat.log2 num : ℤ) - Nat.log2 den = e
  have power : (2 : ℚ) ^ Nat.log2 num = 2 ^ e * 2 ^ Nat.log2 den := by
    rw [← zpow_natCast, ← zpow_natCast, ← zpow_add₀ two_ne_zero]
    congr 1
    omega
  -- The difference of the logarithms is that of the quotient, or one more.
  have above : (2 : ℚ) ^ (e - 1) ≤ num / den := by
    rw [le_div_iff₀ denominator, zpow_sub_one₀ two_ne_zero]
    rw [pow_succ] at high'
    nlinarith [zpow_pos (two_pos (α := ℚ)) e]
  have below : (num : ℚ) / den < 2 ^ (e + 1) := by
    rw [div_lt_iff₀ denominator, zpow_add_one₀ two_ne_zero]
    rw [pow_succ] at high
    nlinarith [zpow_pos (two_pos (α := ℚ)) e]
  have reached : den * 2 ^ e.toNat ≤ num * 2 ^ (-e).toNat ↔ (2 : ℚ) ^ e ≤ num / den := by
    have scaled := div_zpow_eq num den e
    have positive' : (0 : ℚ) < (den * 2 ^ e.toNat : ℕ) := by positivity
    rw [← one_le_div (zpow_pos (two_pos (α := ℚ)) e), ← scaled, one_le_div positive', Nat.cast_le]
  rw [if_congr reached rfl rfl]
  split
  · next within =>
    have least := (Int.zpow_le_iff_le_log one_lt_two positive).1 within
    have most := (Int.lt_zpow_iff_log_lt one_lt_two positive).1 below
    omega
  · next beyond =>
    have least := (Int.zpow_le_iff_le_log one_lt_two positive).1 above
    have most := (Int.lt_zpow_iff_log_lt one_lt_two positive).1 (not_le.1 beyond)
    omega

/-- The mantissa of a quotient at a unit. -/
def mantissaAt (num den : ℕ) (unit : ℤ) : ℕ :=
  divToEven (num * 2 ^ (-unit).toNat) (den * 2 ^ unit.toNat)

section Mantissa

variable {num den num' den' k : ℕ} {unit : ℤ}

theorem mantissaAt_mono (hd : 0 < den) (hd' : 0 < den') (h : (num : ℚ) / den ≤ num' / den') :
    mantissaAt num den unit ≤ mantissaAt num' den' unit := by
  refine divToEven_mono (Nat.mul_pos hd (Nat.two_pow_pos _))
    (Nat.mul_pos hd' (Nat.two_pow_pos _)) ?_
  rw [div_zpow_eq, div_zpow_eq]
  exact div_le_div_of_nonneg_right h (zpow_pos two_pos unit).le

/-- A whole number of units is its own mantissa. -/
theorem mantissaAt_scaleByTwo (k : ℕ) (unit : ℤ) :
    mantissaAt (scaleByTwo k unit).1 (scaleByTwo k unit).2 unit = k := by
  unfold mantissaAt scaleByTwo
  dsimp only
  rw [Nat.mul_assoc, Nat.mul_comm (2 ^ (-unit).toNat)]
  exact divToEven_mul k (Nat.mul_pos (Nat.two_pow_pos _) (Nat.two_pow_pos _))

theorem scaleByTwo_pos (k : ℕ) (e : ℤ) : 0 < (scaleByTwo k e).2 := Nat.two_pow_pos _

theorem scaleByTwo_quotient (k : ℕ) (e : ℤ) :
    ((scaleByTwo k e).1 : ℚ) / (scaleByTwo k e).2 = k * 2 ^ e := by
  have scaled := div_zpow_eq k 1 (-e)
  rw [neg_neg, Nat.one_mul, Nat.cast_one, div_one, zpow_neg, div_inv_eq_mul] at scaled
  exact scaled

theorem mantissaAt_le (hd : 0 < den) (h : (num : ℚ) / den ≤ k * 2 ^ unit) :
    mantissaAt num den unit ≤ k := by
  rw [← scaleByTwo_quotient] at h
  exact mantissaAt_scaleByTwo k unit ▸ mantissaAt_mono hd (scaleByTwo_pos k unit) h

theorem le_mantissaAt (hd : 0 < den) (h : k * 2 ^ unit ≤ (num : ℚ) / den) :
    k ≤ mantissaAt num den unit := by
  rw [← scaleByTwo_quotient] at h
  exact mantissaAt_scaleByTwo k unit ▸ mantissaAt_mono (scaleByTwo_pos k unit) hd h

end Mantissa

namespace Format

variable {f : Format} {num den num' den' : ℕ}

/-- The exponent of the last bit that a format keeps of a positive number. -/
def unitOf (f : Format) (q : ℚ) : ℤ := max (Int.log 2 q) f.minNormal - f.fractionBits

theorem roundMagnitude_zero (f : Format) (den : ℕ) : f.roundMagnitude 0 den = 0 := if_pos rfl

theorem roundMagnitude_eq (hn : num ≠ 0) (hd : den ≠ 0) :
    f.roundMagnitude num den =
      min ((f.unitOf (num / den) - f.minUnit).toNat * 2 ^ f.fractionBits +
        mantissaAt num den (f.unitOf (num / den))) f.infinity := by
  unfold roundMagnitude
  rw [if_neg hn, floorLog2_eq hn hd]
  dsimp only
  rw [unitOf, minUnit, sub_sub_sub_cancel_right, mantissaAt]

/-- A number has fewer units than a mantissa can count. -/
theorem lt_unitOf (f : Format) (q : ℚ) :
    q < (2 ^ (f.fractionBits + 1) : ℕ) * 2 ^ f.unitOf q := by
  have next : ((2 ^ (f.fractionBits + 1) : ℕ) : ℚ) * 2 ^ f.unitOf q =
      2 ^ (max (Int.log 2 q) f.minNormal + 1) := by
    push_cast
    rw [unitOf, ← zpow_natCast, ← zpow_add₀ two_ne_zero]
    congr 1
    push_cast
    ring
  rw [next]
  refine lt_of_lt_of_le (Int.lt_zpow_succ_log_self one_lt_two q) ?_
  exact zpow_le_zpow_right₀ one_le_two (by omega)

/-- Above the least unit a number has its leading bit. -/
theorem unitOf_le {q : ℚ} (positive : 0 < q) (normal : f.minUnit < f.unitOf q) :
    (2 ^ f.fractionBits : ℕ) * 2 ^ f.unitOf q ≤ q := by
  have leading : f.unitOf q = Int.log 2 q - f.fractionBits := by
    unfold unitOf minUnit at *
    omega
  have lead : ((2 ^ f.fractionBits : ℕ) : ℚ) * 2 ^ f.unitOf q = 2 ^ Int.log 2 q := by
    push_cast
    rw [leading, ← zpow_natCast, ← zpow_add₀ two_ne_zero]
    congr 1
    ring
  rw [lead]
  exact Int.zpow_log_le_self one_lt_two positive

theorem minUnit_le_unitOf (f : Format) (q : ℚ) : f.minUnit ≤ f.unitOf q := by
  unfold unitOf minUnit
  omega

theorem unitOf_mono {q q' : ℚ} (positive : 0 < q) (h : q ≤ q') : f.unitOf q ≤ f.unitOf q' := by
  have log := Int.log_mono_right (b := 2) positive h
  unfold unitOf
  omega

theorem quotient_pos (hn : num ≠ 0) (hd : den ≠ 0) : (0 : ℚ) < num / den :=
  div_pos (Nat.cast_pos.2 (Nat.pos_of_ne_zero hn)) (Nat.cast_pos.2 (Nat.pos_of_ne_zero hd))

/-- A greater unit stands behind all the mantissas of a lower one. -/
theorem units_add_le {u v : ℤ} (least : f.minUnit ≤ u) (more : u < v) :
    (u - f.minUnit).toNat * 2 ^ f.fractionBits + 2 ^ f.fractionBits ≤
      (v - f.minUnit).toNat * 2 ^ f.fractionBits := by
  have below : (u - f.minUnit).toNat + 1 ≤ (v - f.minUnit).toNat := by omega
  calc (u - f.minUnit).toNat * 2 ^ f.fractionBits + 2 ^ f.fractionBits =
        ((u - f.minUnit).toNat + 1) * 2 ^ f.fractionBits := (Nat.succ_mul _ _).symm
    _ ≤ (v - f.minUnit).toNat * 2 ^ f.fractionBits := Nat.mul_le_mul_right _ below

/-- Rounding keeps the order of two quotients. -/
theorem roundMagnitude_mono (hd : den ≠ 0) (hd' : den' ≠ 0) (h : (num : ℚ) / den ≤ num' / den') :
    f.roundMagnitude num den ≤ f.roundMagnitude num' den' := by
  by_cases hn : num = 0
  · rw [hn, roundMagnitude_zero]
    exact Nat.zero_le _
  · have denominator := Nat.pos_of_ne_zero hd
    have denominator' := Nat.pos_of_ne_zero hd'
    have positive := quotient_pos hn hd
    have hn' : num' ≠ 0 := by
      rintro rfl
      rw [Nat.cast_zero, zero_div] at h
      exact absurd h (not_le.2 positive)
    have least := f.minUnit_le_unitOf ((num : ℚ) / den)
    have units := unitOf_mono (f := f) positive h
    rw [roundMagnitude_eq hn hd, roundMagnitude_eq hn' hd']
    refine min_le_min_right _ ?_
    rcases units.eq_or_lt with same | more
    · rw [same]
      exact Nat.add_le_add_left (mantissaAt_mono denominator denominator' h) _
    · -- A mantissa that overruns its unit becomes the least mantissa of the next one.
      have full := mantissaAt_le denominator (f.lt_unitOf (num / den)).le
      have lead := le_mantissaAt denominator'
        (unitOf_le (f := f) (quotient_pos hn' hd') (by omega))
      have step := units_add_le least more
      rw [Nat.pow_succ] at full
      omega

/-! ### Numbers that are kept -/

/-- A number that a format keeps, up to its greatest number: a mantissa of its units. -/
def Keeps (f : Format) (q : ℚ) : Prop :=
  ∃ (m : ℕ) (u : ℤ), m < 2 ^ (f.fractionBits + 1) ∧ f.minUnit ≤ u ∧ q = m * 2 ^ u

/-- A number that is kept is a whole number of its own units. -/
theorem Keeps.exists_mantissa {q : ℚ} (h : f.Keeps q) (positive : 0 < q) :
    ∃ k : ℕ, q = k * 2 ^ f.unitOf q := by
  obtain ⟨m, u, small, least, rfl⟩ := h
  have log : Int.log 2 ((m : ℚ) * 2 ^ u) < f.fractionBits + 1 + u := by
    have bound : (m : ℚ) < 2 ^ (f.fractionBits + 1) := by exact_mod_cast small
    rw [← Int.lt_zpow_iff_log_lt one_lt_two positive, Nat.cast_ofNat, zpow_add₀ two_ne_zero]
    exact mul_lt_mul_of_pos_right bound (zpow_pos two_pos u)
  have unit : f.unitOf (m * 2 ^ u) ≤ u := by
    unfold unitOf minUnit at *
    omega
  refine ⟨m * 2 ^ (u - f.unitOf (m * 2 ^ u)).toNat, ?_⟩
  generalize f.unitOf (m * 2 ^ u) = v at *
  push_cast
  rw [mul_assoc, ← zpow_natCast, ← zpow_add₀ two_ne_zero, Int.toNat_of_nonneg (by omega),
    sub_add_cancel]

theorem Keeps.eq_mantissaAt (h : f.Keeps (num / den)) (hn : num ≠ 0) (hd : den ≠ 0) :
    (num : ℚ) / den = mantissaAt num den (f.unitOf (num / den)) * 2 ^ f.unitOf (num / den) := by
  obtain ⟨k, whole⟩ := h.exists_mantissa (quotient_pos hn hd)
  have denominator := Nat.pos_of_ne_zero hd
  have same : mantissaAt num den (f.unitOf (num / den)) = k :=
    Nat.le_antisymm (mantissaAt_le denominator whole.le) (le_mantissaAt denominator whole.ge)
  rw [same]
  exact whole

/-- Two numbers that are kept are rounded to two words, up to the greatest number. -/
theorem roundMagnitude_strictMono (hd : den ≠ 0) (hd' : den' ≠ 0)
    (h : (num : ℚ) / den < num' / den') (kept : f.Keeps (num / den))
    (kept' : f.Keeps (num' / den')) (finite : f.roundMagnitude num den < f.infinity) :
    f.roundMagnitude num den < f.roundMagnitude num' den' := by
  have hn' : num' ≠ 0 := by
    rintro rfl
    rw [Nat.cast_zero, zero_div] at h
    exact absurd h (not_lt.2 (by positivity))
  have positive' := quotient_pos hn' hd'
  have whole' := kept'.eq_mantissaAt hn' hd'
  have denominator' := Nat.pos_of_ne_zero hd'
  rw [roundMagnitude_eq hn' hd'] at *
  by_cases hn : num = 0
  · have some : mantissaAt num' den' (f.unitOf (num' / den')) ≠ 0 := by
      intro none
      rw [none, Nat.cast_zero, zero_mul] at whole'
      exact absurd whole' positive'.ne'
    rw [hn, roundMagnitude_zero] at finite ⊢
    omega
  · have positive := quotient_pos hn hd
    have whole := kept.eq_mantissaAt hn hd
    have least := f.minUnit_le_unitOf ((num : ℚ) / den)
    have units := unitOf_mono (f := f) positive h.le
    have full := f.lt_unitOf (num / den)
    have lead := unitOf_le (f := f) positive'
    rw [roundMagnitude_eq hn hd] at finite ⊢
    generalize f.unitOf (num / den) = u at *
    generalize f.unitOf (num' / den') = v at *
    generalize mantissaAt num den u = m at *
    generalize mantissaAt num' den' v = n at *
    rw [whole, mul_lt_mul_iff_left₀ (zpow_pos two_pos u), Nat.cast_lt, Nat.pow_succ] at full
    rcases units.eq_or_lt with rfl | more
    · rw [whole, whole', mul_lt_mul_iff_left₀ (zpow_pos two_pos u), Nat.cast_lt] at h
      omega
    · have reached := lead (by omega)
      rw [whole', mul_le_mul_iff_left₀ (zpow_pos two_pos v), Nat.cast_le] at reached
      have step := units_add_le least more
      omega

/-- What is at most a power of two within the range is rounded to a finite word. -/
theorem roundMagnitude_lt_infinity {k : ℕ} (hd : den ≠ 0) (h : (num : ℚ) / den ≤ 2 ^ k)
    (small : k < 2 ^ (f.exponentBits - 1)) (wide : 2 ≤ f.exponentBits) :
    f.roundMagnitude num den < f.infinity := by
  have finite := (Floating.ofQuotient_denotes (f.holds_twoPow k) Nat.one_ne_zero
    (Nat.pow_lt_pow_right (by decide) small) wide false).isFinite
  rw [Floating.isFinite, decide_eq_true_eq, Floating.ofQuotient, Floating.magnitude_ofMagnitude
    (Nat.lt_of_le_of_lt roundMagnitude_le Floating.infinity_lt_signWeight)] at finite
  refine Nat.lt_of_le_of_lt (roundMagnitude_mono hd Nat.one_ne_zero ?_) finite
  rwa [Nat.mul_one, Nat.cast_one, div_one, Nat.cast_pow, Nat.cast_ofNat]

/-! ### Whole numbers -/

section Whole

variable {m n : ℕ}

theorem roundMagnitude_whole_mono (h : m ≤ n) : f.roundMagnitude m 1 ≤ f.roundMagnitude n 1 := by
  refine roundMagnitude_mono Nat.one_ne_zero Nat.one_ne_zero ?_
  rw [Nat.cast_one, div_one, div_one]
  exact Nat.cast_le.2 h

theorem keeps_whole (small : n < 2 ^ (f.fractionBits + 1)) (wide : 2 ≤ f.exponentBits) :
    f.Keeps ((n : ℚ) / (1 : ℕ)) := by
  have least : f.minUnit ≤ 0 := by
    have normal := f.minNormal_nonpos wide
    unfold minUnit
    omega
  exact ⟨n, 0, small, least, by simp⟩

/-- Whole numbers of the length of a mantissa are not only kept in order, but apart. -/
theorem roundMagnitude_whole_le_iff (small : m < 2 ^ (f.fractionBits + 1))
    (small' : n < 2 ^ (f.fractionBits + 1))
    (range : f.fractionBits + 1 < 2 ^ (f.exponentBits - 1)) (wide : 2 ≤ f.exponentBits) :
    f.roundMagnitude m 1 ≤ f.roundMagnitude n 1 ↔ m ≤ n := by
  refine ⟨fun le => ?_, roundMagnitude_whole_mono⟩
  by_contra more
  refine absurd le (Nat.not_le.2 ?_)
  refine roundMagnitude_strictMono Nat.one_ne_zero Nat.one_ne_zero ?_ (keeps_whole small' wide)
    (keeps_whole small wide) ?_
  · rw [Nat.cast_one, div_one, div_one]
    exact Nat.cast_lt.2 (Nat.lt_of_not_le more)
  · refine roundMagnitude_lt_infinity Nat.one_ne_zero ?_ range wide
    rw [Nat.cast_one, div_one]
    exact_mod_cast small'.le

end Whole

end Format

namespace Floating

variable {f : Format} {s t : Bool} {m n m' n' : ℕ}

/-! ### Words -/

theorem roundMagnitude_lt_signWeight (num den : ℕ) : f.roundMagnitude num den < f.signWeight :=
  Nat.lt_of_le_of_lt Format.roundMagnitude_le infinity_lt_signWeight

theorem place_ofMagnitude (h : n < f.signWeight) :
    (ofMagnitude s n : Floating f).place = signed s n := by
  rw [place, isNegative_ofMagnitude h, magnitude_ofMagnitude h]

theorem isNaN_ofQuotient (num den : ℕ) : (ofQuotient s num den : Floating f).isNaN = false := by
  rw [isNaN, ofQuotient, magnitude_ofMagnitude (roundMagnitude_lt_signWeight num den)]
  exact decide_eq_false (Nat.not_lt.2 Format.roundMagnitude_le)

/-- Magnitudes that are replaced by others in the same order, and zero by zero, keep the order of
the numbers under their signs. -/
theorem signed_le_signed (le : m ≤ n → m' ≤ n') (ge : n ≤ m → n' ≤ m') (zero : m = 0 → m' = 0)
    (zero' : n = 0 → n' = 0) (h : signed s m ≤ signed t n) : signed s m' ≤ signed t n' := by
  cases s <;> cases t <;> simp only [signed, if_true, Bool.false_eq_true, if_false] at h ⊢ <;> omega

theorem signed_natAbs (i : ℤ) : signed (i < 0) i.natAbs = i := by
  by_cases negative : i < 0 <;> simp only [signed, negative, decide_true, decide_false, if_true,
    Bool.false_eq_true, if_false] <;> omega

theorem place_ofInt (i : ℤ) :
    (ofInt i : Floating f).place = signed (i < 0) (f.roundMagnitude i.natAbs 1) :=
  place_ofMagnitude (roundMagnitude_lt_signWeight _ _)

/-- Whole numbers keep their order when they are rounded. -/
theorem place_ofInt_mono {i j : ℤ} (h : i ≤ j) :
    (ofInt i : Floating f).place ≤ (ofInt j : Floating f).place := by
  have none {n : ℕ} (zero : n = 0) : f.roundMagnitude n 1 = 0 :=
    zero ▸ f.roundMagnitude_zero 1
  rw [← signed_natAbs i, ← signed_natAbs j] at h
  rw [place_ofInt, place_ofInt]
  exact signed_le_signed Format.roundMagnitude_whole_mono Format.roundMagnitude_whole_mono none none
    h

/-- Whole numbers of the length of a mantissa are in order exactly if their words are. -/
theorem place_ofInt_le_iff {i j : ℤ} (small : i.natAbs < 2 ^ (f.fractionBits + 1))
    (small' : j.natAbs < 2 ^ (f.fractionBits + 1))
    (range : f.fractionBits + 1 < 2 ^ (f.exponentBits - 1)) (wide : 2 ≤ f.exponentBits) :
    (ofInt i : Floating f).place ≤ (ofInt j : Floating f).place ↔ i ≤ j := by
  have back {m n : ℕ} (small : m < 2 ^ (f.fractionBits + 1))
      (small' : n < 2 ^ (f.fractionBits + 1)) :
      f.roundMagnitude m 1 ≤ f.roundMagnitude n 1 → m ≤ n :=
    (Format.roundMagnitude_whole_le_iff small small' range wide).1
  have zero {n : ℕ} (small : n < 2 ^ (f.fractionBits + 1)) (h : f.roundMagnitude n 1 = 0) :
      n = 0 :=
    Nat.le_zero.1 (back small (Nat.two_pow_pos _) (h.trans (f.roundMagnitude_zero 1).symm).le)
  refine ⟨fun h => ?_, place_ofInt_mono⟩
  rw [place_ofInt, place_ofInt] at h
  rw [← signed_natAbs i, ← signed_natAbs j]
  exact signed_le_signed (back small small') (back small' small) (zero small) (zero small') h

end Floating

end ResultSink
