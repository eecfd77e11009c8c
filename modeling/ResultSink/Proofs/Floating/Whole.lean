import Mathlib.Data.Nat.Factorization.Basic
import ResultSink.Floating.Basic

/-! Whole numbers that a floating-point format holds exactly. Rounding leaves such a number as it
is, so it is converted, multiplied and converted back without a loss; and no other whole number ever
comes back from the format. -/

namespace ResultSink

theorem divToEven_mul (q : Nat) {d : Nat} (hd : 0 < d) : divToEven (q * d) d = q := by
  unfold divToEven
  dsimp only
  rw [Nat.mul_mod_left, Nat.mul_div_cancel q hd, if_pos (by omega)]

/-- The leading binary digit of a whole number, written as a quotient, is that of the number. -/
theorem floorLog2_mul {n d : Nat} (hn : n ≠ 0) (hd : d ≠ 0) :
    floorLog2 (n * d) d = Nat.log2 n := by
  have product : n * d ≠ 0 := Nat.mul_ne_zero hn hd
  have low := Nat.log2_self_le hn
  have high := Nat.lt_log2_self (n := n)
  have lower : Nat.log2 n + Nat.log2 d ≤ Nat.log2 (n * d) := by
    rw [Nat.le_log2 product, Nat.pow_add]
    exact Nat.mul_le_mul low (Nat.log2_self_le hd)
  have upper : Nat.log2 (n * d) < Nat.log2 n + 1 + (Nat.log2 d + 1) := by
    rw [Nat.log2_lt product, Nat.pow_add]
    exact Nat.mul_lt_mul'' high Nat.lt_log2_self
  unfold floorLog2
  dsimp only
  -- The two logarithms differ by that of the number, or by one more.
  rcases Nat.lt_or_ge (Nat.log2 n + Nat.log2 d) (Nat.log2 (n * d)) with more | less
  · have difference : (Nat.log2 (n * d) : Int) - Nat.log2 d = (Nat.log2 n + 1 : Nat) := by omega
    have above : ¬d * 2 ^ (Nat.log2 n + 1) ≤ n * d := by
      rw [Nat.not_le, Nat.mul_comm n d]
      exact Nat.mul_lt_mul_of_pos_left high (Nat.pos_of_ne_zero hd)
    rw [difference, Int.toNat_natCast, Int.toNat_neg_natCast, Nat.pow_zero, Nat.mul_one,
      if_neg above]
    omega
  · have difference : (Nat.log2 (n * d) : Int) - Nat.log2 d = Nat.log2 n := by omega
    have within : d * 2 ^ Nat.log2 n ≤ n * d := by
      rw [Nat.mul_comm n d]
      exact Nat.mul_le_mul_left d low
    rw [difference, Int.toNat_natCast, Int.toNat_neg_natCast, Nat.pow_zero, Nat.mul_one,
      if_pos within]

namespace Format

/-- The sign is the first bit of a word. -/
theorem two_pow_width (f : Format) : 2 ^ f.width = 2 * f.signWeight := by
  rw [width, signWeight, Nat.add_assoc, Nat.pow_add]

/-- A whole number that a format holds exactly: what is left without factors of two fits in the
fraction and the leading bit before it. -/
def Holds (f : Format) (n : Nat) : Prop := ∃ a e, a < 2 ^ (f.fractionBits + 1) ∧ n = a * 2 ^ e

variable {f : Format}

theorem holds_of_le {n : Nat} (h : n ≤ 2 ^ (f.fractionBits + 1)) : f.Holds n := by
  rcases Nat.lt_or_eq_of_le h with less | same
  · exact ⟨n, 0, less, (Nat.mul_one n).symm⟩
  · exact ⟨1, f.fractionBits + 1, Nat.one_lt_two_pow (by omega), by omega⟩

theorem holds_twoPow (f : Format) (k : Nat) : f.Holds (2 ^ k) :=
  ⟨1, k, Nat.one_lt_two_pow (by omega), (Nat.one_mul _).symm⟩

/-- A positive number that a format holds is a mantissa with the leading bit set, shifted. -/
theorem Holds.mantissa {n : Nat} (h : f.Holds n) (hn : n ≠ 0) :
    ∃ m, 2 ^ f.fractionBits ≤ m ∧ m < 2 ^ (f.fractionBits + 1) ∧
      n * 2 ^ (f.fractionBits - Nat.log2 n) = m * 2 ^ (Nat.log2 n - f.fractionBits) := by
  have low := Nat.log2_self_le hn
  have high := Nat.lt_log2_self (n := n)
  rcases Nat.le_total (Nat.log2 n) f.fractionBits with short | long
  · have width : Nat.log2 n + (f.fractionBits - Nat.log2 n) = f.fractionBits := by omega
    refine ⟨n * 2 ^ (f.fractionBits - Nat.log2 n), ?_, ?_, ?_⟩
    · calc 2 ^ f.fractionBits = 2 ^ Nat.log2 n * 2 ^ (f.fractionBits - Nat.log2 n) := by
            rw [← Nat.pow_add, width]
        _ ≤ n * 2 ^ (f.fractionBits - Nat.log2 n) := Nat.mul_le_mul_right _ low
    · calc n * 2 ^ (f.fractionBits - Nat.log2 n) <
            2 ^ (Nat.log2 n + 1) * 2 ^ (f.fractionBits - Nat.log2 n) :=
            Nat.mul_lt_mul_of_pos_right high (Nat.two_pow_pos _)
        _ = 2 ^ (f.fractionBits + 1) := by
            rw [← Nat.pow_add]
            congr 1
            omega
    · rw [Nat.sub_eq_zero_of_le short, Nat.pow_zero, Nat.mul_one]
  · -- The shift is at least as long as what the number has beyond its fraction.
    obtain ⟨a, e, small, rfl⟩ := h
    have shift : Nat.log2 (a * 2 ^ e) - f.fractionBits ≤ e := by
      have bound : Nat.log2 (a * 2 ^ e) < f.fractionBits + 1 + e := by
        rw [Nat.log2_lt hn, Nat.pow_add]
        exact Nat.mul_lt_mul_of_pos_right small (Nat.two_pow_pos e)
      omega
    generalize hk : Nat.log2 (a * 2 ^ e) = k at *
    have parts : a * 2 ^ e = a * 2 ^ (e - (k - f.fractionBits)) * 2 ^ (k - f.fractionBits) := by
      rw [Nat.mul_assoc, ← Nat.pow_add]
      congr 2
      omega
    have power (j : Nat) : 2 ^ (k + j) = 2 ^ (f.fractionBits + j) * 2 ^ (k - f.fractionBits) := by
      rw [← Nat.pow_add]
      congr 1
      omega
    rw [parts] at low high
    refine ⟨a * 2 ^ (e - (k - f.fractionBits)), ?_, ?_, ?_⟩
    · have lead : 2 ^ k = 2 ^ f.fractionBits * 2 ^ (k - f.fractionBits) := power 0
      rw [lead] at low
      exact Nat.le_of_mul_le_mul_right low (Nat.two_pow_pos _)
    · rw [power 1] at high
      exact Nat.lt_of_mul_lt_mul_right high
    · rw [Nat.sub_eq_zero_of_le long, Nat.pow_zero, Nat.mul_one, ← parts]

/-- What divides a number that a format holds is held as well. -/
theorem Holds.of_dvd {n d : Nat} (h : f.Holds n) (hn : n ≠ 0) (hd : d ∣ n) : f.Holds d := by
  obtain ⟨a, e, small, rfl⟩ := h
  obtain ⟨k, m, odd, rfl⟩ := Nat.exists_eq_two_pow_mul_odd (ne_zero_of_dvd_ne_zero hn hd)
  have divides : m ∣ a := (odd.coprime_two_right.pow_right e).dvd_of_dvd_mul_right
    (Nat.dvd_trans (Nat.dvd_mul_left m _) hd)
  have bound : m ≤ a := Nat.le_of_dvd (Nat.pos_of_ne_zero (left_ne_zero_of_mul hn)) divides
  exact ⟨m, k, Nat.lt_of_le_of_lt bound small, Nat.mul_comm _ _⟩

theorem minNormal_eq (f : Format) :
    f.minNormal = 2 - (2 ^ (f.exponentBits - 1) : Nat) := by
  rw [minNormal, Int.natCast_pow]
  rfl

theorem minNormal_nonpos (wide : 2 ≤ f.exponentBits) : f.minNormal ≤ 0 := by
  have power := Nat.pow_le_pow_right (show 0 < 2 by decide) (show 1 ≤ f.exponentBits - 1 by omega)
  rw [minNormal_eq]
  omega

/-- A number that a format holds is rounded to its own mantissa, at the exponent of its leading
bit. -/
theorem Holds.roundMagnitude_eq {n den : Nat} (h : f.Holds n) (hn : n ≠ 0) (hd : den ≠ 0)
    (wide : 2 ≤ f.exponentBits) :
    ∃ m, 2 ^ f.fractionBits ≤ m ∧ m < 2 ^ (f.fractionBits + 1) ∧
      n * 2 ^ (f.fractionBits - Nat.log2 n) = m * 2 ^ (Nat.log2 n - f.fractionBits) ∧
      f.roundMagnitude (n * den) den =
        min ((Nat.log2 n - f.minNormal).toNat * 2 ^ f.fractionBits + m) f.infinity := by
  obtain ⟨m, low, high, shifted⟩ := h.mantissa hn
  have normal := minNormal_nonpos wide
  have leading : max (Nat.log2 n : Int) f.minNormal = Nat.log2 n := by omega
  have down : (-((Nat.log2 n : Int) - f.fractionBits)).toNat = f.fractionBits - Nat.log2 n := by
    omega
  have up : ((Nat.log2 n : Int) - f.fractionBits).toNat = Nat.log2 n - f.fractionBits := by omega
  have quotient : n * den * 2 ^ (f.fractionBits - Nat.log2 n) =
      m * (den * 2 ^ (Nat.log2 n - f.fractionBits)) := by
    rw [Nat.mul_right_comm, shifted, Nat.mul_right_comm, Nat.mul_assoc]
  have positive : 0 < den * 2 ^ (Nat.log2 n - f.fractionBits) :=
    Nat.mul_pos (Nat.pos_of_ne_zero hd) (Nat.two_pow_pos _)
  refine ⟨m, low, high, shifted, ?_⟩
  unfold roundMagnitude
  rw [if_neg (Nat.mul_ne_zero hn hd), floorLog2_mul hn hd, leading]
  dsimp only
  rw [down, up, quotient, divToEven_mul m positive]

end Format

namespace Floating

variable {f : Format}

theorem toNat_ofMagnitude {negative : Bool} {n : Nat} (h : n < f.signWeight) :
    (ofMagnitude negative n : Floating f).word.toNat =
      (if negative then f.signWeight else 0) + n := by
  rw [ofMagnitude, BitVec.toNat_ofNat, f.two_pow_width]
  apply Nat.mod_eq_of_lt
  split <;> omega

theorem magnitude_ofMagnitude {negative : Bool} {n : Nat} (h : n < f.signWeight) :
    (ofMagnitude negative n : Floating f).magnitude = n := by
  rw [magnitude, toNat_ofMagnitude h]
  split
  · rw [Nat.add_mod_left, Nat.mod_eq_of_lt h]
  · rw [Nat.zero_add, Nat.mod_eq_of_lt h]

theorem isNegative_ofMagnitude {negative : Bool} {n : Nat} (h : n < f.signWeight) :
    (ofMagnitude negative n : Floating f).isNegative = negative := by
  rw [isNegative, toNat_ofMagnitude h]
  cases negative with
  | false => simpa using h
  | true => simp

theorem infinity_lt_signWeight : f.infinity < f.signWeight := by
  have power := Nat.two_pow_pos f.exponentBits
  have positive := Nat.two_pow_pos f.fractionBits
  rw [Format.infinity, Format.signWeight, Nat.pow_add]
  exact Nat.mul_lt_mul_of_pos_right (by omega) positive

/-- What a magnitude below the infinity denotes, if its leading bit is set. -/
theorem datum_ofMagnitude {negative : Bool} {exponent m : Nat} (low : 2 ^ f.fractionBits ≤ m)
    (high : m < 2 ^ (f.fractionBits + 1))
    (small : exponent * 2 ^ f.fractionBits + m < f.infinity) :
    (ofMagnitude negative (exponent * 2 ^ f.fractionBits + m) : Floating f).datum =
      .finite negative m (f.minUnit + exponent) := by
  have within := Nat.lt_trans small infinity_lt_signWeight
  obtain ⟨fraction, rfl⟩ := Nat.exists_eq_add_of_le low
  rw [Nat.pow_succ] at high
  have split : exponent * 2 ^ f.fractionBits + (2 ^ f.fractionBits + fraction) =
      fraction + 2 ^ f.fractionBits * (exponent + 1) := by
    rw [Nat.mul_comm, Nat.mul_succ]
    omega
  have rest : fraction < 2 ^ f.fractionBits := by omega
  unfold datum
  dsimp only
  rw [isNaN, magnitude_ofMagnitude within, isNegative_ofMagnitude within,
    if_neg (by simpa using Nat.le_of_lt small), if_neg (Nat.ne_of_lt small), split,
    Nat.add_mul_div_left _ _ (Nat.two_pow_pos _), Nat.add_mul_mod_self_left,
    Nat.div_eq_of_lt rest, Nat.mod_eq_of_lt rest, Nat.zero_add, if_neg (Nat.succ_ne_zero exponent)]
  congr 1
  omega

theorem datum_zero (negative : Bool) (wide : 2 ≤ f.exponentBits) :
    (ofMagnitude negative 0 : Floating f).datum = .finite negative 0 f.minUnit := by
  have power := Nat.pow_le_pow_right (show 0 < 2 by decide) wide
  have positive : 0 < f.infinity :=
    Nat.mul_pos (by omega) (Nat.two_pow_pos f.fractionBits)
  have within := Nat.lt_trans positive infinity_lt_signWeight
  unfold datum
  dsimp only
  rw [isNaN, magnitude_ofMagnitude within, isNegative_ofMagnitude within, Nat.zero_div,
    Nat.zero_mod, if_neg (by simp), if_neg (Nat.ne_of_lt positive), if_pos rfl]

/-- A number whose word is finite and stands for a whole number under a sign. -/
def Denotes (x : Floating f) (negative : Bool) (n : Nat) : Prop :=
  ∃ m u, x.datum = .finite negative m u ∧ n * 2 ^ (-u).toNat = m * 2 ^ u.toNat

/-- A whole number that a format holds, written as a quotient, is not rounded. -/
theorem ofQuotient_denotes {n den : Nat} (h : f.Holds n) (hd : den ≠ 0)
    (small : n < 2 ^ 2 ^ (f.exponentBits - 1)) (wide : 2 ≤ f.exponentBits) (negative : Bool) :
    (ofQuotient negative (n * den) den : Floating f).Denotes negative n := by
  by_cases hn : n = 0
  · subst hn
    refine ⟨0, f.minUnit, ?_, by simp⟩
    rw [ofQuotient, Format.roundMagnitude, if_pos (Nat.zero_mul den), datum_zero negative wide]
  · obtain ⟨m, low, high, shifted, rounded⟩ := h.roundMagnitude_eq hn hd wide
    have lead : Nat.log2 n < 2 ^ (f.exponentBits - 1) := (Nat.log2_lt hn).2 small
    have twice : 2 ^ f.exponentBits = 2 * 2 ^ (f.exponentBits - 1) := by
      rw [← Nat.pow_succ']
      congr 1
      omega
    have normal : f.minNormal ≤ 0 := Format.minNormal_nonpos wide
    have unit : f.minUnit + (Nat.log2 n - f.minNormal).toNat = Nat.log2 n - f.fractionBits := by
      rw [Format.minUnit]
      omega
    have finite : (Nat.log2 n - f.minNormal).toNat * 2 ^ f.fractionBits + m < f.infinity := by
      have exponent : (Nat.log2 n - f.minNormal).toNat + 2 ≤ 2 ^ f.exponentBits - 1 := by
        have normal' := f.minNormal_eq
        omega
      have below := Nat.mul_le_mul_right (2 ^ f.fractionBits) exponent
      rw [Nat.add_mul] at below
      rw [Nat.pow_succ] at high
      rw [Format.infinity]
      omega
    refine ⟨m, Nat.log2 n - f.fractionBits, ?_, ?_⟩
    · rw [ofQuotient, rounded, Nat.min_eq_left (Nat.le_of_lt finite),
        datum_ofMagnitude low high finite, unit]
    · have down : (-((Nat.log2 n : Int) - f.fractionBits)).toNat =
          f.fractionBits - Nat.log2 n := by omega
      have up : ((Nat.log2 n : Int) - f.fractionBits).toNat = Nat.log2 n - f.fractionBits := by
        omega
      rw [down, up]
      exact shifted

theorem ofInt_denotes {n : Int} (h : f.Holds n.natAbs)
    (small : n.natAbs < 2 ^ 2 ^ (f.exponentBits - 1)) (wide : 2 ≤ f.exponentBits) :
    (ofInt n : Floating f).Denotes (n < 0) n.natAbs := by
  have rounded := ofQuotient_denotes h Nat.one_ne_zero small wide (n < 0)
  rwa [Nat.mul_one] at rounded

/-- Powers of two that two units and their sum leave on the two sides of an equation. -/
theorem exists_pow_add (u v : Int) : ∃ c, u.toNat + v.toNat = (u + v).toNat + c ∧
    (-u).toNat + (-v).toNat = (-(u + v)).toNat + c :=
  ⟨u.toNat + v.toNat - (u + v).toNat, by omega, by omega⟩

/-- A product that a format holds is not rounded. -/
theorem Denotes.mul {x y : Floating f} {s t : Bool} {m n : Nat} (hx : x.Denotes s m)
    (hy : y.Denotes t n) (h : f.Holds (m * n)) (small : m * n < 2 ^ 2 ^ (f.exponentBits - 1))
    (wide : 2 ≤ f.exponentBits) : (x.mul y).Denotes (s != t) (m * n) := by
  obtain ⟨a, u, datum, whole⟩ := hx
  obtain ⟨b, v, datum', whole'⟩ := hy
  obtain ⟨c, up, down⟩ := exists_pow_add u v
  have product : m * n * 2 ^ (-(u + v)).toNat = a * b * 2 ^ (u + v).toNat := by
    apply Nat.eq_of_mul_eq_mul_right (Nat.two_pow_pos c)
    calc m * n * 2 ^ (-(u + v)).toNat * 2 ^ c
        = m * 2 ^ (-u).toNat * (n * 2 ^ (-v).toNat) := by
          rw [Nat.mul_assoc, ← Nat.pow_add, ← down, Nat.pow_add, Nat.mul_mul_mul_comm]
      _ = a * 2 ^ u.toNat * (b * 2 ^ v.toNat) := by rw [whole, whole']
      _ = a * b * 2 ^ (u + v).toNat * 2 ^ c := by
          rw [Nat.mul_assoc (a * b), ← Nat.pow_add, ← up, Nat.pow_add, Nat.mul_mul_mul_comm]
  have den := Nat.ne_of_gt (Nat.two_pow_pos (-(u + v)).toNat)
  have rounded := ofQuotient_denotes h den small wide (s != t)
  rw [product] at rounded
  rw [Floating.mul, datum, datum']
  exact rounded

theorem exists_datum {x : Floating f} (h : x.isFinite = true) :
    ∃ negative m u, x.datum = .finite negative m u := by
  have small : x.magnitude < f.infinity := of_decide_eq_true h
  unfold datum
  dsimp only
  rw [isNaN, if_neg (by simpa using Nat.le_of_lt small), if_neg (Nat.ne_of_lt small)]
  split
  · exact ⟨_, _, _, rfl⟩
  · exact ⟨_, _, _, rfl⟩

/-- Zero times a finite number is zero, under some sign. -/
theorem Denotes.zero_mul {x y : Floating f} {s : Bool} (hx : x.Denotes s 0)
    (hy : y.isFinite = true) (wide : 2 ≤ f.exponentBits) : ∃ t, (x.mul y).Denotes t 0 := by
  obtain ⟨a, u, datum, none⟩ := hx
  obtain ⟨t, b, v, datum'⟩ := exists_datum hy
  have zero : a = 0 := by
    rw [Nat.zero_mul] at none
    exact (Nat.mul_eq_zero.1 none.symm).resolve_right (Nat.ne_of_gt (Nat.two_pow_pos _))
  subst zero
  refine ⟨s != t, 0, f.minUnit, ?_, by simp⟩
  rw [Floating.mul, datum, datum']
  show (ofQuotient _ (0 * b * 2 ^ (u + v).toNat) _ : Floating f).datum = _
  rw [Nat.zero_mul, Nat.zero_mul, ofQuotient, Format.roundMagnitude, if_pos rfl,
    datum_zero _ wide]

theorem Denotes.isFinite {x : Floating f} {negative : Bool} {n : Nat} (h : x.Denotes negative n) :
    x.isFinite = true := by
  obtain ⟨m, u, datum, -⟩ := h
  unfold Floating.datum at datum
  dsimp only at datum
  split at datum
  · cases datum
  · next number =>
    split at datum
    · cases datum
    · next other =>
      simp [isNaN] at number
      simp [Floating.isFinite]
      omega

theorem Denotes.toInt? {x : Floating f} {negative : Bool} {n : Nat} (h : x.Denotes negative n) :
    x.toInt? = some (signed negative n) := by
  obtain ⟨m, u, datum, whole⟩ := h
  have nearest : nearestWhole m u = n := by
    unfold nearestWhole
    split
    · next up =>
      rw [show (-u).toNat = 0 by omega, Nat.pow_zero, Nat.mul_one] at whole
      exact whole.symm
    · next down =>
      rw [show u.toNat = 0 by omega, Nat.pow_zero, Nat.mul_one] at whole
      have positive := Nat.two_pow_pos (-u).toNat
      generalize 2 ^ (-u).toNat = p at *
      have half : 2 * m + p = p + 2 * p * n := by
        rw [← whole, Nat.mul_right_comm, Nat.mul_assoc, Nat.add_comm]
      rw [half, Nat.add_mul_div_left _ _ (by omega), Nat.div_eq_of_lt (by omega), Nat.zero_add]
  rw [Floating.toInt?, datum]
  dsimp only
  rw [nearest]

theorem mantissa_lt {x : Floating f} {negative : Bool} {m : Nat} {u : Int}
    (h : x.datum = .finite negative m u) : m < 2 ^ (f.fractionBits + 1) := by
  have fraction := Nat.mod_lt x.magnitude (Nat.two_pow_pos f.fractionBits)
  rw [Nat.pow_succ]
  unfold datum at h
  dsimp only at h
  split at h
  · cases h
  · split at h
    · cases h
    · split at h <;> cases h <;> omega

/-- A whole number that comes back from a format is one that the format holds. -/
theorem holds_of_toInt? {x : Floating f} {i : Int} (h : x.toInt? = some i) : f.Holds i.natAbs := by
  unfold toInt? at h
  split at h
  · next negative m u datum =>
    cases h
    have small := mantissa_lt datum
    have size : (signed negative (nearestWhole m u)).natAbs = nearestWhole m u := by
      unfold signed
      split <;> omega
    rw [size]
    unfold nearestWhole
    split
    · exact ⟨m, u.toNat, small, rfl⟩
    · apply Format.holds_of_le
      have positive := Nat.two_pow_pos (-u).toNat
      generalize 2 ^ (-u).toNat = p at *
      have below : (2 * m + p) / (2 * p) < m + 1 := by
        rw [Nat.div_lt_iff_lt_mul (by omega), Nat.add_mul]
        have := Nat.mul_le_mul_left m (show 2 ≤ 2 * p by omega)
        omega
      omega
  · cases h

end Floating

end ResultSink
