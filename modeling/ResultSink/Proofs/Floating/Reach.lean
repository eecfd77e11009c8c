import ResultSink.Proofs.Floating.Whole

/-! Numbers that reach a power of two. Rounding never takes a quotient below a power of two that it
had reached, and beyond the greatest finite number it goes on to the infinity; so a product of two
numbers reaches what their powers multiply to, and so does the whole number nearest to it. -/

namespace ResultSink

theorem le_divToEven (num den : Nat) : num / den ≤ divToEven num den := by
  unfold divToEven
  dsimp only
  split
  · exact Nat.le_refl _
  · split
    · exact Nat.le_succ _
    · exact Nat.le_add_right _ _

/-- The leading binary digit of a quotient that reaches a power of two. -/
theorem exists_floorLog2 {num den k : Nat} (hd : den ≠ 0) (h : 2 ^ k * den ≤ num) :
    ∃ l : Nat, floorLog2 num den = l ∧ k ≤ l ∧ 2 ^ l * den ≤ num := by
  have positive : 0 < 2 ^ k * den := Nat.mul_pos (Nat.two_pow_pos k) (Nat.pos_of_ne_zero hd)
  have hn : num ≠ 0 := by omega
  have sum : k + Nat.log2 den ≤ Nat.log2 num := by
    rw [Nat.le_log2 hn, Nat.pow_add]
    exact Nat.le_trans (Nat.mul_le_mul_left _ (Nat.log2_self_le hd)) h
  obtain ⟨e, difference⟩ := Nat.exists_eq_add_of_le (Nat.le_of_add_left_le sum)
  have exponent : (Nat.log2 num : Int) - Nat.log2 den = e := by omega
  unfold floorLog2
  dsimp only
  rw [exponent, Int.toNat_natCast, Int.toNat_neg_natCast, Nat.pow_zero, Nat.mul_one,
    Nat.mul_comm den]
  by_cases within : 2 ^ e * den ≤ num
  · rw [if_pos within]
    exact ⟨e, rfl, by omega, within⟩
  · -- The difference of the logarithms is one too many, and the power below it is reached.
    have more : k ≠ e := by
      rintro rfl
      exact within h
    obtain ⟨l, rfl⟩ : ∃ l, e = l + 1 := ⟨e - 1, by omega⟩
    rw [if_neg within]
    refine ⟨l, by omega, by omega, ?_⟩
    calc 2 ^ l * den ≤ 2 ^ l * 2 ^ (Nat.log2 den + 1) :=
          Nat.mul_le_mul_left _ (Nat.le_of_lt Nat.lt_log2_self)
      _ = 2 ^ Nat.log2 num := by
          rw [← Nat.pow_add]
          congr 1
          omega
      _ ≤ num := Nat.log2_self_le hn

namespace Format

variable {f : Format} {num den k : Nat}

/-- A quotient that reaches a power of two is rounded to the word of that power or beyond. -/
theorem le_roundMagnitude (hd : den ≠ 0) (h : 2 ^ k * den ≤ num) (wide : 2 ≤ f.exponentBits) :
    min (((k : Int) - f.minNormal).toNat * 2 ^ f.fractionBits + 2 ^ f.fractionBits) f.infinity ≤
      f.roundMagnitude num den := by
  obtain ⟨l, leading, reached, below⟩ := exists_floorLog2 hd h
  have positive : 0 < 2 ^ l * den := Nat.mul_pos (Nat.two_pow_pos l) (Nat.pos_of_ne_zero hd)
  have normal := f.minNormal_nonpos wide
  have top : max (l : Int) f.minNormal = l := by omega
  have down : (-((l : Int) - f.fractionBits)).toNat = f.fractionBits - l := by omega
  have up : ((l : Int) - f.fractionBits).toNat = l - f.fractionBits := by omega
  -- The mantissa has its leading bit, as the quotient reaches the leading power.
  have mantissa : 2 ^ f.fractionBits ≤
      divToEven (num * 2 ^ (f.fractionBits - l)) (den * 2 ^ (l - f.fractionBits)) := by
    refine Nat.le_trans ?_ (le_divToEven _ _)
    rw [Nat.le_div_iff_mul_le
      (Nat.mul_pos (Nat.pos_of_ne_zero hd) (Nat.two_pow_pos (l - f.fractionBits)))]
    calc 2 ^ f.fractionBits * (den * 2 ^ (l - f.fractionBits))
        = 2 ^ (f.fractionBits + (l - f.fractionBits)) * den := by
          rw [Nat.pow_add, Nat.mul_comm den, Nat.mul_assoc]
      _ = 2 ^ (l + (f.fractionBits - l)) * den := by
          congr 2
          omega
      _ = 2 ^ l * den * 2 ^ (f.fractionBits - l) := by
          rw [Nat.pow_add, Nat.mul_right_comm]
      _ ≤ num * 2 ^ (f.fractionBits - l) := Nat.mul_le_mul_right _ below
  have exponent : ((k : Int) - f.minNormal).toNat ≤ ((l : Int) - f.minNormal).toNat := by omega
  have lead := Nat.mul_le_mul_right (2 ^ f.fractionBits) exponent
  unfold roundMagnitude
  rw [if_neg (by omega), leading, top]
  dsimp only
  rw [down, up]
  omega

theorem roundMagnitude_le : f.roundMagnitude num den ≤ f.infinity := by
  unfold roundMagnitude
  split
  · exact Nat.zero_le _
  · exact Nat.min_le_right _ _

end Format

namespace Floating

variable {f : Format} {x y : Floating f} {s t : Bool} {j k : Nat}

/-- A word reaches a power of two: it is an infinity, or stands for a number of that magnitude at
least. -/
def Reaches (x : Floating f) (negative : Bool) (k : Nat) : Prop :=
  x.datum = .infinite negative ∨
    ∃ m u, x.datum = .finite negative m u ∧ 2 ^ k * 2 ^ (-u).toNat ≤ m * 2 ^ u.toNat

theorem datum_infinity : (ofMagnitude s f.infinity : Floating f).datum = .infinite s := by
  have within := infinity_lt_signWeight (f := f)
  unfold datum
  dsimp only
  rw [isNaN, magnitude_ofMagnitude within, isNegative_ofMagnitude within, if_neg (by simp),
    if_pos rfl]

/-- A magnitude from the word of a power of two on reaches the power. -/
theorem reaches_ofMagnitude {n : Nat}
    (large : min (((k : Int) - f.minNormal).toNat * 2 ^ f.fractionBits + 2 ^ f.fractionBits)
      f.infinity ≤ n) (small : n ≤ f.infinity) (wide : 2 ≤ f.exponentBits) :
    (ofMagnitude s n : Floating f).Reaches s k := by
  rcases Nat.lt_or_eq_of_le small with finite | rfl
  · have within := Nat.lt_trans finite infinity_lt_signWeight
    have normal := f.minNormal_nonpos wide
    have exponent : ((k : Int) - f.minNormal).toNat + 1 ≤ n / 2 ^ f.fractionBits := by
      rw [Nat.le_div_iff_mul_le (Nat.two_pow_pos _), Nat.add_mul, Nat.one_mul]
      omega
    right
    unfold datum
    dsimp only
    rw [isNaN, magnitude_ofMagnitude within, isNegative_ofMagnitude within,
      if_neg (by simpa using small), if_neg (Nat.ne_of_lt finite), if_neg (by omega)]
    refine ⟨_, _, rfl, ?_⟩
    generalize n / 2 ^ f.fractionBits = e at *
    generalize unit : f.minUnit + ((e : Int) - 1) = u
    have high : k + (-u).toNat ≤ f.fractionBits + u.toNat := by
      rw [Format.minUnit] at unit
      omega
    calc 2 ^ k * 2 ^ (-u).toNat = 2 ^ (k + (-u).toNat) := by rw [Nat.pow_add]
      _ ≤ 2 ^ (f.fractionBits + u.toNat) := Nat.pow_le_pow_right (by decide) high
      _ = 2 ^ f.fractionBits * 2 ^ u.toNat := Nat.pow_add _ _ _
      _ ≤ (2 ^ f.fractionBits + n % 2 ^ f.fractionBits) * 2 ^ u.toNat :=
          Nat.mul_le_mul_right _ (Nat.le_add_right _ _)
  · exact .inl datum_infinity

theorem reaches_ofQuotient {num den : Nat} (hd : den ≠ 0) (h : 2 ^ k * den ≤ num)
    (wide : 2 ≤ f.exponentBits) : (ofQuotient s num den : Floating f).Reaches s k :=
  reaches_ofMagnitude (f.le_roundMagnitude hd h wide) Format.roundMagnitude_le wide

theorem Reaches.datum_eq (h : x.Reaches s k) (finite : x.isFinite = true) :
    ∃ m u, x.datum = .finite s m u ∧ 2 ^ k * 2 ^ (-u).toNat ≤ m * 2 ^ u.toNat := by
  obtain ⟨negative, m, u, number⟩ := exists_datum finite
  refine h.resolve_left fun infinite => ?_
  rw [number] at infinite
  cases infinite

/-- The product of two numbers reaches the product of their powers. -/
theorem Reaches.mul (hx : x.Reaches s j) (finite : x.isFinite = true) (hy : y.Reaches t k)
    (finite' : y.isFinite = true) (wide : 2 ≤ f.exponentBits) :
    (x.mul y).Reaches (s != t) (j + k) := by
  obtain ⟨m, u, number, reached⟩ := hx.datum_eq finite
  obtain ⟨n, v, number', reached'⟩ := hy.datum_eq finite'
  obtain ⟨c, up, down⟩ := exists_pow_add u v
  have product : 2 ^ (j + k) * 2 ^ (-(u + v)).toNat ≤ m * n * 2 ^ (u + v).toNat := by
    apply Nat.le_of_mul_le_mul_right _ (Nat.two_pow_pos c)
    calc 2 ^ (j + k) * 2 ^ (-(u + v)).toNat * 2 ^ c
        = 2 ^ j * 2 ^ (-u).toNat * (2 ^ k * 2 ^ (-v).toNat) := by
          rw [Nat.mul_assoc, ← Nat.pow_add, ← down, Nat.pow_add, Nat.pow_add,
            Nat.mul_mul_mul_comm]
      _ ≤ m * 2 ^ u.toNat * (n * 2 ^ v.toNat) := Nat.mul_le_mul reached reached'
      _ = m * n * 2 ^ (u + v).toNat * 2 ^ c := by
          rw [Nat.mul_assoc (m * n), ← Nat.pow_add, ← up, Nat.pow_add, Nat.mul_mul_mul_comm]
  rw [Floating.mul, number, number']
  exact reaches_ofQuotient (Nat.ne_of_gt (Nat.two_pow_pos _)) product wide

/-- The nearest whole number is no less than a whole number below. -/
theorem le_nearestWhole {n m : Nat} {u : Int} (h : n * 2 ^ (-u).toNat ≤ m * 2 ^ u.toNat) :
    n ≤ nearestWhole m u := by
  unfold nearestWhole
  split
  · next up =>
    rw [show (-u).toNat = 0 by omega, Nat.pow_zero, Nat.mul_one] at h
    exact h
  · next down =>
    rw [show u.toNat = 0 by omega, Nat.pow_zero, Nat.mul_one] at h
    have positive := Nat.two_pow_pos (-u).toNat
    generalize 2 ^ (-u).toNat = p at *
    rw [Nat.le_div_iff_mul_le (by omega)]
    calc n * (2 * p) = 2 * (n * p) := Nat.mul_left_comm n 2 p
      _ ≤ 2 * m + p := by omega

theorem isNegative_of_datum (h : x.datum = .infinite s) : x.isNegative = s := by
  unfold datum at h
  dsimp only at h
  split at h
  · cases h
  · split at h
    · cases h
      rfl
    · split at h <;> cases h

end Floating

end ResultSink
