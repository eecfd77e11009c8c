import ResultSink.Value.Text

/-! The texts of decimals. A decimal is written as a sign, a whole part and as many digits behind the
point as its scale says. The digits make up the unscaled value, so that a decimal can be told from
its text. -/

namespace ResultSink

namespace Text

/-! ### Digits -/

/-- Only zero is written with a zero in front. -/
theorem eq_zero_of_head?_toDigits {n : Nat} (h : (Nat.toDigits 10 n).head? = some '0') :
    n = 0 := by
  induction n using Nat.strongRecOn with
  | ind n ih =>
    rcases Nat.lt_or_ge n 10 with small | large
    · rw [Nat.toDigits_of_lt_base small, List.head?_cons, Option.some.injEq] at h
      have value := Nat.toNat_digitChar_of_lt_ten small
      rw [h] at value
      have zero : '0'.toNat = 48 := rfl
      omega
    · have filled : Nat.toDigits 10 (n / 10) ≠ [] := Nat.toDigits_ne_nil
      obtain ⟨c, cs, front⟩ := List.exists_cons_of_ne_nil filled
      rw [Nat.toDigits_of_base_le (by decide) large, front, List.cons_append, List.head?_cons] at h
      have quotient := ih (n / 10) (by omega) (by rw [front, List.head?_cons, h])
      omega

theorem isDigit_of_mem_padded {width n : Nat} {c : Char} (hc : c ∈ (padded width n).toList) :
    c.isDigit = true := by
  rw [padded, String.toList_ofList, List.mem_append] at hc
  rcases hc with fill | digit
  · rw [List.eq_of_mem_replicate fill]
    rfl
  · exact Nat.isDigit_of_mem_toDigits (by decide) (by decide) digit

theorem length_padded {width n : Nat} (positive : 0 < width) (fits : n < 10 ^ width) :
    (padded width n).toList.length = width := by
  have short : (Nat.toDigits 10 n).length ≤ width :=
    (Nat.length_toDigits_le_iff (by decide) positive).2 fits
  rw [padded, String.toList_ofList, List.length_append, List.length_replicate]
  omega

/-- Zeros in front do not change what digits make up. -/
theorem ofDigitChars_padded (width n : Nat) :
    Nat.ofDigitChars 10 (padded width n).toList 0 = n := by
  rw [padded, String.toList_ofList, Nat.ofDigitChars_append, Nat.ofDigitChars_replicate_zero,
    Nat.mul_zero, Nat.ofDigitChars_ten_toDigits]

/-! ### Digits with a point -/

/-- A number in digits, some of them behind a point. There is a digit before the point, and no zero
in front of it. -/
structure Positional where
  negative : Bool
  whole : List Char
  fraction : List Char
  digits : ∀ c ∈ whole ++ fraction, c.isDigit = true
  filled : whole ≠ []
  tight : whole.head? = some '0' → whole = ['0']

namespace Positional

/-- The point and the digits behind it, if there are any. -/
def tail (p : Positional) : List Char :=
  if p.fraction.isEmpty then [] else '.' :: p.fraction

/-- The characters that are written. -/
def chars (p : Positional) : List Char :=
  (if p.negative then ['-'] else []) ++ (p.whole ++ p.tail)

/-- The number that the digits make up without the point. -/
def number (p : Positional) : Nat := Nat.ofDigitChars 10 (p.whole ++ p.fraction) 0

variable {p q : Positional}

theorem isDigit_whole {c : Char} (h : c ∈ p.whole) : c.isDigit = true :=
  p.digits c (List.mem_append_left _ h)

theorem isDigit_fraction {c : Char} (h : c ∈ p.fraction) : c.isDigit = true :=
  p.digits c (List.mem_append_right _ h)

/-- The sign is told from a digit. -/
theorem head?_chars : p.chars.head? = some '-' ↔ p.negative = true := by
  obtain ⟨c, cs, front⟩ := List.exists_cons_of_ne_nil p.filled
  have digit : c.isDigit = true := isDigit_whole (by rw [front]; exact List.mem_cons_self)
  have other : c ≠ '-' := by
    rintro rfl
    exact absurd digit (by decide)
  unfold chars
  cases p.negative with
  | true => simp
  | false => simp [front, other]

/-- What is left of the characters without the sign and the point are the digits. -/
theorem filter_chars :
    (p.chars.filter fun c => c ≠ '-' ∧ c ≠ '.') = p.whole ++ p.fraction := by
  have kept {cs : List Char} (digits : ∀ c ∈ cs, c.isDigit = true) :
      (cs.filter fun c => c ≠ '-' ∧ c ≠ '.') = cs := by
    rw [List.filter_eq_self]
    intro c hc
    have digit := digits c hc
    rw [decide_eq_true_eq]
    constructor <;> rintro rfl <;> exact absurd digit (by decide)
  have sign : ((if p.negative then ['-'] else []).filter fun c => c ≠ '-' ∧ c ≠ '.') = [] := by
    cases p.negative <;> rfl
  have point : (p.tail.filter fun c => c ≠ '-' ∧ c ≠ '.') = p.fraction := by
    unfold tail
    cases none : p.fraction.isEmpty with
    | true => simp [List.isEmpty_iff.1 none]
    | false =>
      rw [if_neg Bool.false_ne_true, List.filter_cons_of_neg (by decide), kept]
      exact fun c => isDigit_fraction
  rw [chars, List.filter_append, List.filter_append, sign, point, kept fun c => isDigit_whole,
    List.nil_append]

theorem readNat?_digits : readNat? (p.whole ++ p.fraction) = some p.number := by
  have filled : (p.whole ++ p.fraction).isEmpty = false := by
    rw [List.isEmpty_eq_false_iff]
    exact List.append_ne_nil_of_left_ne_nil p.filled _
  have digits : (p.whole ++ p.fraction).all Char.isDigit = true := List.all_eq_true.2 p.digits
  simp [readNat?, filled, digits, number]

/-- The digits before the point end at the point. -/
theorem takeWhile_whole : (p.whole ++ p.tail).takeWhile Char.isDigit = p.whole := by
  have stop : p.tail.takeWhile Char.isDigit = [] := by
    unfold tail
    cases p.fraction.isEmpty <;> rfl
  rw [List.takeWhile_append_of_pos fun c => isDigit_whole, stop, List.append_nil]

/-- A number in digits is told from its characters. -/
theorem chars_inj (same : p.chars = q.chars) :
    p.negative = q.negative ∧ p.whole = q.whole ∧ p.fraction = q.fraction := by
  have signs : p.negative = q.negative := by
    rw [Bool.eq_iff_iff, ← head?_chars, ← head?_chars, same]
  have rest : p.whole ++ p.tail = q.whole ++ q.tail := by
    unfold chars at same
    rw [signs] at same
    exact List.append_cancel_left same
  have wholes : p.whole = q.whole := by
    rw [← p.takeWhile_whole, rest, q.takeWhile_whole]
  refine ⟨signs, wholes, ?_⟩
  have digits : p.whole ++ p.fraction = q.whole ++ q.fraction := by
    rw [← filter_chars, same, filter_chars]
  rw [wholes] at digits
  exact List.append_cancel_left digits

end Positional

end Text

/-! ### Decimals -/

/-- The digits of `unscaled / 10 ^ scale`. -/
def decimalDigits (unscaled : Int) (scale : Nat) : Text.Positional where
  negative := unscaled < 0
  whole := Nat.toDigits 10 (unscaled.natAbs / 10 ^ scale)
  fraction := if scale = 0 then [] else (Text.padded scale (unscaled.natAbs % 10 ^ scale)).toList
  digits := by
    intro c hc
    rcases List.mem_append.1 hc with whole | fraction
    · exact Nat.isDigit_of_mem_toDigits (by decide) (by decide) whole
    · split at fraction
      · cases fraction
      · exact Text.isDigit_of_mem_padded fraction
  filled := Nat.toDigits_ne_nil
  tight := by
    intro zero
    rw [Text.eq_zero_of_head?_toDigits zero, Nat.toDigits_zero]

variable {n : Int} {scale : Nat}

theorem length_fraction (n : Int) (scale : Nat) :
    (decimalDigits n scale).fraction.length = scale := by
  unfold decimalDigits
  dsimp only
  split
  · next none => exact none.symm
  · next some =>
    apply Text.length_padded (Nat.pos_of_ne_zero some)
    exact Nat.mod_lt _ (Nat.pow_pos (by decide))

/-- The digits of both parts make up the unscaled value. -/
theorem number_decimalDigits (n : Int) (scale : Nat) :
    (decimalDigits n scale).number = n.natAbs := by
  have places := length_fraction n scale
  have fraction : Nat.ofDigitChars 10 (decimalDigits n scale).fraction 0 =
      n.natAbs % 10 ^ scale := by
    unfold decimalDigits
    dsimp only
    split
    · next none => rw [none, Nat.pow_zero, Nat.mod_one, Nat.ofDigitChars_nil]
    · exact Text.ofDigitChars_padded _ _
  rw [Text.Positional.number, Nat.ofDigitChars_append, Nat.ofDigitChars_eq_ofDigitChars_zero,
    places, fraction]
  unfold decimalDigits
  dsimp only
  rw [Nat.ofDigitChars_ten_toDigits, Nat.div_add_mod]

theorem tail_decimalDigits (some : scale ≠ 0) :
    (decimalDigits n scale).tail =
      '.' :: (Text.padded scale (n.natAbs % 10 ^ scale)).toList := by
  have filled : (decimalDigits n scale).fraction.isEmpty = false := by
    rw [List.isEmpty_eq_false_iff, ← List.length_pos_iff, length_fraction]
    exact Nat.pos_of_ne_zero some
  rw [Text.Positional.tail, filled, if_neg Bool.false_ne_true]
  unfold decimalDigits
  dsimp only
  rw [if_neg some]

/-- A quotient that is cut off toward zero shows the sign itself, unless nothing is left of it. -/
theorem toList_signed_tdiv (n : Int) {d : Int} (positive : 0 ≤ d) :
    ((if n < 0 ∧ n.tdiv d = 0 then "-" else "") ++ Text.ofInt (n.tdiv d)).toList =
      (if n < 0 then ['-'] else []) ++ Nat.toDigits 10 (n.natAbs / d.natAbs) := by
  have size : (n.tdiv d).natAbs = n.natAbs / d.natAbs := Int.natAbs_tdiv n d
  rw [String.toList_append, Text.toList_ofInt, size]
  by_cases negative : n < 0
  · have mirrored := Int.tdiv_nonneg (Int.neg_nonneg_of_nonpos (Int.le_of_lt negative)) positive
    rw [Int.neg_tdiv] at mirrored
    by_cases zero : n.tdiv d = 0
    · simp [negative, zero]
    · have less : n.tdiv d < 0 := by omega
      simp [negative, zero, less]
  · have above := Int.tdiv_nonneg (Int.not_lt.1 negative) positive
    simp [negative, Int.not_lt.2 above]

/-- A 128-bit number has no digit left before 39 places or more. -/
theorem natAbs_lt_pow (n : Int128) (large : maxDecimalScale < scale) :
    n.toInt.natAbs < 10 ^ scale := by
  have lower := n.lower
  have upper := n.upper
  have power : 10 ^ 39 ≤ 10 ^ scale := Nat.pow_le_pow_right (by decide) large
  omega

/-- Each of the three forms that a decimal is written in shows its digits. -/
theorem toList_decimalText (n : Int128) (scale : Nat) :
    (decimalText n.toInt scale).toList = (decimalDigits n.toInt scale).chars := by
  have sign : (decimalDigits n.toInt scale).negative = decide (n.toInt < 0) := rfl
  have whole : (decimalDigits n.toInt scale).whole =
      Nat.toDigits 10 (n.toInt.natAbs / 10 ^ scale) := rfl
  have inserted (s : String) : toString s = s := rfl
  unfold decimalText
  by_cases none : scale = 0
  · subst none
    rw [if_pos rfl, Text.toList_ofInt, Text.Positional.chars, Text.Positional.tail, sign, whole]
    by_cases negative : n.toInt < 0 <;> simp [negative, decimalDigits]
  · rw [if_neg none, Text.Positional.chars, tail_decimalDigits none, sign, whole]
    by_cases small : scale ≤ maxDecimalScale
    · have positive : (0 : Int) ≤ 10 ^ scale := Int.pow_nonneg (by decide)
      have power : (10 ^ scale : Int).natAbs = 10 ^ scale := by
        rw [Int.natAbs_pow]
        rfl
      have front := toList_signed_tdiv n.toInt positive
      rw [power] at front
      rw [if_pos small]
      simp only [inserted, String.toList_append] at front ⊢
      rw [front, Int.natAbs_tmod, power]
      simp
    · have less := natAbs_lt_pow n (Nat.lt_of_not_le small)
      rw [if_neg small, Nat.mod_eq_of_lt less, Nat.div_eq_of_lt less, Nat.toDigits_zero]
      by_cases negative : n.toInt < 0 <;> simp [inserted, negative]

namespace Value

/-- The text of a decimal is its sign, if it is negative, a whole part without needless zeros and, if
it has a scale, a point and a digit for each place. All its digits make up the unscaled value, and
no other decimal has the same text. -/
theorem decimal_text_exact (n : Int128) (scale : UInt8) :
    let cs := (decimal n scale).text.toList
    (∃ p : Text.Positional, cs = p.chars ∧ p.fraction.length = scale.toNat) ∧
      (cs.head? = some '-' ↔ n.toInt < 0) ∧
      Text.readNat? (cs.filter fun c => c ≠ '-' ∧ c ≠ '.') = some n.toInt.natAbs ∧
      ∀ m places, (decimal m places).text = (decimal n scale).text ↔ m = n ∧ places = scale := by
  intro cs
  have written : cs = (decimalDigits n.toInt scale.toNat).chars := toList_decimalText n scale.toNat
  refine ⟨⟨_, written, length_fraction _ _⟩, ?_, ?_, fun m places => ⟨fun same => ?_, ?_⟩⟩
  · rw [written, Text.Positional.head?_chars]
    exact decide_eq_true_iff
  · rw [written, Text.Positional.filter_chars, Text.Positional.readNat?_digits,
      number_decimalDigits]
  · -- The sign, the digits and their places are told from the text.
    have chars : (decimalDigits m.toInt places.toNat).chars =
        (decimalDigits n.toInt scale.toNat).chars := by
      rw [← toList_decimalText, ← toList_decimalText]
      exact congrArg String.toList same
    obtain ⟨signs, wholes, fractions⟩ := Text.Positional.chars_inj chars
    have sign : m.toInt < 0 ↔ n.toInt < 0 := decide_eq_decide.1 signs
    have size : m.toInt.natAbs = n.toInt.natAbs := by
      rw [← number_decimalDigits m.toInt places.toNat, Text.Positional.number, wholes, fractions]
      exact number_decimalDigits n.toInt scale.toNat
    have length : places.toNat = scale.toNat := by
      rw [← length_fraction m.toInt places.toNat, fractions, length_fraction]
    exact ⟨Int128.ext (by omega), UInt8.toNat_inj.1 length⟩
  · rintro ⟨rfl, rfl⟩
    rfl

/-- The least unscaled value with its 39 digits behind the point. -/
example : (decimal { toInt := -2 ^ 127 } 39).text = "-0.170141183460469231731687303715884105728" := by
  decide +kernel

end Value

end ResultSink
