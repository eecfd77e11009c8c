import Mathlib.Data.List.TakeWhile
import ResultSink.Proofs.Floating.Whole
import ResultSink.Proofs.Value.Rounding

/-! A text that names a whole number, on its way into a decimal type. It goes through a double and
a product of doubles, and the number itself through an exact product; the two meet where a double
holds the product. -/

namespace ResultSink

namespace Text

/-! ### Texts of whole numbers -/

theorem toLower_of_isDigit {c : Char} (h : c.isDigit = true) : c.toLower = c := by
  have range : 48 ≤ c.toNat ∧ c.toNat ≤ 57 := by
    simpa [Char.isDigit, UInt32.le_iff_toNat_le] using h
  refine dif_neg fun upper => ?_
  have above : 65 ≤ c.toNat := UInt32.le_iff_toNat_le.1 upper.1
  omega

/-- Digits and nothing else are read as a numeral without an exponent. -/
theorem readUnsigned?_of_readNat? {cs : List Char} {n : Nat} (h : readNat? cs = some n)
    (negative : Bool) : readUnsigned? negative cs = some (.finite negative n 0) := by
  unfold readNat? at h
  split at h
  · cases h
  · next filled =>
    split at h
    · next all =>
      cases h
      have digits : ∀ c ∈ cs, c.isDigit = true := List.all_eq_true.1 all
      have word : cs.map Char.toLower = cs :=
        (List.map_congr_left fun c hc => toLower_of_isDigit (digits c hc)).trans (List.map_id cs)
      have notNan : cs ≠ "nan".toList := by
        rintro rfl
        exact absurd (digits 'n' (by decide)) (by decide)
      have notInfinite : ¬infinityWords.contains cs = true := by
        rw [List.contains_iff_mem]
        intro there
        have letter : 'i' ∈ cs := by
          rcases List.mem_pair.1 there with rfl | rfl <;> decide
        exact absurd (digits 'i' letter) (by decide)
      have whole : cs.takeWhile Char.isDigit = cs := List.takeWhile_eq_self_iff.2 digits
      have rest : cs.dropWhile Char.isDigit = [] := List.dropWhile_eq_nil_iff.2 digits
      have magnitude : readMagnitude? cs = some (Nat.ofDigitChars 10 cs 0, 0) := by
        simp [readMagnitude?, whole, rest, filled, readExponent?]
      unfold readUnsigned?
      dsimp only
      rw [word, if_neg notNan, if_neg notInfinite, magnitude, Option.map_some]
    · cases h

/-- A whole number is read as the numeral of its sign and its digits. -/
theorem readNumeral?_of_readInt? {cs : List Char} {n : Int} (h : readInt? cs = some n) :
    ∃ negative digits, readNumeral? cs = some (.finite negative digits 0) ∧
      Floating.signed negative digits = n := by
  have unsigned {cs : List Char} (negative : Bool)
      (h : ((readNat? cs).map fun (n : Nat) => Floating.signed negative n) = some n) :
      ∃ digits, readUnsigned? negative cs = some (.finite negative digits 0) ∧
        Floating.signed negative digits = n := by
    obtain ⟨digits, read, same⟩ := Option.map_eq_some_iff.1 h
    exact ⟨digits, readUnsigned?_of_readNat? read negative, same⟩
  unfold readInt? at h
  split at h
  · obtain ⟨digits, read⟩ := unsigned true h
    exact ⟨true, digits, read⟩
  · obtain ⟨digits, read⟩ := unsigned false h
    exact ⟨false, digits, read⟩
  · next minus plus =>
    obtain ⟨digits, read, same⟩ := unsigned false h
    refine ⟨false, digits, ?_, same⟩
    unfold readNumeral?
    split
    · exact absurd rfl (minus _)
    · exact absurd rfl (plus _)
    · exact read

end Text

namespace Floating

/-- Digits without an exponent are rounded like the whole number they stand for. -/
theorem ofDecimal_denotes {n : Nat} (h : Format.double.Holds n) (small : n < 2 ^ 127)
    (negative : Bool) : (ofDecimal negative n 0 : Double).Denotes negative n := by
  have wide : 2 ≤ Format.double.exponentBits := by decide
  -- The bound of the format is compared by its exponent, and never computed.
  have range : n < 2 ^ 2 ^ (Format.double.exponentBits - 1) :=
    Nat.lt_trans small (Nat.pow_lt_pow_right (by decide) (by decide))
  by_cases hn : n = 0
  · subst hn
    exact ⟨0, Format.double.minUnit, datum_zero negative wide, by simp⟩
  · have short : (Nat.toDigits 10 n).length ≤ 39 :=
      (Nat.length_toDigits_le_iff (by decide) (by decide)).2 (by omega)
    have reach : decimalReach Format.double = 1024 := by decide
    have rounded := ofQuotient_denotes h Nat.one_ne_zero range wide negative
    unfold ofDecimal
    dsimp only
    rw [reach, if_neg (by omega), if_neg (by omega)]
    exact rounded

end Floating

/-- A text of a whole number stands for the same number as a double, if a double holds it. -/
theorem readDouble?_of_readWhole? {s : String} {n : Int} (h : readWhole? s = some n)
    (held : Format.double.Holds n.natAbs) (small : n.natAbs < 2 ^ 127) :
    ∃ x negative, readDouble? s = some x ∧ x.Denotes negative n.natAbs ∧
      Floating.signed negative n.natAbs = n := by
  obtain ⟨negative, digits, read, signed⟩ := Text.readNumeral?_of_readInt? h
  have size : digits = n.natAbs := by
    rw [← signed]
    unfold Floating.signed
    split <;> omega
  subst size
  refine ⟨_, negative, ?_, Floating.ofDecimal_denotes held small negative, signed⟩
  rw [readDouble?, read]
  rfl

theorem Int128.clamp_eq {n : Int} (lower : -2 ^ 127 ≤ n) (upper : n < 2 ^ 127) :
    clamp n = ⟨n, lower, upper⟩ := by
  rw [clamp, dif_neg (Int.not_lt.2 lower), dif_neg (Int.not_le.2 upper)]

namespace Value

/-! ### Decimals of texts and of whole numbers -/

/-- A cast is refused, which is not to say that it overflows. -/
def Refused (answer : CastResult) : Prop := ∃ e, answer = .error (.refused e)

/-- Two casts agree: both are refused, or both give one value. -/
def Agree (a b : CastResult) : Prop := Refused a ∧ Refused b ∨ ∃ w, a = .ok w ∧ b = .ok w

variable {s : String} {n : Int64} {v v' : Value} {places : Nat}

/-- A text that is cast to a 64-bit integer is read as that number. -/
theorem readWhole?_of_cast (h : (string s).cast .bigInt = .ok (.bigInt n)) :
    readWhole? s = some n.toInt := by
  have whole : (string s).castWhole "bigint" (fun n => some (.bigInt n)) = .ok (.bigInt n) := h
  unfold castWhole at whole
  rw [toInt64?] at whole
  cases found : (readWhole? s).bind int64? with
  | none =>
    rw [found] at whole
    cases whole
  | some i =>
    rw [found] at whole
    cases whole
    obtain ⟨m, read, held⟩ := Option.bind_eq_some_iff.1 found
    rw [read, int64?_eq_some_iff.1 held]

theorem castDecimal_agree {precision : Option UInt8} {own : UInt8}
    (h : own.toNat ≤ maxDecimalScale → ∃ found, v.unscaledAt own.toNat = .ok found ∧
      v'.unscaledAt own.toNat = .ok found) :
    Agree (v.castDecimal precision own) (v'.castDecimal precision own) := by
  unfold castDecimal
  split
  · exact .inl ⟨⟨_, rfl⟩, ⟨_, rfl⟩⟩
  · next small =>
    obtain ⟨found, left, right⟩ := h (Nat.le_of_not_lt small)
    rw [left, right]
    cases found with
    | none => exact .inl ⟨⟨_, rfl⟩, ⟨_, rfl⟩⟩
    | some k =>
      dsimp only
      split
      · exact .inr ⟨_, rfl, rfl⟩
      · exact .inl ⟨⟨_, rfl⟩, ⟨_, rfl⟩⟩

/-- The 128-bit number nearest to a double is a number that a double holds, but for the greatest. -/
theorem roundToInt128_holds (x : Double) :
    Format.double.Holds (unscaledAt.roundToInt128 x).toInt.natAbs ∨
      (unscaledAt.roundToInt128 x).toInt = 2 ^ 127 - 1 := by
  have clamped {n : Int} (h : n.natAbs < 2 ^ 127 → Format.double.Holds n.natAbs) :
      Format.double.Holds (Int128.clamp n).toInt.natAbs ∨
        (Int128.clamp n).toInt = 2 ^ 127 - 1 := by
    unfold Int128.clamp
    split
    · exact .inl ⟨1, 127, by decide, by decide⟩
    · split
      · exact .inr rfl
      · left
        by_cases least : n = -2 ^ 127
        · subst least
          refine ⟨1, 127, by decide, ?_⟩
          rw [Int.natAbs_neg, Int.natAbs_pow, Nat.one_mul]
          rfl
        · exact h (by omega)
  unfold unscaledAt.roundToInt128
  split
  · next n found => exact clamped fun _ => Floating.holds_of_toInt? found
  · apply clamped
    split <;> intro small <;> exact absurd small (by decide)

/-- The powers of ten of all scales are finite doubles. -/
theorem isFinite_ofInt_pow {places : Nat} (h : places ≤ maxDecimalScale) :
    (Floating.ofInt (10 ^ places) : Double).isFinite = true := by
  have all : ∀ k : Fin 39, (Floating.ofInt (10 ^ k.val) : Double).isFinite = true := by
    decide +kernel
  exact all ⟨places, Nat.lt_succ_of_le h⟩

/-- A whole number written as a text keeps its value at a scale, if a double holds the product. -/
theorem mul_denotes_of_readWhole? {n : Int} {places : Nat} (read : readWhole? s = some n)
    (small : places ≤ maxDecimalScale) (held : Format.double.Holds (n * 10 ^ places).natAbs)
    (bound : (n * 10 ^ places).natAbs ≤ 2 ^ 127) (within : n.natAbs < 2 ^ 127) :
    ∃ x t, readDouble? s = some x ∧ x.isFinite = true ∧
      (x.mul (Floating.ofInt (10 ^ places))).Denotes t (n * 10 ^ places).natAbs ∧
      Floating.signed t (n * 10 ^ places).natAbs = n * 10 ^ places := by
  have wide : 2 ≤ Format.double.exponentBits := by decide
  have power : (10 ^ places : Int).natAbs = 10 ^ places := by
    rw [Int.natAbs_pow]
    rfl
  have size : (n * 10 ^ places).natAbs = n.natAbs * 10 ^ places := by rw [Int.natAbs_mul, power]
  by_cases zero : n = 0
  · subst zero
    obtain ⟨x, negative, value, denotes, -⟩ :=
      readDouble?_of_readWhole? read (Format.holds_of_le (Nat.zero_le _)) within
    obtain ⟨t, product⟩ := denotes.zero_mul (isFinite_ofInt_pow small) wide
    refine ⟨x, t, value, denotes.isFinite, ?_, ?_⟩
    · rwa [Int.zero_mul]
    · rw [Int.zero_mul]
      cases t <;> rfl
  · have nonzero : (n * 10 ^ places).natAbs ≠ 0 := by
      rw [size]
      exact Nat.mul_ne_zero (Int.natAbs_ne_zero.2 zero) (Nat.ne_of_gt (Nat.pow_pos (by decide)))
    have range {m : Nat} (h : m ≤ 2 ^ 127) : m < 2 ^ 2 ^ (Format.double.exponentBits - 1) :=
      Nat.lt_of_le_of_lt h (Nat.pow_lt_pow_right (by decide) (by decide))
    have divides : 10 ^ places ∣ (n * 10 ^ places).natAbs := size ▸ Nat.dvd_mul_left _ _
    obtain ⟨x, negative, value, denotes, same⟩ := readDouble?_of_readWhole? read
      (held.of_dvd nonzero (size ▸ Nat.dvd_mul_right _ _)) within
    have least := Nat.le_trans (Nat.le_of_dvd (Nat.pos_of_ne_zero nonzero) divides) bound
    have factor := Floating.ofInt_denotes (f := .double) (n := 10 ^ places)
      (by rw [power]; exact held.of_dvd nonzero divides) (by rw [power]; exact range least) wide
    rw [power] at factor
    rw [size] at held bound ⊢
    refine ⟨x, _, value, denotes.isFinite, denotes.mul factor held (range bound) wide, ?_⟩
    have positive : ¬(10 ^ places : Int) < 0 := Int.not_lt.2 (Int.pow_nonneg (by decide))
    calc Floating.signed (negative != decide ((10 ^ places : Int) < 0)) (n.natAbs * 10 ^ places)
        = Floating.signed negative n.natAbs * 10 ^ places := by
          rw [decide_eq_false positive, Bool.bne_false]
          cases negative <;> simp [Floating.signed]
      _ = n * 10 ^ places := by rw [same]

/-- The two ways to the unscaled value of a whole number: through doubles, and exactly. -/
theorem unscaledAt_eq_of_holds (read : readWhole? s = some n.toInt)
    (small : places ≤ maxDecimalScale)
    (held : Format.double.Holds (n.toInt * 10 ^ places).natAbs)
    (lower : -2 ^ 127 ≤ n.toInt * 10 ^ places) (upper : n.toInt * 10 ^ places < 2 ^ 127) :
    (string s).unscaledAt places = .ok (some ⟨n.toInt * 10 ^ places, lower, upper⟩) := by
  have least := n.le_toInt
  have greatest := n.toInt_lt
  obtain ⟨x, t, value, finite, denotes, same⟩ :=
    mul_denotes_of_readWhole? read small held (by omega) (by omega)
  have rounded : unscaledAt.roundToInt128 (x.mul (Floating.ofInt (10 ^ places))) =
      ⟨n.toInt * 10 ^ places, lower, upper⟩ := by
    rw [unscaledAt.roundToInt128, denotes.toInt?, same]
    exact Int128.clamp_eq lower upper
  unfold unscaledAt
  dsimp only
  rw [toDouble?, value]
  dsimp only
  rw [if_pos finite, rounded]

theorem unscaledAt_bigInt :
    (bigInt n).unscaledAt places = .ok (Int128.ofInt? (n.toInt * 10 ^ places)) := rfl

theorem unscaledAt_string {k : Int128} (h : (string s).unscaledAt places = .ok (some k)) :
    ∃ x, k = unscaledAt.roundToInt128 x := by
  unfold unscaledAt at h
  dsimp only at h
  cases found : (string s).toDouble? with
  | none =>
    rw [found] at h
    cases h
  | some x =>
    rw [found] at h
    dsimp only at h
    split at h
    · cases h
      exact ⟨_, rfl⟩
    · cases h

/-- The greatest 128-bit number is no multiple of ten, and no 64-bit number. -/
theorem mul_pow_ne_greatest (n : Int64) (places : Nat) : n.toInt * 10 ^ places ≠ 2 ^ 127 - 1 := by
  cases places with
  | zero =>
    have greatest := n.toInt_lt
    omega
  | succ places =>
    rw [Int.pow_succ, ← Int.mul_assoc]
    omega

/-- A whole number that is read from a text and the number itself become one decimal of a type
exactly if a double holds the unscaled value and 128 bits do, or else the type refuses both. So it
is up to `2 ^ 53`. -/
theorem whole_text_agrees_iff (read : (string s).cast .bigInt = .ok (.bigInt n))
    (precision own : Option UInt8) :
    let scaled := n.toInt * 10 ^ (own.getD 0).toNat
    let exact := Format.double.Holds scaled.natAbs ∧ -2 ^ 127 ≤ scaled ∧ scaled < 2 ^ 127
    let direct := (string s).cast (.decimal precision own)
    let whole := (bigInt n).cast (.decimal precision own)
    (Agree direct whole ↔ exact ∨ Refused direct ∧ Refused whole) ∧
      (scaled.natAbs ≤ 2 ^ 53 → exact) := by
  intro scaled exact direct whole
  have word := readWhole?_of_cast read
  refine ⟨⟨?_, ?_⟩, fun small => ⟨Format.holds_of_le small, by omega, by omega⟩⟩
  · rintro (refused | ⟨w, left, right⟩)
    · exact .inr refused
    · -- The one unscaled value is a rounded double and the exact product at once.
      have small : (own.getD 0).toNat ≤ maxDecimalScale := by
        refine Nat.le_of_not_lt fun large => ?_
        have answer : direct = .error (.refused (.scaleTooLarge (own.getD 0))) := if_pos large
        cases answer.symm.trans left
      obtain ⟨k, rounded, -, rfl⟩ := (castDecimal_eq_ok_iff small).1 left
      obtain ⟨k', product, -, same⟩ := (castDecimal_eq_ok_iff small).1 right
      cases same
      have value : k.toInt = scaled := Int128.ofInt?_eq_some_iff.1 (Except.ok.inj product)
      obtain ⟨x, nearest⟩ := unscaledAt_string rounded
      have held := roundToInt128_holds x
      rw [← nearest, value] at held
      have lower := k.lower
      have upper := k.upper
      rw [value] at lower upper
      exact .inl ⟨held.resolve_right (mul_pow_ne_greatest n _), lower, upper⟩
  · rintro (⟨held, lower, upper⟩ | refused)
    · refine castDecimal_agree fun small =>
        ⟨_, unscaledAt_eq_of_holds word small held lower upper, ?_⟩
      rw [unscaledAt_bigInt, Int128.ofInt?, dif_pos ⟨lower, upper⟩]
    · exact .inl refused

/-- Blanks, a sign and zeros in front do not keep a text from agreeing with its number. -/
theorem whole_text_agrees_iff_blank :
    (string " +0042 ").cast .bigInt = .ok (.bigInt 42) ∧
      Agree ((string " +0042 ").cast (.decimal (some 5) (some 2)))
        ((bigInt 42).cast (.decimal (some 5) (some 2))) := by
  have read : (string " +0042 ").cast .bigInt = .ok (.bigInt 42) := by decide +kernel
  obtain ⟨agrees, small⟩ := whole_text_agrees_iff read (some 5) (some 2)
  exact ⟨read, agrees.2 (.inl (small (by decide)))⟩

/-- The greatest 64-bit integer goes into a decimal type as itself, and its text as the double next
to it; at 38 places the number is refused, and the text becomes the greatest decimal. -/
theorem whole_text_changes :
    let text := string "9223372036854775807"
    let whole := bigInt 9223372036854775807
    let wide := DataType.decimal (some 38) (some 0)
    text.cast .bigInt = .ok whole ∧ ¬Agree (text.cast wide) (whole.cast wide) ∧
      whole.cast wide = .ok (.decimal { toInt := 9223372036854775807 } 0) ∧
      text.cast wide = .ok (.decimal { toInt := 9223372036854775808 } 0) ∧
      whole.cast (.decimal none (some 38)) = .error (.refused (.unconvertible whole "decimal")) ∧
      text.cast (.decimal none (some 38)) = .ok (.decimal { toInt := 2 ^ 127 - 1 } 38) := by
  intro text whole wide
  have direct : text.cast wide = .ok (.decimal { toInt := 9223372036854775808 } 0) := by
    decide +kernel
  have exact : whole.cast wide = .ok (.decimal { toInt := 9223372036854775807 } 0) := by
    decide +kernel
  refine ⟨by decide +kernel, ?_, exact, direct, by decide +kernel, by decide +kernel⟩
  rw [direct, exact]
  rintro (⟨⟨e, refused⟩, -⟩ | ⟨w, left, right⟩)
  · cases refused
  · cases left
    cases right

end Value

end ResultSink
