import ResultSink.Proofs.Floating.Powers
import ResultSink.Value.Order

/-! The numbers of values. The kinds that always stand for a number are told apart from those that
do so by their text or not at all, and the double of such a value is no number only if the value is
a word that is none: a decimal is a whole number over a power of ten, and that quotient is finite at
every scale. -/

namespace ResultSink

/-- The power of ten of every scale is a finite double from 1 on. -/
theorem within_powerOfTen (scale : UInt8) : (powerOfTen scale.toNat).Within (4 * scale.toNat) := by
  have ten : (Floating.ofInt 10 : Double).Within 4 :=
    Floating.within_ofInt (by decide) (by decide) (by decide) (by decide)
  exact ten.power scale.toNat_lt (by decide) (by decide) (by decide)

theorem isFinite_decimal (n : Int128) (scale : UInt8) :
    ((Floating.ofInt n.toInt).div (powerOfTen scale.toNat)).isFinite = true := by
  have wide : 2 ≤ Format.double.exponentBits := by decide
  have range : 127 < 2 ^ (Format.double.exponentBits - 1) := by decide
  have bound : ((n.toInt.natAbs : ℕ) : ℚ) / (1 : ℕ) ≤ 2 ^ 127 := by
    have low := n.lower
    have high := n.upper
    rw [Nat.cast_one, div_one]
    exact_mod_cast (by omega : n.toInt.natAbs ≤ 2 ^ 127)
  exact Floating.isFinite_div (Floating.isFinite_ofQuotient Nat.one_ne_zero bound range wide)
    (Floating.size_ofQuotient_le Nat.one_ne_zero bound range wide) (within_powerOfTen scale) range
    wide

/-- The kinds whose values all stand for a number. -/
def Kind.isNumber : Kind → Bool
  | boolean | tinyInt | smallInt | int | bigInt | float | double | decimal | bit => true
  | null | string | bytes | date | time | timestamp => false

namespace Value

variable {a b v : Value}

/-- A word of a floating-point kind that denotes no number. -/
def isNaN : Value → Bool
  | float x => x.isNaN
  | double x => x.isNaN
  | _ => false

/-- A value of a number's kind has a double, which is a number if the value is one. -/
theorem exists_toDouble? (h : v.kind.isNumber = true) :
    ∃ x, v.toDouble? = some x ∧ x.isNaN = v.isNaN := by
  cases v with
  | boolean | tinyInt | smallInt | int | bigInt | bit =>
    exact ⟨_, rfl, Floating.isNaN_ofQuotient _ _⟩
  | float x => exact ⟨_, rfl, x.isNaN_convert⟩
  | double x => exact ⟨x, rfl, rfl⟩
  | decimal n scale =>
    exact ⟨_, rfl, Floating.not_isNaN_iff.2 (.inl (isFinite_decimal n scale))⟩
  | _ => cases h

/-- Two values of one kind. -/
inductive Alike : Value → Value → Prop
  | null : Alike .null .null
  | boolean (a b : Bool) : Alike (.boolean a) (.boolean b)
  | tinyInt (a b : Int8) : Alike (.tinyInt a) (.tinyInt b)
  | smallInt (a b : Int16) : Alike (.smallInt a) (.smallInt b)
  | int (a b : Int32) : Alike (.int a) (.int b)
  | bigInt (a b : Int64) : Alike (.bigInt a) (.bigInt b)
  | float (x y : Single) : Alike (.float x) (.float y)
  | double (x y : Double) : Alike (.double x) (.double y)
  | decimal (m n : Int128) (scale scale' : UInt8) : Alike (.decimal m scale) (.decimal n scale')
  | string (s t : String) : Alike (.string s) (.string t)
  | bytes (a b : ByteArray) : Alike (.bytes a) (.bytes b)
  | date (a b : Int32) : Alike (.date a) (.date b)
  | time (a b : Int64) : Alike (.time a) (.time b)
  | timestamp (a b : Int64) : Alike (.timestamp a) (.timestamp b)
  | bit (a b : UInt64) : Alike (.bit a) (.bit b)

theorem alike_iff : Alike a b ↔ a.kind = b.kind := by
  constructor
  · rintro ⟨⟩ <;> rfl
  · intro same
    cases a <;> cases b <;> first | constructor | cases same

theorem Alike.symm (h : Alike a b) : Alike b a := alike_iff.2 (alike_iff.1 h).symm

end Value

end ResultSink
