import ResultSink.Floating.Text
import ResultSink.Overflow
import ResultSink.Text.Blank
import ResultSink.Text.Numeral
import ResultSink.Value.Basic

/-! The number a value stands for, as a 64-bit integer and as a 64-bit floating-point number. -/

namespace ResultSink

/-- The greatest scale whose power of ten fits in a 128-bit unscaled value. -/
def maxDecimalScale : Nat := 38

def int8? (n : Int) : Option Int8 :=
  if -2 ^ 7 ≤ n ∧ n < 2 ^ 7 then some (Int8.ofInt n) else none

def int16? (n : Int) : Option Int16 :=
  if -2 ^ 15 ≤ n ∧ n < 2 ^ 15 then some (Int16.ofInt n) else none

def int32? (n : Int) : Option Int32 :=
  if -2 ^ 31 ≤ n ∧ n < 2 ^ 31 then some (Int32.ofInt n) else none

def int64? (n : Int) : Option Int64 :=
  if -2 ^ 63 ≤ n ∧ n < 2 ^ 63 then some (Int64.ofInt n) else none

def uint64? (n : Int) : Option UInt64 :=
  if 0 ≤ n ∧ n < 2 ^ 64 then some (UInt64.ofNat n.toNat) else none

/-- The whole number nearest to `n / d`, a tie going away from zero. The remainder is doubled in
128 bits, and the step overflows where it does not fit. -/
def roundDiv (n : Int) (d : Nat) : Except Overflow Int :=
  let twice := 2 * (n.tmod d).natAbs
  if 2 ^ 127 ≤ twice then .error .product
  else if d ≤ twice then .ok (n.tdiv d + n.sign)
  else .ok (n.tdiv d)

/-- The whole number nearest to `unscaled / 10 ^ scale`. A power of ten beyond 128 bits leaves
zero. -/
def decimalToInt (unscaled : Int) (scale : Nat) : Except Overflow Int :=
  if scale ≤ maxDecimalScale then roundDiv unscaled (10 ^ scale) else .ok 0

/-- The numeral a text holds between blanks, as a 64-bit floating-point number. -/
def readDouble? (s : String) : Option Double :=
  (Text.readNumeral? (Text.trim s.toList)).map Floating.ofNumeral

def readWhole? (s : String) : Option Int :=
  Text.readInt? (Text.trim s.toList)

/-- The power of ten of a scale, by repeated squaring. -/
def powerOfTen (scale : Nat) : Double := (Floating.ofInt 10).power scale

namespace Value

/-- The nearest 64-bit integer. A value that stands for no number, and one out of range, has none;
rounding a decimal can overflow. -/
def toInt64? : Value → Except Overflow (Option Int64)
  | null | bytes _ => .ok none
  | boolean b => .ok (some (if b then 1 else 0))
  | tinyInt n => .ok (some n.toInt64)
  | smallInt n => .ok (some n.toInt64)
  | int n => .ok (some n.toInt64)
  | bigInt n => .ok (some n)
  | float x => .ok (x.toInt?.bind int64?)
  | double x => .ok (x.toInt?.bind int64?)
  | decimal n scale => (decimalToInt n.toInt scale.toNat).map int64?
  | string s => .ok ((readWhole? s).bind int64?)
  | date d => .ok (some d.toInt64)
  | time t => .ok (some t)
  | timestamp t => .ok (some t)
  | bit n => .ok (int64? n.toNat)

/-- The nearest 64-bit floating-point number. Dates, times and bytes stand for none. -/
def toDouble? : Value → Option Double
  | null | date _ | time _ | timestamp _ | bytes _ => none
  | boolean b => some (Floating.ofInt (if b then 1 else 0))
  | tinyInt n => some (Floating.ofInt n.toInt)
  | smallInt n => some (Floating.ofInt n.toInt)
  | int n => some (Floating.ofInt n.toInt)
  | bigInt n => some (Floating.ofInt n.toInt)
  | float x => some x.convert
  | double x => some x
  | decimal n scale => some ((Floating.ofInt n.toInt).div (powerOfTen scale.toNat))
  | string s => readDouble? s
  | bit n => some (Floating.ofInt n.toNat)

end Value

end ResultSink
