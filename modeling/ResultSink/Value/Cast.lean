import ResultSink.DataType.Basic
import ResultSink.Value.Number
import ResultSink.Value.Text

/-! Checked casts: a value becomes a value of a column's type, or is refused when it does not fit.
Nothing is cut off to make it fit. -/

namespace ResultSink

/-- Why a cast refused a value. Targets are given by name. -/
inductive CastError where
  | notBoolean (text : String)
  | noNumber (target : String)
  | unconvertible (value : Value) (target : String)
  | outOfRange (text : String) (target : String)
  | tooWide (target : DataType)
  | tooLong (target : DataType)
  | scaleTooLarge (scale : UInt8)
  deriving DecidableEq

def CastError.message : CastError → String
  | .notBoolean text => s!"Cannot cast '{text}' to boolean"
  | .noNumber target => s!"Cannot cast to {target}"
  | .unconvertible value target => s!"Cannot cast {value.text} to {target}"
  | .outOfRange text target => s!"Value {text} out of range for {target}"
  | .tooWide target => s!"Value out of range for {target.name}"
  | .tooLong target => s!"Data too long for {target.name}"
  | .scaleTooLarge scale =>
    s!"Scale {scale.toNat} exceeds the maximum decimal scale of {maxDecimalScale}"

/-- The answer of a cast: a value, a refusal, or an overflow while the value was rounded. -/
abbrev CastResult := Except (Failure CastError) Value

/-- The truth value that a text spells, blanks around it and case aside. -/
def readBool? (s : String) : Option Bool :=
  let word := (Text.trim s.toList).map Char.toLower
  if word = "true".toList ∨ word = "1".toList then some true
  else if word = "false".toList ∨ word = "0".toList then some false
  else none

/-- A value that exists, or a refusal. -/
def orRefuse {α : Type} (e : CastError) : Option α → Except (Failure CastError) α
  | some a => .ok a
  | none => .error (.refused e)

/-- The greatest finite 32-bit number, as a 64-bit one. -/
def maxSingle : Double :=
  (Floating.ofMagnitude (f := Format.single) false (Format.single.infinity - 1)).convert

namespace Value

/-- The nearest 64-bit integer, narrowed to a target that is given by name. -/
def castWhole (v : Value) (target : String) (narrow : Int64 → Option Value) : CastResult :=
  match v.toInt64? with
  | .error step => .error (.overflow step)
  | .ok none => .error (.refused (.unconvertible v target))
  | .ok (some n) => orRefuse (.outOfRange (Text.ofInt n.toInt) target) (narrow n)

/-- A 32-bit number. Finite numbers beyond its range are refused. -/
def castFloat (v : Value) : CastResult :=
  match v.toDouble? with
  | none => .error (.refused (.noNumber "float"))
  | some x =>
    if x.isFinite && maxSingle.below x.abs then .error (.refused (.outOfRange x.text "float"))
    else .ok (.float x.convert)

/-- The unscaled value at a scale: decimals are shifted, numbers and texts go through a 64-bit
floating-point product, and every other value through a 64-bit integer. -/
def unscaledAt (v : Value) (scale : Nat) : Except Overflow (Option Int128) :=
  match v with
  | .decimal n own =>
    if own.toNat ≤ scale then .ok (Int128.ofInt? (n.toInt * 10 ^ (scale - own.toNat)))
    else (decimalToInt n.toInt (own.toNat - scale)).map Int128.ofInt?
  | .float _ | .double _ | .string _ =>
    .ok (match v.toDouble? with
      | some x =>
        if x.isFinite then some (roundToInt128 (x.mul (Floating.ofInt (10 ^ scale)))) else none
      | none => none)
  | _ => v.toInt64?.map fun n => n.bind fun n => Int128.ofInt? (n.toInt * 10 ^ scale)
where
  /-- The nearest 128-bit integer; what lies beyond the range becomes its end. -/
  roundToInt128 (x : Double) : Int128 :=
    match x.toInt? with
    | some n => Int128.clamp n
    | none => Int128.clamp (if x.isNegative then -2 ^ 127 else 2 ^ 127)

/-- Whether an unscaled value has at most the given number of digits. -/
def fitsPrecision (n : Int128) : Option UInt8 → Bool
  | none => true
  | some p => n.toInt.natAbs < 10 ^ p.toNat

def castDecimal (v : Value) (precision : Option UInt8) (scale : UInt8) : CastResult :=
  if maxDecimalScale < scale.toNat then .error (.refused (.scaleTooLarge scale))
  else
    match v.unscaledAt scale.toNat with
    | .error step => .error (.overflow step)
    | .ok none => .error (.refused (.unconvertible v "decimal"))
    | .ok (some n) =>
      if fitsPrecision n precision then .ok (.decimal n scale)
      else
        let digits := (precision.map UInt8.toNat).getD 0
        .error (.refused (.outOfRange v.text s!"DECIMAL({digits})"))

/-- A text of at most the given number of characters. -/
def castText (v : Value) (target : DataType) (length : Option UInt32) : CastResult :=
  match length with
  | some n =>
    if n.toNat < v.text.length then .error (.refused (.tooLong target)) else .ok (.string v.text)
  | none => .ok (.string v.text)

/-- A bit field of a width, which holds no negative number; widths from 64 on hold every word. -/
def castBit (v : Value) (width : UInt8) : CastResult :=
  let bits : Except Overflow (Option UInt64) :=
    match v with
    | .bit b => .ok (some b)
    | _ => v.toInt64?.map fun n => n.bind fun n => uint64? n.toInt
  match bits with
  | .error step => .error (.overflow step)
  | .ok none => .error (.refused (.unconvertible v (DataType.bit width).name))
  | .ok (some b) =>
    if 64 ≤ width.toNat ∨ b.toNat < 2 ^ width.toNat then .ok (.bit b)
    else .error (.refused (.tooWide (.bit width)))

/-- The value as a value of a type. NULL has every type. -/
def cast (v : Value) (target : DataType) : CastResult :=
  if v.isNull then .ok .null
  else
    match target with
    | .boolean =>
      match v with
      | .string s => (orRefuse (.notBoolean s) (readBool? s)).map .boolean
      | _ => .ok (.boolean v.isTruthy)
    | .tinyInt => v.castWhole "tinyint" fun n => (int8? n.toInt).map .tinyInt
    | .smallInt => v.castWhole "smallint" fun n => (int16? n.toInt).map .smallInt
    | .int => v.castWhole "int" fun n => (int32? n.toInt).map .int
    | .bigInt => v.castWhole "bigint" fun n => some (.bigInt n)
    | .float => v.castFloat
    | .double => (orRefuse (.noNumber "double") v.toDouble?).map .double
    | .decimal precision scale => v.castDecimal precision (scale.getD 0)
    | .char length => v.castText target length
    | .varchar length => v.castText target length
    | .text => .ok (.string v.text)
    | .blob =>
      match v with
      | .bytes b => .ok (.bytes b)
      | .string s => .ok (.bytes s.toUTF8)
      | _ => .error (.refused (.unconvertible v "blob"))
    | .date =>
      match v with
      | .date d => .ok (.date d)
      | _ => v.castWhole "date" fun n => (int32? n.toInt).map .date
    | .time =>
      match v with
      | .time t => .ok (.time t)
      | _ => v.castWhole "time" fun n => some (.time n)
    | .timestamp =>
      match v with
      | .timestamp t => .ok (.timestamp t)
      | _ => v.castWhole "timestamp" fun n => some (.timestamp n)
    | .bit width => v.castBit width

end Value

end ResultSink
