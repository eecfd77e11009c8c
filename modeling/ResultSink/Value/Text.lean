import ResultSink.Bytes
import ResultSink.Floating.Text
import ResultSink.Value.Number

/-! The text of a value. -/

namespace ResultSink

/-- The text of `unscaled / 10 ^ scale`, with all digits behind the point. The whole part brings its
sign along, unless it is zero. A power of ten beyond 128 bits leaves no whole part. -/
def decimalText (unscaled : Int) (scale : Nat) : String :=
  if scale = 0 then Text.ofInt unscaled
  else if scale ≤ maxDecimalScale then
    let whole := unscaled.tdiv (10 ^ scale)
    let fraction := (unscaled.tmod (10 ^ scale)).natAbs
    let sign := if unscaled < 0 ∧ whole = 0 then "-" else ""
    s!"{sign}{Text.ofInt whole}.{Text.padded scale fraction}"
  else
    let sign := if unscaled < 0 then "-" else ""
    s!"{sign}0.{Text.padded scale unscaled.natAbs}"

namespace Value

/-- The text of a value. Bytes are written in hexadecimal and bit fields in binary. -/
def text : Value → String
  | null => "NULL"
  | boolean b => if b then "true" else "false"
  | tinyInt n => Text.ofInt n.toInt
  | smallInt n => Text.ofInt n.toInt
  | int n => Text.ofInt n.toInt
  | bigInt n => Text.ofInt n.toInt
  | float x => x.text
  | double x => x.text
  | decimal n scale => decimalText n.toInt scale.toNat
  | string s => s
  | bytes b => s!"0x{hexText b.data.toList}"
  | date d => Text.ofInt d.toInt
  | time t => Text.ofInt t.toInt
  | timestamp t => Text.ofInt t.toInt
  | bit n => "b'" ++ Text.binary n.toNat ++ "'"

def toText? : Value → Option String
  | null => none
  | v => some v.text

end Value

end ResultSink
