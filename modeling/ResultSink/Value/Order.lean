import ResultSink.Bytes
import ResultSink.Value.Number
import ResultSink.Value.Text

/-! How values compare. Values of one kind compare by their content, values of two kinds by the
numbers they stand for, and a pair without numbers by its texts. Equality and order are two rules:
across kinds, equality allows a small difference. -/

namespace ResultSink

/-- The order of two texts by code points, which is also that of their encoded bytes. -/
def compareText (a b : String) : Ordering :=
  List.compareLex (fun c d => compare c.toNat d.toNat) a.toList b.toList

/-- The distance from 1 to the next 64-bit number, `2 ^ -52`. -/
def epsilon : Double := Floating.ofScaled false 1 (-52)

/-- Two numbers whose rounded difference is less than `epsilon`. -/
def near (x y : Double) : Bool :=
  (x.sub y).abs.below epsilon

namespace Value

def equalsByNumber (a b : Value) : Bool :=
  match a.toDouble?, b.toDouble? with
  | some x, some y => near x y
  | _, _ => false

/-- Equality of values. NULL equals NULL; decimals compare as numbers also with one another. -/
def equals : Value → Value → Bool
  | null, null => true
  | null, _ | _, null => false
  | boolean a, boolean b => a = b
  | tinyInt a, tinyInt b => a = b
  | smallInt a, smallInt b => a = b
  | int a, int b => a = b
  | bigInt a, bigInt b => a = b
  | float a, float b => a.equals b
  | double a, double b => a.equals b
  | string a, string b => a = b
  | bytes a, bytes b => a = b
  | date a, date b => a = b
  | time a, time b => a = b
  | timestamp a, timestamp b => a = b
  | bit a, bit b => a = b
  | a, b => equalsByNumber a b

/-- The order by the numbers two values stand for, or by their texts if one has no number. A number
that is not comparable is taken as equal. -/
def orderByNumber (a b : Value) : Ordering :=
  match a.toDouble?, b.toDouble? with
  | some x, some y => (x.order? y).getD .eq
  | _, _ => compareText (a.toText?.getD "") (b.toText?.getD "")

/-- The order of values; NULL comes first. -/
def order : Value → Value → Ordering
  | null, null => .eq
  | null, _ => .lt
  | _, null => .gt
  | boolean a, boolean b => compare a b
  | tinyInt a, tinyInt b => compare a.toInt b.toInt
  | smallInt a, smallInt b => compare a.toInt b.toInt
  | int a, int b => compare a.toInt b.toInt
  | bigInt a, bigInt b => compare a.toInt b.toInt
  | float a, float b => (a.order? b).getD .eq
  | double a, double b => (a.order? b).getD .eq
  | string a, string b => compareText a b
  | bytes a, bytes b => compareBytes a b
  | date a, date b => compare a.toInt b.toInt
  | time a, time b => compare a.toInt b.toInt
  | timestamp a, timestamp b => compare a.toInt b.toInt
  | bit a, bit b => compare a.toNat b.toNat
  | a, b => orderByNumber a b

/-- The bytes of the content that a hasher is fed: numbers in little-endian form, texts closed by
the byte 255, and byte strings after their length. -/
def hashedContent : Value → List UInt8
  | null => []
  | boolean b => [if b then 1 else 0]
  | tinyInt n => littleEndian 1 n.toBitVec.toNat
  | smallInt n => littleEndian 2 n.toBitVec.toNat
  | int n => littleEndian 4 n.toBitVec.toNat
  | bigInt n => littleEndian 8 n.toBitVec.toNat
  | float x => littleEndian 4 x.word.toNat
  | double x => littleEndian 8 x.word.toNat
  | decimal n scale => n.bytes ++ [scale]
  | string s => s.toUTF8.data.toList ++ [255]
  | bytes b => littleEndian 8 b.size ++ b.data.toList
  | date d => littleEndian 4 d.toBitVec.toNat
  | time t => littleEndian 8 t.toBitVec.toNat
  | timestamp t => littleEndian 8 t.toBitVec.toNat
  | bit n => littleEndian 8 n.toNat

/-- The bytes that a hasher is fed for a value: its kind and then its content. -/
def hashed (v : Value) : List UInt8 :=
  littleEndian 8 v.kind.index ++ v.hashedContent

end Value

end ResultSink
