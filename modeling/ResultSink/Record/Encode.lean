import ResultSink.Row

/-! Records: rows as bytes. A record is the number of columns in four bytes, most significant first,
and then for each value a tag and its content. Numbers are little-endian; texts and byte strings
come after their length. A zero loses its sign and every word that is no number becomes one word, so
that numbers that are equal are stored alike. -/

namespace ResultSink

/-- The bytes of a stored row. -/
abbrev Record := ByteArray

namespace Value

/-- The value with its floating-point number in canonical form. -/
def canonical : Value → Value
  | float x => .float x.canonical
  | double x => .double x.canonical
  | v => v

def content : Value → List UInt8
  | null => []
  | boolean b => [if b then 1 else 0]
  | tinyInt n => littleEndian 1 n.toBitVec.toNat
  | smallInt n => littleEndian 2 n.toBitVec.toNat
  | int n => littleEndian 4 n.toBitVec.toNat
  | bigInt n => littleEndian 8 n.toBitVec.toNat
  | float x => littleEndian 4 x.canonical.word.toNat
  | double x => littleEndian 8 x.canonical.word.toNat
  | decimal n scale => n.bytes ++ [scale]
  | string s => littleEndian 4 s.toUTF8.size ++ s.toUTF8.data.toList
  | bytes b => littleEndian 4 b.size ++ b.data.toList
  | date d => littleEndian 4 d.toBitVec.toNat
  | time t => littleEndian 8 t.toBitVec.toNat
  | timestamp t => littleEndian 8 t.toBitVec.toNat
  | bit n => littleEndian 8 n.toNat

/-- The tag of a value and its content. -/
def encode (v : Value) : List UInt8 :=
  UInt8.ofNat v.kind.index :: v.content

end Value

namespace Row

def canonical (r : Row) : Row := r.map Value.canonical

def encode (r : Row) : Record :=
  (bigEndian 4 r.length ++ r.flatMap Value.encode).toByteArray

end Row

/-- An encoder of rows. It keeps its buffer from one row to the next. -/
structure Encoder where
  buffer : ByteArray := .empty
  deriving DecidableEq

namespace Encoder

/-- The encoder with bytes behind those in its buffer. -/
def put (e : Encoder) (bytes : List UInt8) : Encoder :=
  { e with buffer := e.buffer ++ bytes.toByteArray }

/-- Writes a row value by value into the buffer, and hands out all the buffer holds. -/
def encode (e : Encoder) (r : Row) : Record × Encoder :=
  let filled := r.foldl (fun e v => e.put v.encode) (e.put (bigEndian 4 r.length))
  (filled.buffer, { filled with buffer := .empty })

/-- The records of rows that are written one after another. -/
def encodeAll (e : Encoder) : List Row → List Record × Encoder
  | [] => ([], e)
  | r :: rows =>
    let (record, e) := e.encode r
    let (records, e) := e.encodeAll rows
    (record :: records, e)

end Encoder

end ResultSink
