import ResultSink.Record.Encode

/-! Rows read back from records. Every reader takes its bytes from the front and leaves the rest; a
record is complete when nothing is left after its last column. -/

namespace ResultSink

/-- What was being read when a record ended. -/
inductive Part where
  | columnCount
  | tag
  | content (kind : Kind)
  deriving DecidableEq

def Kind.name : Kind → String
  | null => "null"
  | boolean => "boolean"
  | tinyInt => "tinyint"
  | smallInt => "smallint"
  | int => "int"
  | bigInt => "bigint"
  | float => "float"
  | double => "double"
  | decimal => "decimal"
  | string => "string"
  | bytes => "bytes"
  | date => "date"
  | time => "time"
  | timestamp => "timestamp"
  | bit => "bit"

def Part.name : Part → String
  | columnCount => "column count"
  | tag => "type tag"
  | content kind => kind.name

inductive CodecError where
  | truncated (part : Part)
  | unknownTag (tag : UInt8)
  | invalidText
  | trailingBytes (count : Nat)
  deriving DecidableEq

def CodecError.message : CodecError → String
  | truncated part => s!"record truncated while reading {part.name}"
  | unknownTag tag => s!"unknown type tag: {tag.toNat}"
  | invalidText => "invalid utf-8 in string column"
  | trailingBytes count => s!"{count} trailing bytes after last column"

/-- Reads a value from the front of some bytes and leaves the rest. -/
abbrev Reader (α : Type) := List UInt8 → Except CodecError (α × List UInt8)

/-- The first `n` bytes in reverse before `taken`, and the rest, if there are so many. -/
def takeBytes? : Nat → List UInt8 → List UInt8 → Option (List UInt8 × List UInt8)
  | 0, taken, bytes => some (taken, bytes)
  | _ + 1, _, [] => none
  | n + 1, taken, b :: bytes => takeBytes? n (b :: taken) bytes

theorem takeBytes?_append (front rest taken : List UInt8) :
    takeBytes? front.length taken (front ++ rest) = some (front.reverse ++ taken, rest) := by
  induction front generalizing taken with
  | nil => rfl
  | cons b front ih => simp [takeBytes?, ih]

theorem takeBytes?_eq_none {n : Nat} {bytes : List UInt8} (h : bytes.length < n)
    (taken : List UInt8) : takeBytes? n taken bytes = none := by
  induction n generalizing bytes taken with
  | zero => exact absurd h (Nat.not_lt_zero _)
  | succ n ih =>
    cases bytes with
    | nil => rfl
    | cons b bytes => exact ih (Nat.lt_of_succ_lt_succ h) (b :: taken)

def readBytes (part : Part) (n : Nat) : Reader (List UInt8) := fun bytes =>
  match takeBytes? n [] bytes with
  | some (taken, rest) => .ok (taken.reverse, rest)
  | none => .error (.truncated part)

theorem readBytes_append (part : Part) (front rest : List UInt8) :
    readBytes part front.length (front ++ rest) = .ok (front, rest) := by
  simp [readBytes, takeBytes?_append]

/-- Bytes are read as they stand, or there are too few. -/
theorem readBytes_eq (part : Part) (n : Nat) (bytes : List UInt8) :
    readBytes part n bytes =
      if n ≤ bytes.length then .ok (bytes.take n, bytes.drop n) else .error (.truncated part) := by
  split
  · next h =>
    have front : (bytes.take n).length = n := List.length_take_of_le h
    have whole := readBytes_append part (bytes.take n) (bytes.drop n)
    rwa [front, List.take_append_drop] at whole
  · next h => rw [readBytes, takeBytes?_eq_none (Nat.lt_of_not_le h)]

theorem readBytes_eq_ok_iff {part : Part} {n : Nat} {bytes front rest : List UInt8} :
    readBytes part n bytes = .ok (front, rest) ↔ front.length = n ∧ bytes = front ++ rest := by
  constructor
  · intro h
    rw [readBytes_eq] at h
    split at h
    · next hn =>
      cases h
      exact ⟨List.length_take_of_le hn, (List.take_append_drop n bytes).symm⟩
    · cases h
  · rintro ⟨rfl, rfl⟩
    exact readBytes_append part front rest

/-- Reads a number of `width` bytes, least significant first. -/
def readNumber (part : Part) (width : Nat) : Reader Nat := fun bytes =>
  (readBytes part width bytes).map fun (taken, rest) => (ofLittleEndian taken, rest)

/-- A number that was written in `width` bytes is read back modulo their range. -/
theorem readNumber_littleEndian (part : Part) (width n : Nat) (rest : List UInt8) :
    readNumber part width (littleEndian width n ++ rest) = .ok (n % 256 ^ width, rest) := by
  have whole := readBytes_append part (littleEndian width n) rest
  rw [length_littleEndian] at whole
  simp [readNumber, whole, Except.map, ofLittleEndian_littleEndian]

/-- A number is read from its own bytes and from no others. -/
theorem readNumber_eq_ok_iff {part : Part} {width n : Nat} {bytes rest : List UInt8} :
    readNumber part width bytes = .ok (n, rest) ↔
      n < 256 ^ width ∧ bytes = littleEndian width n ++ rest := by
  constructor
  · intro h
    unfold readNumber at h
    cases hr : readBytes part width bytes with
    | error e => rw [hr] at h; cases h
    | ok found =>
      rw [hr] at h
      cases h
      obtain ⟨rfl, rfl⟩ := readBytes_eq_ok_iff.1 hr
      exact ⟨ofLittleEndian_lt _, by rw [littleEndian_ofLittleEndian]⟩
  · rintro ⟨hn, rfl⟩
    rw [readNumber_littleEndian, Nat.mod_eq_of_lt hn]

/-- Reads a length of four bytes and as many bytes as it says. -/
def readCounted (part : Part) : Reader (List UInt8) := fun bytes =>
  match readNumber part 4 bytes with
  | .ok (n, rest) => readBytes part n rest
  | .error e => .error e

/-- Bytes that were written after their length are read back, if the length fits in four bytes. -/
theorem readCounted_append (part : Part) (front rest : List UInt8) (h : front.length < 2 ^ 32) :
    readCounted part (littleEndian 4 front.length ++ (front ++ rest)) = .ok (front, rest) := by
  have length : front.length % 256 ^ 4 = front.length := Nat.mod_eq_of_lt h
  rw [readCounted, readNumber_littleEndian, length]
  exact readBytes_append part front rest

/-- Bytes are read after their length, and as many as it says. -/
theorem readCounted_eq_ok_iff {part : Part} {bytes front rest : List UInt8} :
    readCounted part bytes = .ok (front, rest) ↔
      front.length < 2 ^ 32 ∧ bytes = littleEndian 4 front.length ++ (front ++ rest) := by
  constructor
  · intro h
    unfold readCounted at h
    split at h
    · next n after hn =>
      obtain ⟨small, rfl⟩ := readNumber_eq_ok_iff.1 hn
      obtain ⟨rfl, rfl⟩ := readBytes_eq_ok_iff.1 h
      exact ⟨small, rfl⟩
    · cases h
  · rintro ⟨small, rfl⟩
    exact readCounted_append part front rest small

def readContent (kind : Kind) : Reader Value := fun bytes =>
  let number (width : Nat) (value : Nat → Value) : Except CodecError (Value × List UInt8) :=
    (readNumber (.content kind) width bytes).map fun (n, rest) => (value n, rest)
  match kind with
  | .null => .ok (.null, bytes)
  | .boolean => number 1 fun n => .boolean (n ≠ 0)
  | .tinyInt => number 1 fun n => .tinyInt (Int8.ofNat n)
  | .smallInt => number 2 fun n => .smallInt (Int16.ofNat n)
  | .int => number 4 fun n => .int (Int32.ofNat n)
  | .bigInt => number 8 fun n => .bigInt (Int64.ofNat n)
  | .float => number 4 fun n => .float (Floating.ofBits n)
  | .double => number 8 fun n => .double (Floating.ofBits n)
  | .decimal => number 17 fun n => .decimal (Int128.ofComplement n) (UInt8.ofNat (n / 2 ^ 128))
  | .string =>
    match readCounted (.content kind) bytes with
    | .error e => .error e
    | .ok (taken, rest) =>
      match String.fromUTF8? taken.toByteArray with
      | some s => .ok (.string s, rest)
      | none => .error .invalidText
  | .bytes =>
    (readCounted (.content kind) bytes).map fun (taken, rest) => (.bytes taken.toByteArray, rest)
  | .date => number 4 fun n => .date (Int32.ofNat n)
  | .time => number 8 fun n => .time (Int64.ofNat n)
  | .timestamp => number 8 fun n => .timestamp (Int64.ofNat n)
  | .bit => number 8 fun n => .bit (UInt64.ofNat n)

/-- Reads a tag and the content it announces. -/
def readValue : Reader Value
  | [] => .error (.truncated .tag)
  | tag :: bytes =>
    match Kind.ofIndex? tag.toNat with
    | some kind => readContent kind bytes
    | none => .error (.unknownTag tag)

/-- Reads the given number of values after those already read, which are in reverse. -/
def readValues : Nat → List Value → Reader Row
  | 0, values, bytes => .ok (values.reverse, bytes)
  | n + 1, values, bytes =>
    match readValue bytes with
    | .ok (v, rest) => readValues n (v :: values) rest
    | .error e => .error e

/-- The row that some bytes are the record of. -/
def Row.ofBytes (bytes : List UInt8) : Except CodecError Row :=
  match readBytes .columnCount 4 bytes with
  | .error e => .error e
  | .ok (count, rest) =>
    match readValues (ofBigEndian count) [] rest with
    | .error e => .error e
    | .ok (row, []) => .ok row
    | .ok (_, rest) => .error (.trailingBytes rest.length)

def Row.decode (record : Record) : Except CodecError Row :=
  Row.ofBytes record.data.toList

end ResultSink
