import ResultSink.Proofs.Record.Fields

/-! Where a record ends. The bytes of a record say themselves how far it goes, so that no record is
the beginning of another: cut short it is truncated, in the field where the cut falls, and with
bytes behind it there are as many trailing bytes. A record with fewer bytes than it counts columns
is not read at all. -/

namespace ResultSink

/-- What is being read where fields, one behind another, are cut after some bytes. -/
def Field.partAt : List Field → Nat → Part
  | [], _ => .tag
  | f :: fields, n =>
    if n < f.bytes.length then if n = 0 then .tag else .content f.kind
    else partAt fields (n - f.bytes.length)

/-- What is being read where a record of some fields is cut after some bytes. -/
def Record.partAt (fields : List Field) (n : Nat) : Part :=
  if n < 4 then .columnCount else Field.partAt fields (n - 4)

/-! ### Readers of cut bytes -/

section

variable {bytes : List UInt8} {n : Nat}

theorem readBytes_short (part : Part) (short : bytes.length < n) :
    readBytes part n bytes = .error (.truncated part) := by
  rw [readBytes_eq, if_neg (Nat.not_le_of_lt short)]

theorem readNumber_short (part : Part) (short : bytes.length < n) :
    readNumber part n bytes = .error (.truncated part) := by
  rw [readNumber, readBytes_short part short]
  rfl

/-- Counted bytes may be cut in their length or behind it. -/
theorem readCounted_short (part : Part) (fits : bytes.length < 2 ^ 32)
    (short : n < 4 + bytes.length) :
    readCounted part ((littleEndian 4 bytes.length ++ bytes).take n) =
      .error (.truncated part) := by
  unfold readCounted
  rcases Nat.lt_or_ge n 4 with inside | behind
  · rw [readNumber_short]
    rw [List.length_take]
    omega
  · have length : (littleEndian 4 bytes.length).length ≤ n := by
      rw [length_littleEndian]
      exact behind
    have whole : bytes.length % 256 ^ 4 = bytes.length := Nat.mod_eq_of_lt fits
    rw [List.take_append, List.take_of_length_le length, readNumber_littleEndian, whole]
    apply readBytes_short
    rw [length_littleEndian, List.length_take]
    omega

end

namespace Field

variable {f : Field} {v : Value} {n : Nat}

theorem length_content_of_number {width : Nat} {value : Nat → Value}
    (fixed : f.kind.number? = some (width, value)) (fits : f.Fits) :
    f.content.length = width := by
  simp only [Fits, fixed] at fits
  simp only [content, fixed]
  exact fits

/-- A content that is cut is truncated, whatever its bytes. Texts are no exception, as their bytes
are all there before they are looked at. -/
theorem readContent_short (fits : f.Fits) (short : n < f.content.length) :
    readContent f.kind (f.content.take n) = .error (.truncated (.content f.kind)) := by
  have fixed {width : Nat} {value : Nat → Value} (number : f.kind.number? = some (width, value)) :
      readNumber (.content f.kind) width (f.content.take n) =
        .error (.truncated (.content f.kind)) := by
    apply readNumber_short
    rw [List.length_take, ← length_content_of_number number fits]
    omega
  obtain ⟨kind, payload⟩ := f
  cases kind with
  | string =>
    have short' : n < 4 + payload.length := by
      simpa [content, Kind.number?] using short
    have read := readCounted_short (.content .string) fits short'
    simp only [readContent, content, Kind.number?, read]
  | bytes =>
    have short' : n < 4 + payload.length := by
      simpa [content, Kind.number?] using short
    have read := readCounted_short (.content .bytes) fits short'
    simp only [readContent, content, Kind.number?, read, Except.map]
  | null =>
    -- There is no byte to cut off.
    have length : payload.length = 0 := fits
    have inside : n < payload.length := short
    omega
  | _ =>
    have read := fixed rfl
    simp only [readContent, read, Except.map]

/-- A field that is cut is truncated at its tag or in its content. -/
theorem readValue_short (fits : f.Fits) (short : n < f.bytes.length) :
    readValue (f.bytes.take n) =
      .error (.truncated (if n = 0 then .tag else .content f.kind)) := by
  cases n with
  | zero => rfl
  | succ n =>
    have tag : (UInt8.ofNat f.kind.index).toNat = f.kind.index := by cases f.kind <;> rfl
    have inside : n < f.content.length := Nat.lt_of_succ_lt_succ short
    rw [bytes, List.take_succ_cons, readValue, tag, Kind.ofIndex?_index]
    exact readContent_short fits inside

theorem length_le_flatMap (fields : List Field) :
    fields.length ≤ (fields.flatMap Field.bytes).length := by
  induction fields with
  | nil => exact Nat.le_refl 0
  | cons f fields ih =>
    rw [List.flatMap_cons, List.length_append, List.length_cons, bytes, List.length_cons]
    omega

end Field

/-- Of fields that are cut, those before the cut are read, and the one it falls in is truncated. -/
theorem readValues_short {fields : List Field} {row : Row} (taken : Row) {n : Nat}
    (fits : ∀ f ∈ fields, f.Fits)
    (holds : List.Forall₂ (fun f v => f.value? = some v) fields row)
    (short : n < (fields.flatMap Field.bytes).length) :
    readValues fields.length taken ((fields.flatMap Field.bytes).take n) =
      .error (.truncated (Field.partAt fields n)) := by
  induction holds generalizing taken n with
  | nil => exact absurd short (Nat.not_lt_zero n)
  | @cons f v fields row held holds ih =>
    obtain ⟨first, others⟩ := List.forall_mem_cons.1 fits
    rw [List.flatMap_cons, List.length_append] at short
    rw [List.length_cons, readValues, List.flatMap_cons, List.take_append, Field.partAt]
    rcases Nat.lt_or_ge n f.bytes.length with here | later
    · have none : n - f.bytes.length = 0 := Nat.sub_eq_zero_of_le (Nat.le_of_lt here)
      rw [none, List.take_zero, List.append_nil, Field.readValue_short first here, if_pos here]
    · have read : readValue (f.bytes ++ (fields.flatMap Field.bytes).take (n - f.bytes.length)) =
          .ok (v, (fields.flatMap Field.bytes).take (n - f.bytes.length)) :=
        readValue_eq_ok_iff.2 ⟨f, first, rfl, held⟩
      rw [List.take_of_length_le later, read, if_neg (Nat.not_lt_of_le later)]
      apply ih _ others
      omega

/-- Every value takes up a byte at least. -/
theorem readValues_count_le {count : Nat} {taken row : Row} {bytes rest : List UInt8}
    (h : readValues count taken bytes = .ok (row, rest)) : count ≤ bytes.length := by
  obtain ⟨fields, values, rfl, -, rfl, -, -⟩ := readValues_eq_ok_iff.1 h
  have bound := Field.length_le_flatMap fields
  rw [List.length_append]
  omega

/-! ### Records -/

namespace Record.Consists

variable {r : Record} {fields : List Field} {row : Row} {n : Nat}

theorem bigEndian_length (consists : r.Consists fields) :
    ofBigEndian (bigEndian 4 fields.length) = fields.length := by
  rw [ofBigEndian_bigEndian]
  exact Nat.mod_eq_of_lt consists.count

/-- A record that is cut short is truncated. -/
theorem ofBytes_take (consists : r.Consists fields)
    (holds : List.Forall₂ (fun f v => f.value? = some v) fields row) (short : n < r.size) :
    Row.ofBytes (r.data.toList.take n) = .error (.truncated (Record.partAt fields n)) := by
  have size : r.size = 4 + (fields.flatMap Field.bytes).length := by
    rw [← length_bigEndian 4 fields.length, ← List.length_append, ← consists.bytes]
    rfl
  unfold Row.ofBytes Record.partAt
  rcases Nat.lt_or_ge n 4 with inside | behind
  · rw [readBytes_short, if_pos inside]
    rw [List.length_take]
    omega
  · have count := readBytes_append .columnCount (bigEndian 4 fields.length)
      ((fields.flatMap Field.bytes).take (n - 4))
    have inside : n - 4 < (fields.flatMap Field.bytes).length := by omega
    have values := readValues_short [] consists.fits holds inside
    rw [length_bigEndian] at count
    rw [consists.bytes, List.take_append, length_bigEndian,
      List.take_of_length_le (by rw [length_bigEndian]; exact behind), count,
      if_neg (Nat.not_lt_of_le behind)]
    simp only [consists.bigEndian_length, values]

/-- Bytes behind a record are left over. -/
theorem ofBytes_append (consists : r.Consists fields)
    (holds : List.Forall₂ (fun f v => f.value? = some v) fields row) {rest : List UInt8}
    (more : rest ≠ []) :
    Row.ofBytes (r.data.toList ++ rest) = .error (.trailingBytes rest.length) := by
  have count := readBytes_append .columnCount (bigEndian 4 fields.length)
    (fields.flatMap Field.bytes ++ rest)
  have values : readValues fields.length [] (fields.flatMap Field.bytes ++ rest) =
      .ok (row, rest) :=
    readValues_eq_ok_iff.2 ⟨fields, row, rfl, consists.fits, rfl, holds, rfl⟩
  rw [length_bigEndian] at count
  rw [consists.bytes, List.append_assoc, Row.ofBytes, count]
  simp only [consists.bigEndian_length, values]

end Record.Consists

/-- A record with fewer bytes behind its count than it counts columns is refused. -/
theorem Row.decode_of_count {r : Record} (whole : 4 ≤ r.size)
    (short : r.size - 4 < ofBigEndian (r.data.toList.take 4)) :
    ∃ e, Row.decode r = .error e := by
  have split : r.data.toList = r.data.toList.take 4 ++ r.data.toList.drop 4 :=
    (List.take_append_drop 4 r.data.toList).symm
  have count := readBytes_append .columnCount (r.data.toList.take 4) (r.data.toList.drop 4)
  rw [List.length_take_of_le whole, ← split] at count
  have behind : (r.data.toList.drop 4).length = r.size - 4 := List.length_drop
  unfold Row.decode Row.ofBytes
  rw [count]
  dsimp only
  cases values : readValues (ofBigEndian (r.data.toList.take 4)) [] (r.data.toList.drop 4) with
  | error e => exact ⟨e, rfl⟩
  | ok found =>
    have bound := readValues_count_le values
    omega

/-- A record that is read is the beginning of no other record. Cut anywhere it is truncated, and the
error names the field where the cut falls; with any bytes behind it there are as many trailing
bytes. A record that counts more columns than it has bytes for is refused. -/
theorem Row.decode_extent (r : Record) :
    (∀ row, Row.decode r = .ok row →
      (∃ fields, r.Consists fields ∧ ∀ p s : Record, r = p ++ s → s.size ≠ 0 →
        Row.decode p = .error (.truncated (Record.partAt fields p.size))) ∧
      ∀ s : Record, s.size ≠ 0 → Row.decode (r ++ s) = .error (.trailingBytes s.size)) ∧
    (4 ≤ r.size → r.size - 4 < ofBigEndian (r.data.toList.take 4) →
      ∃ e, Row.decode r = .error e) := by
  refine ⟨fun row h => ?_, Row.decode_of_count⟩
  obtain ⟨fields, consists, holds⟩ := Row.decode_eq_ok_iff.1 h
  refine ⟨⟨fields, consists, fun p s parts proper => ?_⟩, fun s proper => ?_⟩
  · have short : p.size < r.size := by
      rw [parts, ByteArray.size_append]
      omega
    have front : r.data.toList.take p.size = p.data.toList := by
      rw [parts, ByteArray.data_append, Array.toList_append]
      exact List.take_left
    have cut := consists.ofBytes_take holds short
    rw [front] at cut
    exact cut
  · have more : s.data.toList ≠ [] := by
      intro none
      exact proper (congrArg List.length none)
    have left := consists.ofBytes_append holds more
    rw [Row.decode, ByteArray.data_append, Array.toList_append]
    exact left

/-- A record is cut inside a letter of two bytes and extended by a byte that is no tag, and another
counts one column more than it has bytes for. -/
theorem Row.decode_extent_letter :
    let p : Record := ⟨#[0, 0, 0, 2, 0, 9, 2, 0, 0, 0, 195]⟩
    let r : Record := ⟨#[0, 0, 0, 2, 0, 9, 2, 0, 0, 0, 195, 169]⟩
    let wide : Record := ⟨#[0, 0, 0, 3, 0, 0]⟩
    Row.decode r = .ok [.null, .string "é"] ∧ r = p ++ ⟨#[169]⟩ ∧
      (∃ fields, r.Consists fields ∧
        Row.decode p = .error (.truncated (Record.partAt fields p.size))) ∧
      Row.decode (r ++ ⟨#[99]⟩) = .error (.trailingBytes 1) ∧
      wide.size - 4 < ofBigEndian (wide.data.toList.take 4) ∧
      ∃ e, Row.decode wide = .error e := by
  intro p r wide
  have read : Row.decode r = .ok [.null, .string "é"] := by rfl
  have parts : r = p ++ ⟨#[169]⟩ := by decide
  have few : wide.size - 4 < ofBigEndian (wide.data.toList.take 4) := by decide
  obtain ⟨⟨fields, consists, cut⟩, extended⟩ := (Row.decode_extent r).1 _ read
  exact ⟨read, parts, ⟨fields, consists, cut p ⟨#[169]⟩ parts (by decide)⟩,
    extended ⟨#[99]⟩ (by decide), few, (Row.decode_extent wide).2 (by decide) few⟩

end ResultSink
