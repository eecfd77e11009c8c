import ResultSink.Proofs.Floating.Canonical
import ResultSink.Record.Decode

/-! Records read back. A row whose lengths fit in four bytes is read back from its record in
canonical form, so two such rows share a record exactly if they share a canonical form. By bits,
canonical form changes nothing but the words of negative zeros and of NaNs. Every reader
is followed over the content it reads with any bytes behind it, which is what makes the content of a
value end where the next value begins. -/

namespace ResultSink

/-- The length of a text or of a byte string fits in four bytes. -/
def Value.LengthFits : Value → Prop
  | .string s => s.utf8ByteSize < 2 ^ 32
  | .bytes b => b.size < 2 ^ 32
  | _ => True

/-- The number of columns of a row, and the lengths in it, fit in four bytes. -/
structure Row.LengthsFit (r : Row) : Prop where
  columns : r.length < 2 ^ 32
  values : ∀ v ∈ r, v.LengthFits

/-! ### Canonical forms -/

namespace Floating

variable {f : Format}

theorem ofBits_toNat (x : Floating f) : ofBits x.word.toNat = x := by
  simp [ofBits]

theorem not_isNaN_of_isZero {x : Floating f} (h : x.isZero = true) : x.isNaN = false := by
  have magnitude : x.magnitude = 0 := of_decide_eq_true h
  simp [isNaN, magnitude]

theorem canonical_canonical (hn : (nan : Floating f).isNaN = true)
    (hz : (zero : Floating f).isZero = true) (x : Floating f) :
    x.canonical.canonical = x.canonical := by
  unfold canonical
  by_cases hx : x.isNaN
  · simp [hx, hn]
  · by_cases h0 : x.isZero
    · simp [hx, h0, hz, not_isNaN_of_isZero hz]
    · simp [hx, h0]

end Floating

theorem Value.canonical_canonical (v : Value) : v.canonical.canonical = v.canonical := by
  cases v with
  | float x => exact congrArg Value.float (x.canonical_canonical (by decide) (by decide))
  | double x => exact congrArg Value.double (x.canonical_canonical (by decide) (by decide))
  | _ => rfl

theorem Value.encode_canonical (v : Value) : v.canonical.encode = v.encode := by
  cases v with
  | float x =>
    have same : x.canonical.canonical = x.canonical :=
      x.canonical_canonical (by decide) (by decide)
    simp [Value.canonical, Value.encode, Value.content, Value.kind, same]
  | double x =>
    have same : x.canonical.canonical = x.canonical :=
      x.canonical_canonical (by decide) (by decide)
    simp [Value.canonical, Value.encode, Value.content, Value.kind, same]
  | _ => rfl

/-- The value with the canonical bits of a floating-point number in place of its word. -/
def Value.withCanonicalBits : Value → Value
  | .float x => .float ⟨x.canonicalBits⟩
  | .double x => .double ⟨x.canonicalBits⟩
  | v => v

theorem Value.canonical_eq_withCanonicalBits (v : Value) : v.canonical = v.withCanonicalBits := by
  cases v with
  | float x => exact congrArg (fun word => Value.float ⟨word⟩) x.word_canonical
  | double x => exact congrArg (fun word => Value.double ⟨word⟩) x.word_canonical
  | _ => rfl

theorem Row.canonical_eq_map (r : Row) : r.canonical = r.map Value.withCanonicalBits :=
  List.map_congr_left fun v _ => v.canonical_eq_withCanonicalBits

theorem Row.canonical_canonical (r : Row) : r.canonical.canonical = r.canonical := by
  simp [Row.canonical, Value.canonical_canonical]

/-- A row and its canonical form are written alike. -/
theorem Row.encode_canonical (r : Row) : r.canonical.encode = r.encode := by
  simp [Row.encode, Row.canonical, List.flatMap_map, Value.encode_canonical]

/-! ### Values -/

/-- A kind whose content is one number finds it where it was written. -/
theorem readContent_number (kind : Kind) (width : Nat) (value : Nat → Value)
    (read : ∀ bytes, readContent kind bytes =
      (readNumber (.content kind) width bytes).map fun (n, rest) => (value n, rest))
    {n : Nat} (h : n < 256 ^ width) (rest : List UInt8) :
    readContent kind (littleEndian width n ++ rest) = .ok (value n, rest) := by
  rw [read, readNumber_eq_ok_iff.2 ⟨h, rfl⟩]
  rfl

/-- A content is read back in canonical form, and nothing behind it is touched. -/
theorem readContent_content {v : Value} (h : v.LengthFits) (rest : List UInt8) :
    readContent v.kind (v.content ++ rest) = .ok (v.canonical, rest) := by
  cases v with
  | null => rfl
  | boolean b => cases b <;> rfl
  | tinyInt n =>
    refine (readContent_number .tinyInt 1 (fun n => .tinyInt (Int8.ofNat n)) (fun _ => rfl)
      n.toBitVec.isLt rest).trans ?_
    simp [Value.canonical]
  | smallInt n =>
    refine (readContent_number .smallInt 2 (fun n => .smallInt (Int16.ofNat n)) (fun _ => rfl)
      n.toBitVec.isLt rest).trans ?_
    simp [Value.canonical]
  | int n =>
    refine (readContent_number .int 4 (fun n => .int (Int32.ofNat n)) (fun _ => rfl)
      n.toBitVec.isLt rest).trans ?_
    simp [Value.canonical]
  | bigInt n =>
    refine (readContent_number .bigInt 8 (fun n => .bigInt (Int64.ofNat n)) (fun _ => rfl)
      n.toBitVec.isLt rest).trans ?_
    simp [Value.canonical]
  | float x =>
    refine (readContent_number .float 4 (fun n => .float (Floating.ofBits n)) (fun _ => rfl)
      x.canonical.word.isLt rest).trans ?_
    rw [Floating.ofBits_toNat, Value.canonical]
  | double x =>
    refine (readContent_number .double 8 (fun n => .double (Floating.ofBits n)) (fun _ => rfl)
      x.canonical.word.isLt rest).trans ?_
    rw [Floating.ofBits_toNat, Value.canonical]
  | decimal n scale =>
    have low := n.toNat_complement_lt
    have high := scale.toNat_lt
    have fits : (n.toInt % 2 ^ 128).toNat + 2 ^ 128 * scale.toNat < 256 ^ 17 := by omega
    have top : ((n.toInt % 2 ^ 128).toNat + 2 ^ 128 * scale.toNat) / 2 ^ 128 = scale.toNat := by
      omega
    rw [Value.content, Int128.bytes_append]
    refine (readContent_number .decimal 17
      (fun n => .decimal (Int128.ofComplement n) (UInt8.ofNat (n / 2 ^ 128)))
      (fun _ => rfl) fits rest).trans ?_
    simp only [Int128.ofComplement_add, top, UInt8.ofNat_toNat, Value.canonical]
  | string s =>
    have back : String.fromUTF8? s.toByteArray = some s := dif_pos s.isValidUTF8
    have read := readCounted_append (.content .string) s.toUTF8.data.toList rest h
    have content : (Value.string s).content ++ rest =
        littleEndian 4 s.toUTF8.data.toList.length ++ (s.toUTF8.data.toList ++ rest) := by
      rw [← List.append_assoc]
      rfl
    rw [content]
    simp only [readContent, Value.kind, read, toByteArray_toList]
    rw [String.toUTF8_eq_toByteArray, back]
    rfl
  | bytes b =>
    have read := readCounted_append (.content .bytes) b.data.toList rest h
    have content : (Value.bytes b).content ++ rest =
        littleEndian 4 b.data.toList.length ++ (b.data.toList ++ rest) := by
      rw [← List.append_assoc]
      rfl
    rw [content]
    simp only [readContent, Value.kind, read, Except.map, toByteArray_toList, Value.canonical]
  | date d =>
    refine (readContent_number .date 4 (fun n => .date (Int32.ofNat n)) (fun _ => rfl)
      d.toBitVec.isLt rest).trans ?_
    simp [Value.canonical]
  | time t =>
    refine (readContent_number .time 8 (fun n => .time (Int64.ofNat n)) (fun _ => rfl)
      t.toBitVec.isLt rest).trans ?_
    simp [Value.canonical]
  | timestamp t =>
    refine (readContent_number .timestamp 8 (fun n => .timestamp (Int64.ofNat n)) (fun _ => rfl)
      t.toBitVec.isLt rest).trans ?_
    simp [Value.canonical]
  | bit n =>
    refine (readContent_number .bit 8 (fun n => .bit (UInt64.ofNat n)) (fun _ => rfl)
      n.toNat_lt rest).trans ?_
    simp [Value.canonical]

theorem readValue_encode {v : Value} (h : v.LengthFits) (rest : List UInt8) :
    readValue (v.encode ++ rest) = .ok (v.canonical, rest) := by
  have tag : (UInt8.ofNat v.kind.index).toNat = v.kind.index := by cases v <;> rfl
  rw [Value.encode, List.cons_append, readValue, tag, Kind.ofIndex?_index]
  exact readContent_content h rest

/-! ### Rows -/

/-- Values written one behind another are read back one by one. -/
theorem readValues_flatMap (r : Row) (h : ∀ v ∈ r, v.LengthFits) (taken : Row)
    (rest : List UInt8) :
    readValues r.length taken (r.flatMap Value.encode ++ rest) =
      .ok (taken.reverse ++ r.canonical, rest) := by
  induction r generalizing taken with
  | nil => simp [readValues, Row.canonical]
  | cons v r ih =>
    have first := readValue_encode (h v List.mem_cons_self) (r.flatMap Value.encode ++ rest)
    have others := ih (fun w hw => h w (List.mem_cons_of_mem v hw)) (v.canonical :: taken)
    rw [List.length_cons, List.flatMap_cons, List.append_assoc, readValues, first]
    simpa [Row.canonical] using others

/-- A row is read back from its record in canonical form. -/
theorem Row.decode_encode {r : Row} (h : r.LengthsFit) : Row.decode r.encode = .ok r.canonical := by
  have count := readBytes_append .columnCount (bigEndian 4 r.length) (r.flatMap Value.encode)
  have fits : r.length % 256 ^ 4 = r.length := Nat.mod_eq_of_lt h.columns
  have columns : ofBigEndian (bigEndian 4 r.length) = r.length := by
    rw [ofBigEndian_bigEndian, fits]
  have values := readValues_flatMap r h.values [] []
  rw [length_bigEndian] at count
  rw [List.append_nil] at values
  simp [Row.decode, Row.encode, Row.ofBytes, count, columns, values]

/-- Rows share a record exactly if they share a canonical form. -/
theorem Row.encode_eq_iff {a b : Row} (ha : a.LengthsFit) (hb : b.LengthsFit) :
    a.encode = b.encode ↔ a.canonical = b.canonical := by
  constructor
  · intro same
    have read := Row.decode_encode ha
    rw [same, Row.decode_encode hb] at read
    exact (Except.ok.inj read).symm
  · intro same
    rw [← a.encode_canonical, same, b.encode_canonical]

/-! ### The lengths of small records -/

theorem Value.lengthFits_of_encode {v : Value} (h : v.encode.length < 2 ^ 32) : v.LengthFits := by
  cases v with
  | string s =>
    have size : (Value.string s).encode.length = s.utf8ByteSize + 4 + 1 := by
      simp [Value.encode, Value.content, Nat.add_comm]
    show s.utf8ByteSize < 2 ^ 32
    omega
  | bytes b =>
    have size : (Value.bytes b).encode.length = b.size + 4 + 1 := by
      simp [Value.encode, Value.content, Nat.add_comm]
    show b.size < 2 ^ 32
    omega
  | _ => trivial

theorem Row.length_le_flatMap (r : Row) : r.length ≤ (r.flatMap Value.encode).length := by
  induction r with
  | nil => exact Nat.le_refl 0
  | cons v r ih =>
    rw [List.flatMap_cons, List.length_append, List.length_cons, Value.encode, List.length_cons]
    omega

/-- The lengths in a row fit in four bytes if the size of its record does. -/
theorem Row.lengthsFit_of_size {r : Row} (h : r.encode.size < 2 ^ 32) : r.LengthsFit := by
  have size : r.encode.size = 4 + (r.flatMap Value.encode).length := by
    simp [Row.encode]
  refine ⟨?_, fun v hv => Value.lengthFits_of_encode ?_⟩
  · have columns := r.length_le_flatMap
    omega
  · obtain ⟨front, back, rfl⟩ := List.append_of_mem hv
    rw [List.flatMap_append, List.flatMap_cons, List.length_append, List.length_append] at size
    omega

/-! ### One encoder for many rows -/

namespace Encoder

theorem buffer_put (e : Encoder) (bytes : List UInt8) :
    (e.put bytes).buffer = e.buffer ++ bytes.toByteArray := rfl

theorem buffer_foldl_put (r : Row) (e : Encoder) :
    (r.foldl (fun e v => e.put v.encode) e).buffer =
      e.buffer ++ (r.flatMap Value.encode).toByteArray := by
  induction r generalizing e with
  | nil => simp
  | cons v r ih =>
    rw [List.foldl_cons, ih, buffer_put, List.flatMap_cons, List.toByteArray_append,
      ByteArray.append_assoc]

/-- From an empty buffer a row gives its record and leaves the buffer empty. -/
theorem encode_empty {e : Encoder} (h : e.buffer = .empty) (r : Row) :
    e.encode r = (r.encode, { buffer := .empty }) := by
  have filled : (r.foldl (fun e v => e.put v.encode) (e.put (bigEndian 4 r.length))).buffer =
      r.encode := by
    rw [buffer_foldl_put, buffer_put, h, ByteArray.empty_append, ← List.toByteArray_append]
    rfl
  rw [encode, filled]

/-- The records of rows written one after another are the records of each. -/
theorem encodeAll_empty {e : Encoder} (h : e.buffer = .empty) (rows : List Row) :
    (e.encodeAll rows).1 = rows.map Row.encode ∧ (e.encodeAll rows).2.buffer = .empty := by
  induction rows generalizing e with
  | nil => exact ⟨rfl, h⟩
  | cons r rows ih =>
    rw [encodeAll, encode_empty h r]
    obtain ⟨records, buffer⟩ := ih (e := { buffer := .empty }) rfl
    exact ⟨congrArg (r.encode :: ·) records, buffer⟩

end Encoder

/-- A row is read back from its record in canonical form, which is the row itself but for the bits
of negative zeros and of NaNs. Rows share a record exactly if they share a canonical form, and the
record does not depend on what its encoder wrote before. -/
theorem Row.record_faithful {a b : Row} (ha : a.LengthsFit) (hb : b.LengthsFit) :
    Row.decode a.encode = .ok a.canonical ∧
      a.canonical = a.map Value.withCanonicalBits ∧
      (a.encode = b.encode ↔ a.canonical = b.canonical) ∧
      ∀ earlier : List Row, ((({} : Encoder).encodeAll earlier).2.encode a).1 = a.encode := by
  refine ⟨Row.decode_encode ha, a.canonical_eq_map, Row.encode_eq_iff ha hb, fun earlier => ?_⟩
  have empty := (Encoder.encodeAll_empty (e := {}) rfl earlier).2
  rw [Encoder.encode_empty empty]

/-- Two rows that differ in the sign of a zero and in the word of a NaN share their record. The
number 1.5 in them, in either format, is read back as it was written. -/
theorem Row.record_faithful_zeros_and_nans :
    let a : Row := [.double (.ofBits 0x8000000000000000), .double (.ofBits 0x3ff8000000000000),
      .string "é", .float (.ofBits 0xffc00001), .float (.ofBits 0x3fc00000), .null]
    let b : Row := [.double (.ofBits 0), .double (.ofBits 0x3ff8000000000000),
      .string "é", .float (.ofBits 0x7fc00000), .float (.ofBits 0x3fc00000), .null]
    a.LengthsFit ∧ b.LengthsFit ∧ Row.decode a.encode = .ok b ∧ a.encode = b.encode ∧
      ((({} : Encoder).encodeAll [b, a]).2.encode a).1 = a.encode := by
  intro a b
  have ha : a.LengthsFit := ⟨by decide, by simp [a, Value.LengthFits]; decide⟩
  have hb : b.LengthsFit := ⟨by decide, by simp [b, Value.LengthFits]; decide⟩
  obtain ⟨read, bits, share, earlier⟩ := Row.record_faithful ha hb
  have same : a.map Value.withCanonicalBits = b := by decide
  have form : a.canonical = b := bits.trans same
  exact ⟨ha, hb, form ▸ read, share.2 (by decide), earlier [b, a]⟩

end ResultSink
