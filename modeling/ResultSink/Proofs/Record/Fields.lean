import Mathlib.Data.List.Forall2
import ResultSink.Proofs.Record.RoundTrip

/-! Records as fields. A field is a kind and the bytes that hold a value of it, and
`Record.Consists` says that a record is the number of its fields and one field behind another. A
record is read as a row exactly if it consists of fields that hold the values of the row. Written
again, the row takes up as many bytes, and they are the same bytes unless a truth value was not
stored as 0 or 1 or a floating-point number not by its canonical bits. -/

namespace ResultSink

/-- The width of a kind whose values are held in one number, and the value that a number holds.
Texts and byte strings are not held in a number. -/
def Kind.number? : Kind → Option (Nat × (Nat → Value))
  | null => some (0, fun _ => .null)
  | boolean => some (1, fun n => .boolean (n ≠ 0))
  | tinyInt => some (1, fun n => .tinyInt (Int8.ofNat n))
  | smallInt => some (2, fun n => .smallInt (Int16.ofNat n))
  | int => some (4, fun n => .int (Int32.ofNat n))
  | bigInt => some (8, fun n => .bigInt (Int64.ofNat n))
  | float => some (4, fun n => .float (Floating.ofBits n))
  | double => some (8, fun n => .double (Floating.ofBits n))
  | decimal => some (17, fun n => .decimal (Int128.ofComplement n) (UInt8.ofNat (n / 2 ^ 128)))
  | string | bytes => none
  | date => some (4, fun n => .date (Int32.ofNat n))
  | time => some (8, fun n => .time (Int64.ofNat n))
  | timestamp => some (8, fun n => .timestamp (Int64.ofNat n))
  | bit => some (8, fun n => .bit (UInt64.ofNat n))

/-- A field of a record: a kind, and the bytes that hold a value of it. -/
structure Field where
  kind : Kind
  payload : List UInt8
  deriving DecidableEq

namespace Field

/-- The payload, behind its length if the kind leaves that open. -/
def content (f : Field) : List UInt8 :=
  match f.kind.number? with
  | some _ => f.payload
  | none => littleEndian 4 f.payload.length ++ f.payload

/-- The tag of a field and its content. -/
def bytes (f : Field) : List UInt8 := UInt8.ofNat f.kind.index :: f.content

/-- The payload is as long as its kind asks, or its length fits in four bytes. -/
def Fits (f : Field) : Prop :=
  match f.kind.number? with
  | some (width, _) => f.payload.length = width
  | none => f.payload.length < 2 ^ 32

/-- The value that a field holds. A text is one only if its bytes are valid. -/
def value? (f : Field) : Option Value :=
  match f.kind with
  | .string => (String.fromUTF8? f.payload.toByteArray).map .string
  | .bytes => some (.bytes f.payload.toByteArray)
  | kind => kind.number?.map fun (_, value) => value (ofLittleEndian f.payload)

/-- The byte of a truth value is 0 or 1, and a floating-point number has its canonical bits. -/
def IsCanonical (f : Field) : Prop :=
  let n := ofLittleEndian f.payload
  match f.kind with
  | .boolean => ∀ b ∈ f.payload, b = 0 ∨ b = 1
  | .float => (Floating.ofBits n : Single).canonicalBits = (Floating.ofBits n : Single).word
  | .double => (Floating.ofBits n : Double).canonicalBits = (Floating.ofBits n : Double).word
  | _ => True

end Field

/-- A record consists of fields: it is their number in four bytes, and one behind another. -/
structure Record.Consists (r : Record) (fields : List Field) : Prop where
  count : fields.length < 2 ^ 32
  fits : ∀ f ∈ fields, f.Fits
  bytes : r.data.toList = bigEndian 4 fields.length ++ fields.flatMap Field.bytes

/-! ### Reading fields -/

section

variable {kind : Kind} {bytes rest : List UInt8} {v : Value}

/-- A value that is held in a number is read from as many bytes, whatever they are. -/
theorem readContent_fixed {width : Nat} {value : Nat → Value}
    (fixed : kind.number? = some (width, value))
    (holds : ∀ payload, Field.value? ⟨kind, payload⟩ = some (value (ofLittleEndian payload)))
    (read : readContent kind bytes =
      (readNumber (.content kind) width bytes).map fun (n, rest) => (value n, rest)) :
    readContent kind bytes = .ok (v, rest) ↔
      ∃ f : Field, f.kind = kind ∧ f.Fits ∧ bytes = f.content ++ rest ∧ f.value? = some v := by
  have layout (payload : List UInt8) : Field.content ⟨kind, payload⟩ = payload := by
    simp [Field.content, fixed]
  have length (payload : List UInt8) : Field.Fits ⟨kind, payload⟩ ↔ payload.length = width := by
    simp [Field.Fits, fixed]
  rw [read]
  constructor
  · intro h
    cases hn : readNumber (.content kind) width bytes with
    | error e =>
      rw [hn] at h
      cases h
    | ok found =>
      obtain ⟨n, after⟩ := found
      rw [hn] at h
      cases h
      obtain ⟨small, rfl⟩ := readNumber_eq_ok_iff.1 hn
      refine ⟨⟨kind, littleEndian width n⟩, rfl, (length _).2 (length_littleEndian _ _), ?_, ?_⟩
      · rw [layout]
      · rw [holds, ofLittleEndian_littleEndian, Nat.mod_eq_of_lt small]
  · rintro ⟨f, rfl, fits, rfl, held⟩
    have width_eq : f.payload.length = width := (length f.payload).1 fits
    have payload : f.content = f.payload := layout f.payload
    have number : readNumber (.content f.kind) width (f.payload ++ rest) =
        .ok (ofLittleEndian f.payload, rest) := by
      rw [readNumber_eq_ok_iff, ← width_eq, littleEndian_ofLittleEndian]
      exact ⟨ofLittleEndian_lt f.payload, rfl⟩
    rw [payload, number]
    cases (holds f.payload).symm.trans held
    rfl

/-- A content is read as a value exactly if it is that of a field that holds the value. -/
theorem readContent_eq_ok_iff :
    readContent kind bytes = .ok (v, rest) ↔
      ∃ f : Field, f.kind = kind ∧ f.Fits ∧ bytes = f.content ++ rest ∧ f.value? = some v := by
  cases kind with
  | string =>
    constructor
    · intro h
      unfold readContent at h
      dsimp only at h
      split at h
      · cases h
      · next taken after hr =>
        obtain ⟨small, rfl⟩ := readCounted_eq_ok_iff.1 hr
        split at h
        · next s valid =>
          cases h
          refine ⟨⟨.string, taken⟩, rfl, small, ?_, ?_⟩
          · exact (List.append_assoc _ _ _).symm
          · simp [Field.value?, valid]
        · cases h
    · rintro ⟨⟨_, payload⟩, rfl, small, rfl, held⟩
      obtain ⟨s, valid, rfl⟩ := Option.map_eq_some_iff.1 held
      have read := readCounted_append (.content .string) payload rest small
      rw [← List.append_assoc] at read
      simp only [readContent, Field.content, Kind.number?, read, valid]
  | bytes =>
    constructor
    · intro h
      unfold readContent at h
      dsimp only at h
      cases hr : readCounted (.content .bytes) bytes with
      | error e =>
        rw [hr] at h
        cases h
      | ok found =>
        rw [hr] at h
        cases h
        obtain ⟨small, rfl⟩ := readCounted_eq_ok_iff.1 hr
        refine ⟨⟨.bytes, found.1⟩, rfl, small, ?_, rfl⟩
        exact (List.append_assoc _ _ _).symm
    · rintro ⟨⟨_, payload⟩, rfl, small, rfl, held⟩
      cases held
      have read := readCounted_append (.content .bytes) payload rest small
      rw [← List.append_assoc] at read
      simp only [readContent, Field.content, Kind.number?, read, Except.map]
  | _ => exact readContent_fixed rfl (fun _ => rfl) rfl

theorem readValue_eq_ok_iff :
    readValue bytes = .ok (v, rest) ↔
      ∃ f : Field, f.Fits ∧ bytes = f.bytes ++ rest ∧ f.value? = some v := by
  constructor
  · intro h
    unfold readValue at h
    split at h
    · cases h
    · next tag content =>
      split at h
      · next kind known =>
        obtain ⟨f, rfl, fits, rfl, held⟩ := readContent_eq_ok_iff.1 h
        refine ⟨f, fits, ?_, held⟩
        have same : UInt8.ofNat f.kind.index = tag := by
          rw [Kind.index_of_ofIndex? known, UInt8.ofNat_toNat]
        rw [Field.bytes, same]
        rfl
      · cases h
  · rintro ⟨f, fits, rfl, held⟩
    have tag : (UInt8.ofNat f.kind.index).toNat = f.kind.index := by cases f.kind <;> rfl
    rw [Field.bytes, List.cons_append, readValue, tag, Kind.ofIndex?_index]
    exact readContent_eq_ok_iff.2 ⟨f, rfl, fits, rfl, held⟩

/-- Values are read exactly from fields that hold them, one behind another. -/
theorem readValues_eq_ok_iff {count : Nat} {taken row : Row} :
    readValues count taken bytes = .ok (row, rest) ↔
      ∃ fields values, fields.length = count ∧ (∀ f ∈ fields, f.Fits) ∧
        bytes = fields.flatMap Field.bytes ++ rest ∧
        List.Forall₂ (fun f v => f.value? = some v) fields values ∧
        row = taken.reverse ++ values := by
  induction count generalizing taken bytes with
  | zero =>
    constructor
    · intro h
      cases h
      exact ⟨[], [], rfl, List.forall_mem_nil _, rfl, .nil, (List.append_nil _).symm⟩
    · rintro ⟨fields, values, none, -, rfl, held, rfl⟩
      obtain rfl := List.length_eq_zero_iff.1 none
      cases held
      rw [List.append_nil]
      rfl
  | succ count ih =>
    constructor
    · intro h
      rw [readValues] at h
      split at h
      · next v after hv =>
        obtain ⟨f, fits, rfl, held⟩ := readValue_eq_ok_iff.1 hv
        obtain ⟨fields, values, rfl, others, rfl, holds, rfl⟩ := ih.1 h
        refine ⟨f :: fields, v :: values, rfl, List.forall_mem_cons.2 ⟨fits, others⟩, ?_,
          .cons held holds, ?_⟩
        · rw [List.flatMap_cons, List.append_assoc]
        · rw [List.reverse_cons, List.append_assoc, List.singleton_append]
      · cases h
    · rintro ⟨fields, values, length, fits, rfl, holds, rfl⟩
      cases holds with
      | nil => cases length
      | @cons f v fields values held holds =>
        obtain ⟨first, others⟩ := List.forall_mem_cons.1 fits
        have read : readValue ((f :: fields).flatMap Field.bytes ++ rest) =
            .ok (v, fields.flatMap Field.bytes ++ rest) := by
          rw [readValue_eq_ok_iff, List.flatMap_cons, List.append_assoc]
          exact ⟨f, first, rfl, held⟩
        rw [readValues, read]
        apply ih.2
        refine ⟨fields, values, Nat.succ.inj length, others, rfl, holds, ?_⟩
        rw [List.reverse_cons, List.append_assoc, List.singleton_append]

/-- A record is read as a row exactly if it consists of fields that hold the values of the row. -/
theorem Row.decode_eq_ok_iff {r : Record} {row : Row} :
    Row.decode r = .ok row ↔
      ∃ fields, r.Consists fields ∧ List.Forall₂ (fun f v => f.value? = some v) fields row := by
  constructor
  · intro h
    unfold Row.decode Row.ofBytes at h
    split at h
    · cases h
    · next count after hc =>
      obtain ⟨length, front⟩ := readBytes_eq_ok_iff.1 hc
      split at h
      · cases h
      · next row' hv =>
        cases h
        obtain ⟨fields, values, columns, fits, rfl, holds, rfl⟩ := readValues_eq_ok_iff.1 hv
        have back := littleEndian_ofLittleEndian count.reverse
        rw [List.length_reverse, length] at back
        have small := ofLittleEndian_lt count.reverse
        rw [List.length_reverse, length] at small
        refine ⟨fields, ⟨?_, fits, ?_⟩, holds⟩
        · rw [columns]
          exact small
        · rw [front, columns, bigEndian, ofBigEndian, back, List.reverse_reverse, List.append_nil]
      · cases h
  · rintro ⟨fields, consists, holds⟩
    have count := readBytes_append .columnCount (bigEndian 4 fields.length)
      (fields.flatMap Field.bytes)
    have fits : fields.length % 256 ^ 4 = fields.length := Nat.mod_eq_of_lt consists.count
    have columns : ofBigEndian (bigEndian 4 fields.length) = fields.length := by
      rw [ofBigEndian_bigEndian, fits]
    have values : readValues fields.length [] (fields.flatMap Field.bytes) = .ok (row, []) :=
      readValues_eq_ok_iff.2
        ⟨fields, row, rfl, consists.fits, (List.append_nil _).symm, holds, rfl⟩
    rw [length_bigEndian] at count
    rw [Row.decode, consists.bytes, Row.ofBytes, count]
    simp only [columns, values]

end

/-! ### Writing values again -/

theorem toUTF8_of_fromUTF8? {b : ByteArray} {s : String} (valid : String.fromUTF8? b = some s) :
    s.toUTF8 = b := by
  unfold String.fromUTF8? at valid
  split at valid
  · cases valid
    rfl
  · cases valid

/-- A floating-point number is written as it was read exactly if its bits are canonical. -/
theorem littleEndian_canonical_iff {format : Format} {width : Nat}
    (whole : 256 ^ width = 2 ^ format.width) {payload : List UInt8}
    (fits : payload.length = width) :
    let x : Floating format := .ofBits (ofLittleEndian payload)
    littleEndian width x.canonical.word.toNat = payload ↔ x.canonicalBits = x.word := by
  intro x
  have small := ofLittleEndian_lt payload
  have back := littleEndian_ofLittleEndian payload
  rw [fits] at small back
  have word : x.word.toNat = ofLittleEndian payload := by
    rw [whole] at small
    exact Nat.mod_eq_of_lt small
  have same : payload = littleEndian width x.word.toNat := by rw [word, back]
  have bound (y : BitVec format.width) : y.toNat < 256 ^ width := whole ▸ y.isLt
  rw [x.word_canonical, BitVec.toNat_eq, ← littleEndian_inj (bound _) (bound _), ← same]

namespace Field

variable {f : Field} {v : Value}

theorem kind_eq (held : f.value? = some v) : v.kind = f.kind := by
  obtain ⟨kind, payload⟩ := f
  cases kind with
  | string =>
    obtain ⟨s, -, rfl⟩ := Option.map_eq_some_iff.1 held
    rfl
  | _ =>
    cases held
    rfl

theorem lengthFits (fits : f.Fits) (held : f.value? = some v) : v.LengthFits := by
  obtain ⟨kind, payload⟩ := f
  cases kind with
  | string =>
    obtain ⟨s, valid, rfl⟩ := Option.map_eq_some_iff.1 held
    have size : s.utf8ByteSize = payload.length := by
      show s.toUTF8.size = payload.length
      rw [toUTF8_of_fromUTF8? valid, List.size_toByteArray]
    show s.utf8ByteSize < 2 ^ 32
    rw [size]
    exact fits
  | bytes =>
    cases held
    show payload.toByteArray.size < 2 ^ 32
    rw [List.size_toByteArray]
    exact fits
  | _ =>
    cases held
    trivial

/-- The value of a field is written as the content of the field exactly if that is canonical. -/
theorem content_eq_iff (fits : f.Fits) (held : f.value? = some v) :
    v.content = f.content ↔ f.IsCanonical := by
  obtain ⟨kind, payload⟩ := f
  have small := ofLittleEndian_lt payload
  have back := littleEndian_ofLittleEndian payload
  cases kind with
  | null =>
    cases held
    exact iff_of_true (List.length_eq_zero_iff.1 fits).symm trivial
  | boolean =>
    cases held
    obtain ⟨b, rfl⟩ := List.length_eq_one_iff.1 (show payload.length = 1 from fits)
    have number : ofLittleEndian [b] = b.toNat := by simp [ofLittleEndian]
    by_cases zero : b = 0
    · subst zero
      exact iff_of_true rfl (by simp [IsCanonical])
    · have positive : b.toNat ≠ 0 := fun none => zero (UInt8.toNat_inj.1 none)
      simp [Value.content, content, Kind.number?, IsCanonical, number, positive, zero, eq_comm]
  | float =>
    cases held
    exact littleEndian_canonical_iff (by decide) fits
  | double =>
    cases held
    exact littleEndian_canonical_iff (by decide) fits
  | decimal =>
    cases held
    rw [show payload.length = 17 from fits] at small back
    have number : ofLittleEndian payload % 2 ^ 128 +
        2 ^ 128 * (UInt8.ofNat (ofLittleEndian payload / 2 ^ 128)).toNat =
          ofLittleEndian payload := by
      rw [UInt8.toNat_ofNat']
      omega
    refine iff_of_true ?_ trivial
    rw [Value.content, Int128.bytes_append, Int128.toNat_ofComplement, number]
    exact back
  | string =>
    obtain ⟨s, valid, rfl⟩ := Option.map_eq_some_iff.1 held
    refine iff_of_true ?_ trivial
    rw [Value.content, toUTF8_of_fromUTF8? valid, List.size_toByteArray, List.data_toByteArray]
    rfl
  | bytes =>
    cases held
    refine iff_of_true ?_ trivial
    rw [Value.content, List.size_toByteArray, List.data_toByteArray]
    rfl
  | _ =>
    -- A whole number of the width of its kind is written as it was read.
    cases held
    rw [show payload.length = _ from fits] at small back
    simp only [Value.content, content, Kind.number?, IsCanonical, iff_true]
    exact (congrArg (littleEndian _) (Nat.mod_eq_of_lt small)).trans back

theorem length_content (fits : f.Fits) (held : f.value? = some v) :
    v.content.length = f.content.length := by
  obtain ⟨kind, payload⟩ := f
  cases kind with
  | string | bytes => rw [(content_eq_iff fits held).2 trivial]
  | _ =>
    cases held
    have width : payload.length = _ := fits
    simp [Value.content, content, Kind.number?, width, Int128.bytes]

theorem encode_eq (held : f.value? = some v) :
    v.encode = UInt8.ofNat f.kind.index :: v.content := by
  rw [Value.encode, kind_eq held]

/-- The bytes of a field end where those behind it begin. -/
theorem bytes_append_inj {g : Field} {rest rest' : List UInt8} (fits : f.Fits) (fits' : g.Fits)
    (same : f.bytes ++ rest = g.bytes ++ rest') : f = g ∧ rest = rest' := by
  obtain ⟨kind, payload⟩ := f
  obtain ⟨kind', payload'⟩ := g
  obtain ⟨tag, same⟩ : _ ∧ content ⟨kind, payload⟩ ++ rest = content ⟨kind', payload'⟩ ++ rest' :=
    List.cons.inj same
  have index (k : Kind) : (UInt8.ofNat k.index).toNat = k.index := by cases k <;> rfl
  have kinds : kind = kind' := by
    have indices : kind.index = kind'.index := by
      rw [← index kind, ← index kind', congrArg UInt8.toNat tag]
    apply Option.some.inj
    rw [← Kind.ofIndex?_index kind, indices, Kind.ofIndex?_index]
  subst kinds
  unfold Fits at fits fits'
  unfold content at same
  cases hk : kind.number? with
  | some number =>
    simp only [hk] at fits fits' same
    obtain ⟨rfl, rfl⟩ := List.append_inj same (fits.trans fits'.symm)
    exact ⟨rfl, rfl⟩
  | none =>
    simp only [hk, List.append_assoc] at fits fits' same
    obtain ⟨lengths, same⟩ := List.append_inj same (by simp)
    obtain ⟨rfl, rfl⟩ := List.append_inj same ((littleEndian_inj fits fits').1 lengths)
    exact ⟨rfl, rfl⟩

end Field

/-- Values take up as many bytes as the fields that hold them, and are the same bytes exactly if
each field is canonical. -/
theorem flatMap_encode {fields : List Field} {row : Row} (fits : ∀ f ∈ fields, f.Fits)
    (holds : List.Forall₂ (fun f v => f.value? = some v) fields row) :
    (row.flatMap Value.encode).length = (fields.flatMap Field.bytes).length ∧
      (row.flatMap Value.encode = fields.flatMap Field.bytes ↔ ∀ f ∈ fields, f.IsCanonical) := by
  induction holds with
  | nil => exact ⟨rfl, iff_of_true rfl (List.forall_mem_nil _)⟩
  | @cons f v fields row held holds ih =>
    obtain ⟨first, others⟩ := List.forall_mem_cons.1 fits
    obtain ⟨length, same⟩ := ih others
    have width : v.encode.length = f.bytes.length := by
      rw [Field.encode_eq held, Field.bytes, List.length_cons, List.length_cons,
        Field.length_content first held]
    have exact_iff : v.encode = f.bytes ↔ f.IsCanonical := by
      rw [Field.encode_eq held, Field.bytes, List.cons_inj_right, Field.content_eq_iff first held]
    rw [List.flatMap_cons, List.flatMap_cons, List.forall_mem_cons, ← exact_iff, ← same]
    refine ⟨by rw [List.length_append, List.length_append, width, length], ?_⟩
    constructor
    · intro eq
      exact List.append_inj eq width
    · rintro ⟨eq, eq'⟩
      rw [eq, eq']

theorem lengthFits_of_fields {fields : List Field} {row : Row} (fits : ∀ f ∈ fields, f.Fits)
    (holds : List.Forall₂ (fun f v => f.value? = some v) fields row) : ∀ v ∈ row, v.LengthFits := by
  induction holds with
  | nil => exact List.forall_mem_nil _
  | cons held _ ih =>
    obtain ⟨first, others⟩ := List.forall_mem_cons.1 fits
    exact List.forall_mem_cons.2 ⟨Field.lengthFits first held, ih others⟩

theorem flatMap_bytes_inj {fields others : List Field} (fits : ∀ f ∈ fields, f.Fits)
    (fits' : ∀ f ∈ others, f.Fits)
    (same : fields.flatMap Field.bytes = others.flatMap Field.bytes) : fields = others := by
  induction fields generalizing others with
  | nil =>
    cases others with
    | nil => rfl
    | cons g others => cases same
  | cons f fields ih =>
    cases others with
    | nil => cases same
    | cons g others =>
      obtain ⟨first, behind⟩ := List.forall_mem_cons.1 fits
      obtain ⟨first', behind'⟩ := List.forall_mem_cons.1 fits'
      obtain ⟨rfl, rest⟩ := Field.bytes_append_inj first first' same
      rw [ih behind behind' rest]

/-- The fields of a record can be told from its bytes. -/
theorem Record.Consists.unique {r : Record} {fields others : List Field}
    (h : r.Consists fields) (h' : r.Consists others) : others = fields := by
  have same := h'.bytes.symm.trans h.bytes
  obtain ⟨-, same⟩ := List.append_inj same (by simp)
  exact flatMap_bytes_inj h'.fits h.fits same

/-- A record that is read as a row consists of fields, which can be told from its bytes. Written
again, the row has the length of the record and is read in canonical form, which is the row itself
but for the bits of negative zeros and of NaNs. It is the very record exactly if each field of a
truth value is 0 or 1 and each floating-point number has its canonical bits. -/
theorem Row.encode_of_decode {r : Record} {row : Row} (h : Row.decode r = .ok row) :
    row.encode.size = r.size ∧ Row.decode row.encode = .ok row.canonical ∧
      row.canonical = row.map Value.withCanonicalBits ∧
      ∃ fields, r.Consists fields ∧ (∀ others, r.Consists others → others = fields) ∧
        (row.encode = r ↔ ∀ f ∈ fields, f.IsCanonical) := by
  obtain ⟨fields, consists, holds⟩ := Row.decode_eq_ok_iff.1 h
  obtain ⟨length, same⟩ := flatMap_encode consists.fits holds
  have columns : row.length = fields.length := holds.length_eq.symm
  have bytes : row.encode.data.toList =
      bigEndian 4 fields.length ++ row.flatMap Value.encode := by
    rw [Row.encode, List.data_toByteArray, columns]
  have lengths : row.LengthsFit :=
    ⟨columns ▸ consists.count, lengthFits_of_fields consists.fits holds⟩
  refine ⟨?_, Row.decode_encode lengths, row.canonical_eq_map, fields, consists,
    fun _ => consists.unique, ?_⟩
  · show row.encode.data.toList.length = r.data.toList.length
    rw [bytes, consists.bytes, List.length_append, List.length_append, length]
  · rw [← same]
    constructor
    · intro eq
      rw [eq, consists.bytes] at bytes
      exact (List.append_cancel_left bytes).symm
    · intro eq
      apply ByteArray.ext
      apply Array.toList_inj.1
      rw [bytes, eq, consists.bytes]

/-- A truth value that is stored as 2 and a zero with a sign are read, and written otherwise; the
number 1.5 is written as it was read. -/
theorem Row.encode_of_decode_loose :
    let r : Record := ⟨#[0, 0, 0, 4, 1, 2, 7, 0, 0, 0, 0, 0, 0, 0, 128, 9, 2, 0, 0, 0, 195, 169,
      6, 0, 0, 192, 63]⟩
    let row : Row := [.boolean true, .double (.ofBits 0x8000000000000000), .string "é",
      .float (.ofBits 0x3fc00000)]
    Row.decode r = .ok row ∧ row.encode.size = 27 ∧
      Row.decode row.encode = .ok [.boolean true, .double (.ofBits 0), .string "é",
        .float (.ofBits 0x3fc00000)] ∧ row.encode ≠ r ∧
      ∃ fields, r.Consists fields ∧ ¬∀ f ∈ fields, f.IsCanonical := by
  intro r row
  have read : Row.decode r = .ok row := by rfl
  obtain ⟨size, back, bits, fields, consists, -, same⟩ := Row.encode_of_decode read
  have form : row.canonical = [.boolean true, .double (.ofBits 0), .string "é",
      .float (.ofBits 0x3fc00000)] := bits.trans (by decide)
  rw [form] at back
  have other : row.encode ≠ r := by decide
  exact ⟨read, size, back, other, fields, consists, fun canonical => other (same.2 canonical)⟩

end ResultSink
