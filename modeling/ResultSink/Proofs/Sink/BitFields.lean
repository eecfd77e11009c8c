import ResultSink.Proofs.Value.Integers
import ResultSink.Proofs.Sink.Projection
import ResultSink.Proofs.Sink.Width

/-! Bit fields stored as 64-bit integers: what becomes of values, rows and plans. A bit field below
the top bit of an integer is stored as the same number in as many bytes, so a plan asks for the same
table either way; a greater one is refused where it is to become an integer. -/

namespace ResultSink

/-! ### Values -/

namespace Value

/-- The value that is stored for a value once bit fields become 64-bit integers. -/
def asLong : Value → Value
  | bit b => .bigInt b.toInt64
  | v => v

variable {v w : Value}

theorem canonical_asLong (v : Value) : v.asLong.canonical = v.canonical.asLong := by
  cases v <;> rfl

theorem length_encode_asLong (v : Value) : v.asLong.encode.length = v.encode.length := by
  cases v with
  | bit b => simp [asLong, encode, content]
  | _ => rfl

theorem HasType.asLong_eq {target : DataType} (h : v.HasType target)
    (other : target.isBit = false) : v.asLong = v := by
  cases h with
  | bit => cases other
  | _ => rfl

theorem HasType.eq_bit {target : DataType} (h : v.HasType target) (bits : target.isBit = true) :
    ∃ b, v = .bit b := by
  cases h with
  | @bit b => exact ⟨b, rfl⟩
  | _ => cases bits

theorem asLong_bit_inj {a b : UInt64} (same : (Value.bit a).asLong = (Value.bit b).asLong) :
    a = b := by
  have words : a.toInt64 = b.toInt64 := bigInt.inj same
  simpa using congrArg Int64.toUInt64 words

theorem int64?_toNat {b : UInt64} (small : b.toNat < 2 ^ 63) : int64? b.toNat = some b.toInt64 := by
  have word : Int64.ofInt b.toNat = b.toInt64 := by
    apply Int64.toBitVec_inj.1
    simp
  rw [int64?, if_pos (by omega), word]

/-- A number in the range of an integer that a bit field takes is that integer, whichever kind of
value it was held in. -/
theorem toInt64?_of_castBit {width : UInt8} (h : v.castBit width = .ok w)
    (small : ∀ b, v = .bit b → b.toNat < 2 ^ 63) :
    ∃ b, w = .bit b ∧ v.toInt64? = .ok (some b.toInt64) := by
  unfold castBit at h
  dsimp only at h
  split at h
  · cases h
  · cases h
  · next b bits =>
    split at h
    · cases h
      refine ⟨b, rfl, ?_⟩
      split at bits
      · cases bits
        exact congrArg Except.ok (int64?_toNat (small b rfl))
      · -- What is no bit value goes through a 64-bit integer either way.
        cases found : v.toInt64? with
        | error step =>
          rw [found] at bits
          cases bits
        | ok n =>
          rw [found] at bits
          cases n with
          | none => cases bits
          | some n =>
            have same : (b.toNat : Int) = n.toInt := uint64?_eq_some_iff.1 (Except.ok.inj bits)
            have bound := n.toInt_lt
            have word : int64? n.toInt = some n := int64?_eq_some_iff.2 rfl
            rw [← same, int64?_toNat (by omega)] at word
            rw [Option.some.inj word]
    · cases h

/-- What a bit field takes, an integer takes as the same number, unless it is a bit value with the
top bit. -/
theorem cast_bigInt_of_bit {width : UInt8} (h : v.cast (.bit width) = .ok w)
    (small : ∀ b, v = .bit b → b.toNat < 2 ^ 63) : v.cast .bigInt = .ok w.asLong := by
  unfold cast at h ⊢
  cases present : v.isNull with
  | true =>
    rw [present, if_pos rfl] at h
    cases h
    rfl
  | false =>
    rw [present, if_neg Bool.false_ne_true] at h
    rw [if_neg Bool.false_ne_true]
    dsimp only at h ⊢
    obtain ⟨b, rfl, number⟩ := toInt64?_of_castBit h small
    rw [castWhole, number]
    rfl

theorem castWhole_of_none {target : String} {narrow : Int64 → Option Value}
    (none : v.toInt64? = .ok none) :
    v.castWhole target narrow = .error (.refused (.unconvertible v target)) := by
  rw [castWhole, none]

/-- A bit value with the top bit is no 64-bit integer. -/
theorem cast_bigInt_of_large {b : UInt64} (large : 2 ^ 63 ≤ b.toNat) :
    (Value.bit b).cast .bigInt = .error (.refused (.unconvertible (.bit b) "bigint")) := by
  have number : (Value.bit b).toInt64? = .ok none := by
    rw [toInt64?, int64?, if_neg (by omega)]
  have whole : (Value.bit b).cast .bigInt =
      (Value.bit b).castWhole "bigint" fun n => some (.bigInt n) := by
    unfold cast
    rw [if_neg (by simp [isNull])]
  rw [whole, castWhole_of_none number]

end Value

namespace Column

variable {c : Column} {v w : Value}

/-- The values that a column admits stay apart when bit fields become integers. -/
theorem Admits.asLong_inj (hv : c.Admits v) (hw : c.Admits w) (same : v.asLong = w.asLong) :
    v = w := by
  cases bits : c.dataType.isBit with
  | false =>
    have unchanged {u : Value} (hu : c.Admits u) : u.asLong = u := by
      rcases hu with typed | ⟨rfl, -⟩
      · exact typed.asLong_eq bits
      · rfl
    rw [← unchanged hv, same, unchanged hw]
  | true =>
    rcases hv with typed | ⟨rfl, -⟩
    · obtain ⟨a, rfl⟩ := typed.eq_bit bits
      rcases hw with typed' | ⟨rfl, -⟩
      · obtain ⟨b, rfl⟩ := typed'.eq_bit bits
        rw [Value.asLong_bit_inj same]
      · cases same
    · rcases hw with typed' | ⟨rfl, -⟩
      · obtain ⟨b, rfl⟩ := typed'.eq_bit bits
        cases same
      · rfl

/-- A bit field of a column fits in a 64-bit integer. Other columns and values are not spoken of. -/
def BitFits (c : Column) (v : Value) : Prop :=
  c.dataType.isBit = true → ∀ b : UInt64, v = .bit b → b.toNat < 2 ^ 63

instance decidableBitFits (c : Column) (v : Value) : Decidable (c.BitFits v) :=
  match v with
  | .bit b => decidable_of_iff (c.dataType.isBit = true → b.toNat < 2 ^ 63)
      ⟨fun h bits _ same => Value.bit.inj same ▸ h bits, fun h bits => h bits b rfl⟩
  | .null | .boolean _ | .tinyInt _ | .smallInt _ | .int _ | .bigInt _ | .float _ | .double _
  | .decimal _ _ | .string _ | .bytes _ | .date _ | .time _ | .timestamp _ =>
    .isTrue fun _ _ same => nomatch same

/-- What a bit field of at most 63 bits takes fits. -/
theorem Takes.bitFits (h : c.Takes false v w)
    (narrow : ∀ width, c.dataType = .bit width → width.toNat ≤ 63) : c.BitFits v := by
  rintro bits b rfl
  have taken : (Value.bit b).cast c.dataType = .ok w := h.cast
  cases type : c.dataType with
  | bit width =>
    rw [type] at taken
    have fits : 64 ≤ width.toNat ∨ b.toNat < 2 ^ width.toNat := by
      apply Decidable.byContradiction
      intro wide
      have refused : (Value.bit b).cast (.bit width) = .error (.refused (.tooWide (.bit width))) :=
        if_neg wide
      cases refused.symm.trans taken
    have bound := narrow width type
    have small : b.toNat < 2 ^ width.toNat := fits.resolve_left (by omega)
    exact Nat.lt_of_lt_of_le small (Nat.pow_le_pow_right (by decide) bound)
  | _ =>
    rw [type] at bits
    cases bits

/-- What a column stores as a bit field it stores as an integer, if it fits. -/
theorem takes_asLong (h : c.Takes false v w) (fits : c.BitFits v) : c.Takes true v w.asLong := by
  refine ⟨?_, h.present⟩
  cases bits : c.dataType.isBit with
  | false =>
    have plain : c.storedType true = c.dataType := by simp [storedType, bits]
    have taken : v.cast c.dataType = .ok w := h.cast
    rw [plain, taken]
    by_cases null : v = .null
    · rw [(Value.cast_eq_null_iff taken).2 null]
      rfl
    · have present : v.isNull = false := Bool.eq_false_iff.2 fun h => null (Value.eq_null_iff.2 h)
      rw [(Value.hasType_of_cast present taken).asLong_eq bits]
  | true =>
    have long : c.storedType true = .bigInt := by simp [storedType, bits]
    rw [long]
    cases type : c.dataType with
    | bit width =>
      have taken : v.cast c.dataType = .ok w := h.cast
      rw [type] at taken
      exact Value.cast_bigInt_of_bit taken (fits bits)
    | _ =>
      rw [type] at bits
      cases bits

theorem not_bitFits_iff :
    ¬c.BitFits v ↔ c.dataType.isBit = true ∧ ∃ b : UInt64, v = .bit b ∧ 2 ^ 63 ≤ b.toNat := by
  simp [BitFits]

/-- A bit field that does not fit is refused as an integer. -/
theorem cast_unfit {b : UInt64} (bits : c.dataType.isBit = true) (large : 2 ^ 63 ≤ b.toNat) :
    (Value.bit b).cast (c.storedType true) =
      .error (.refused (.unconvertible (.bit b) "bigint")) := by
  have long : c.storedType true = .bigInt := by simp [storedType, bits]
  rw [long, Value.cast_bigInt_of_large large]

end Column

/-! ### Rows -/

namespace Row

/-- The row that is stored for a row once bit fields become 64-bit integers. -/
def asLong (row : Row) : Row := row.map Value.asLong

theorem canonical_asLong (row : Row) : row.asLong.canonical = row.canonical.asLong := by
  simp [asLong, canonical, Value.canonical_asLong]

theorem size_encode_asLong (row : Row) : row.asLong.encode.size = row.encode.size := by
  rw [size_encode, size_encode, asLong]
  induction row with
  | nil => rfl
  | cons v row ih =>
    simp only [List.map_cons, List.flatMap_cons, List.length_append, v.length_encode_asLong]
    omega

/-- Rows that conform to columns stay apart when bit fields become integers. -/
theorem asLong_inj {columns : List Column} {row other : Row}
    (hr : List.Forall₂ Column.Admits columns row) (ho : List.Forall₂ Column.Admits columns other)
    (same : row.asLong = other.asLong) : row = other := by
  induction hr generalizing other with
  | nil =>
    cases ho
    rfl
  | cons first _ ih =>
    cases ho with
    | cons first' rest' =>
      obtain ⟨value, values⟩ := List.cons.inj same
      rw [first.asLong_inj first' value, ih rest' values]

end Row

namespace TableRequest

/-- The request with a choice of how bit fields are stored. -/
def storing (request : TableRequest) (bitsAsLong : Bool) : TableRequest :=
  { request with bitsAsLong }

/-- The plan of a request with a choice of how bit fields are stored. -/
abbrev plan (request : TableRequest) (bitsAsLong : Bool) (shape : Shape) : Plan :=
  Plan.resolve (request.storing bitsAsLong) shape

/-- Every visible bit field of a row fits in a 64-bit integer. -/
def BitsFit (request : TableRequest) (row : Row) : Prop :=
  ∀ c ∈ request.visible row, c.1.BitFits c.2

instance decidableBitsFit (request : TableRequest) (row : Row) : Decidable (request.BitsFit row) :=
  inferInstanceAs (Decidable (∀ c ∈ request.visible row, c.1.BitFits c.2))

end TableRequest

/-! ### Plans -/

theorem Sizing.of_stored (bitsAsLong : Bool) (columns : List Column) :
    Sizing.of (columns.map (Column.stored bitsAsLong)) = Sizing.of columns := by
  have blob (c : Column) : (c.stored bitsAsLong).dataType.isBlob = c.dataType.isBlob := by
    rw [Column.dataType_stored, Column.storedType]
    cases bitsAsLong <;> cases c.dataType <;> rfl
  have width (c : Column) :
      (c.stored bitsAsLong).dataType.encodedWidth = c.dataType.encodedWidth := by
    rw [Column.dataType_stored, Column.storedType]
    cases bitsAsLong <;> cases c.dataType <;> rfl
  simp only [Sizing.of, List.countP_map, Function.comp_def, List.foldr_map, blob, width]

namespace Plan

variable {request : TableRequest} {shape : Shape} {row values : Row}

/-- How bit fields are stored changes neither the widths nor the number of large objects. -/
theorem sizing_storing (request : TableRequest) (shape : Shape) (bitsAsLong : Bool) :
    (request.plan bitsAsLong shape).sizing = (resolve request shape).sizing := by
  have stored (choice : Bool) :
      Sizing.of ((storedColumns choice request.columns).map Prod.snd) =
        Sizing.of ((request.columns.zipIdx.filter fun c => !c.1.isHidden).map Prod.fst) := by
    rw [storedColumns, List.map_map, ← Sizing.of_stored choice (List.map Prod.fst _), List.map_map]
    rfl
  exact (stored bitsAsLong).trans (stored request.bitsAsLong).symm

theorem strategy_storing (request : TableRequest) (shape : Shape) (bitsAsLong : Bool) :
    (request.plan bitsAsLong shape).strategy = (resolve request shape).strategy :=
  congrArg (fun sizing => chooseStrategy sizing request.distinct shape request.options)
    (sizing_storing request shape bitsAsLong)

theorem tableSpec_storing (request : TableRequest) (shape : Shape) (bitsAsLong : Bool) :
    (request.plan bitsAsLong shape).tableSpec = (resolve request shape).tableSpec := by
  have columns : (request.plan bitsAsLong shape).stored.length =
      (resolve request shape).stored.length := by
    simp [resolve, storedColumns, TableRequest.storing]
  simp only [tableSpec, sizing_storing, strategy_storing, columns]
  rfl

/-- What a row is projected onto, for either choice. -/
theorem projectValues_storing_iff {bitsAsLong : Bool} :
    (request.plan bitsAsLong shape).projectValues row = .ok values ↔
      row.length = request.columns.length ∧
        List.Forall₂ (fun c w => c.1.Takes bitsAsLong c.2 w) (request.visible row) values := by
  by_cases width : row.length = request.columns.length
  · have positions : (request.plan bitsAsLong shape).projectValues row = _ :=
      projectValues_resolve width
    rw [positions, mapM_eq_ok_iff]
    constructor
    · intro h
      exact ⟨width, h.imp fun c w => Column.convert_eq_ok_iff.1⟩
    · intro h
      exact h.2.imp fun c w => Column.convert_eq_ok_iff.2
  · have sourceWidth : (request.plan bitsAsLong shape).sourceWidth =
        request.columns.length := rfl
    rw [projectValues, sourceWidth, if_pos width]
    refine ⟨fun h => ?_, fun h => absurd h.1 width⟩
    cases h

/-- A row whose bit fields fit is stored either way, and value by value as the same number. -/
theorem projectValues_asLong
    (h : (request.plan false shape).projectValues row = .ok values)
    (fits : request.BitsFit row) :
    (request.plan true shape).projectValues row = .ok values.asLong := by
  obtain ⟨width, taken⟩ := projectValues_storing_iff.1 h
  refine projectValues_storing_iff.2 ⟨width, ?_⟩
  rw [Row.asLong, List.forall₂_map_right_iff]
  refine ((List.forall₂_and_left _ _).2 ⟨fits, taken⟩).imp fun c w both => ?_
  exact Column.takes_asLong both.2 both.1

/-- A row with a bit field that does not fit is refused as integers, for such a field. -/
theorem project_unfit
    (h : (request.plan false shape).projectValues row = .ok values)
    (unfit : ¬request.BitsFit row) :
    ∃ (c : Column) (b : UInt64), (c, .bit b) ∈ request.visible row ∧ c.dataType.isBit = true ∧
      2 ^ 63 ≤ b.toNat ∧ (request.plan true shape).project row =
        .error (.refused (.projection c.name
          (CastError.unconvertible (.bit b) "bigint").message)) := by
  obtain ⟨width, taken⟩ := projectValues_storing_iff.1 h
  cases projected : (request.plan true shape).project row with
  | ok payload =>
    obtain ⟨stored, projected, -⟩ := project_eq_ok projected
    obtain ⟨-, each⟩ := projectValues_storing_iff.1 projected
    refine absurd (fun c there => ?_) unfit
    apply Decidable.byContradiction
    intro other
    obtain ⟨bits, b, same, large⟩ := Column.not_bitFits_iff.1 other
    obtain ⟨i, inside, rfl⟩ := List.mem_iff_getElem.1 there
    have cast := (each.get inside (each.length_eq ▸ inside)).cast
    rw [List.get_eq_getElem, same] at cast
    cases (Column.cast_unfit bits large).symm.trans cast
  | error e =>
    have long : row.length = (request.storing true).columns.length := width
    obtain ⟨front, ⟨c, v⟩, back, split, -, failed⟩ := project_eq_error long projected
    have there : (c, v) ∈ request.visible row := by
      rw [show request.visible row = _ from split]
      simp
    have causes : (∃ step, v.cast (c.storedType true) = .error (.overflow step)) ∨
        ∃ reason, c.Refuses true v reason ∧ e = .refused (.projection c.name reason) := failed
    by_cases fits : c.BitFits v
    · obtain ⟨i, inside, same⟩ := List.mem_iff_getElem.1 there
      have taken := taken.get inside (taken.length_eq ▸ inside)
      rw [List.get_eq_getElem, same] at taken
      have taken := Column.takes_asLong taken fits
      rcases causes with ⟨step, overflow⟩ | ⟨reason, refused, -⟩
      · cases overflow.symm.trans taken.cast
      · exact absurd taken refused.not_takes
    · obtain ⟨bits, b, rfl, large⟩ := Column.not_bitFits_iff.1 fits
      have cast := Column.cast_unfit bits large
      refine ⟨c, b, there, bits, large, ?_⟩
      rcases causes with ⟨step, overflow⟩ | ⟨reason, refused, told⟩
      · cases overflow.symm.trans cast
      · cases refused with
        | cast failed =>
          cases failed.symm.trans cast
          rw [told]
        | null absent => cases absent

/-- The records of a row under either choice are of one size. -/
theorem size_rowRecord_asLong (request : TableRequest) (shape : Shape) (row : Row) :
    ((request.plan true shape).rowRecord row.asLong).size =
      ((request.plan false shape).rowRecord row).size := by
  rw [rowRecord, rowRecord, size_recordOf, size_recordOf, Row.size_encode_asLong, strategy_storing,
    strategy_storing]

theorem sizes_asLong (request : TableRequest) (shape : Shape) (rows : List Row) :
    ((rows.map Row.asLong).map (request.plan true shape).rowRecord).map ByteArray.size =
      (rows.map (request.plan false shape).rowRecord).map ByteArray.size := by
  rw [List.map_map, List.map_map, List.map_map]
  exact List.map_congr_left fun row _ => size_rowRecord_asLong request shape row

end Plan

end ResultSink
