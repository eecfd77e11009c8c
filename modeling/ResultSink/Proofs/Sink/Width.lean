import ResultSink.Proofs.Sink.Schema

/-! The width of a record against the width that its plan estimates. A value of a fixed width takes
the bytes that its column is estimated to take, and NULL takes its tag alone; so a record of fixed
widths is as wide as estimated but for its NULLs. -/

namespace ResultSink

/-- The values of the type are all encoded in the same number of bytes. -/
def DataType.isFixedWidth : DataType → Bool
  | char _ | varchar _ | text | blob => false
  | _ => true

/-! ### Values -/

/-- A value of a type of fixed width is as wide as it is estimated to be. -/
theorem Value.HasType.length_encode {v : Value} {target : DataType} (h : v.HasType target)
    (fixed : target.isFixedWidth = true) : v.encode.length = target.encodedWidth := by
  cases h with
  | char | varchar | text | blob => cases fixed
  | decimal => simp [Value.encode, Value.content, DataType.encodedWidth, Int128.bytes]
  | _ => simp [Value.encode, Value.content, DataType.encodedWidth]

namespace Column

/-- The bytes that a value leaves unused of its column's estimated width: NULL is a tag alone. -/
def saved (c : Column) (v : Value) : Nat :=
  if v = .null then c.dataType.encodedWidth - 1 else 0

/-- A value is encoded in no more bytes than its column is estimated to take. -/
def Spans (c : Column) (v : Value) : Prop := v.encode.length ≤ c.dataType.encodedWidth

variable {c : Column} {v : Value}

/-- The tag of a value is part of every estimate. -/
theorem spans_null : c.Spans .null := by
  show 1 ≤ c.dataType.encodedWidth
  unfold DataType.encodedWidth
  split <;> omega

theorem Admits.length_encode (h : c.Admits v) (fixed : c.dataType.isFixedWidth = true) :
    v.encode.length + c.saved v = c.dataType.encodedWidth := by
  rcases h with typed | ⟨rfl, -⟩
  · have present : v ≠ .null := by
      rintro rfl
      cases typed
    rw [saved, if_neg present, Nat.add_zero, typed.length_encode fixed]
  · have tag : 1 ≤ c.dataType.encodedWidth := spans_null
    rw [saved, if_pos rfl]
    show 1 + _ = _
    omega

end Column

/-! ### Rows -/

/-- The bytes that NULLs leave unused of the estimated widths of their columns. -/
def savedByNulls : List Column → Row → Nat
  | c :: columns, v :: values => c.saved v + savedByNulls columns values
  | _, _ => 0

theorem Row.size_encode (values : Row) :
    values.encode.size = recordHeaderWidth + (values.flatMap Value.encode).length := by
  rw [encode, List.size_toByteArray, List.length_append, length_bigEndian, recordHeaderWidth]

namespace Sizing

variable {columns : List Column} {values : Row}

theorem recordWidth_cons (c : Column) (columns : List Column) :
    (Sizing.of (c :: columns)).recordWidth =
      c.dataType.encodedWidth + (Sizing.of columns).recordWidth := rfl

/-- Column by column, values of fixed width and what NULLs leave make up the estimate. -/
theorem recordWidth_of_fixed (admitted : List.Forall₂ Column.Admits columns values)
    (fixed : ∀ c ∈ columns, c.dataType.isFixedWidth = true) :
    values.encode.size + savedByNulls columns values = (Sizing.of columns).recordWidth := by
  rw [Row.size_encode]
  induction admitted with
  | nil => rfl
  | @cons c v columns values first _ ih =>
    obtain ⟨fixedFirst, fixedRest⟩ := List.forall_mem_cons.1 fixed
    have head := first.length_encode fixedFirst
    have tail := ih fixedRest
    rw [recordWidth_cons, savedByNulls, List.flatMap_cons, List.length_append]
    omega

/-- Values that are no wider than estimated make up a record that is no wider than estimated. -/
theorem size_encode_le (spans : List.Forall₂ Column.Spans columns values) :
    values.encode.size ≤ (Sizing.of columns).recordWidth := by
  rw [Row.size_encode]
  induction spans with
  | nil => exact Nat.le_refl _
  | @cons c v columns values first _ ih =>
    have head : v.encode.length ≤ c.dataType.encodedWidth := first
    rw [recordWidth_cons, List.flatMap_cons, List.length_append]
    omega

end Sizing

/-! ### Records of a plan -/

namespace Plan

variable {request : TableRequest} {shape : Shape} {plan : Plan} {row values : Row}
  {payload : Record}

/-- What a table stores of a payload is wider by a hash, just as what it was asked for. -/
theorem size_recordOf_le (within : payload.size ≤ plan.sizing.recordWidth) :
    (plan.recordOf payload).size ≤ plan.tableSpec.recordWidth := by
  have key : plan.strategy.key.hasHash = true ↔ plan.strategy = .hashKey := by
    cases plan.strategy <;> decide
  show _ ≤ plan.sizing.recordWidth + if plan.strategy.key.hasHash then hashWidth else 0
  rw [size_recordOf]
  simp only [key]
  omega

/-- The stored columns are the visible ones of the select list, each as it is stored and with its
position there. -/
theorem mem_stored_resolve {i : Nat} {c : Column} :
    (i, c) ∈ (resolve request shape).stored ↔ ∃ given, request.columns[i]? = some given ∧
      given.isHidden = false ∧ c = given.stored request.bitsAsLong := by
  show (i, c) ∈ storedColumns request.bitsAsLong request.columns ↔ _
  rw [storedColumns, List.mem_map]
  constructor
  · rintro ⟨⟨given, j⟩, kept, same⟩
    obtain ⟨rfl, rfl⟩ := Prod.mk.inj same
    obtain ⟨place, visible⟩ := List.mem_filter.1 kept
    exact ⟨given, List.mem_zipIdx_iff_getElem?.1 place, by simpa using visible, rfl⟩
  · rintro ⟨given, place, visible, rfl⟩
    refine ⟨(given, i), List.mem_filter.2 ⟨?_, by simpa using visible⟩, rfl⟩
    exact List.mem_zipIdx_iff_getElem?.2 place

/-- Storing bit fields as whole numbers leaves widths fixed. -/
theorem isFixedWidth_resolve
    (fixed : ∀ c ∈ request.columns, c.isHidden = false → c.dataType.isFixedWidth = true) :
    ∀ c ∈ (resolve request shape).columns, c.dataType.isFixedWidth = true := by
  intro c there
  obtain ⟨⟨i, c⟩, member, rfl⟩ := List.mem_map.1 there
  obtain ⟨given, place, visible, rfl⟩ := mem_stored_resolve.1 member
  show (given.stored request.bitsAsLong).dataType.isFixedWidth = true
  unfold Column.stored
  split
  · rfl
  · exact fixed given (List.mem_of_getElem? place) visible

/-- A row is taken column by column, each stored column from its position. -/
theorem projectValues_eq_ok_iff :
    plan.projectValues row = .ok values ↔ row.length = plan.sourceWidth ∧
      List.Forall₂ (fun c v => projectColumn row c.1 c.2 = .ok v) plan.stored values := by
  unfold projectValues
  by_cases width : row.length = plan.sourceWidth
  · rw [if_neg fun other => other width, mapM_eq_ok_iff]
    exact ⟨fun each => ⟨width, each⟩, fun taken => taken.2⟩
  · rw [if_pos width]
    exact ⟨fun refused => (nomatch refused), fun taken => absurd taken.1 width⟩

theorem admits_projectValues (h : plan.projectValues row = .ok values) :
    List.Forall₂ Column.Admits plan.columns values := by
  rw [columns, List.forall₂_map_left_iff]
  exact (projectValues_eq_ok_iff.1 h).2.imp fun _ _ => projectColumn_admits

theorem project_size_le (fixed : ∀ c ∈ plan.columns, c.dataType.isFixedWidth = true)
    (projected : plan.project row = .ok payload) : payload.size ≤ plan.sizing.recordWidth := by
  obtain ⟨values, taken, rfl⟩ := project_eq_ok projected
  exact Nat.le.intro (Sizing.recordWidth_of_fixed (admits_projectValues taken) fixed)

end Plan

namespace Sink

/-- A record of columns of fixed width is as wide as estimated, less what its NULLs leave unused of
their columns. So no payload is wider than estimated, and no record that a sink stores, its hash
included, is wider than its table was asked for. -/
theorem fixed_width_exact (request : TableRequest) (shape : Shape)
    (fixed : ∀ c ∈ request.columns, c.isHidden = false → c.dataType.isFixedWidth = true) :
    let plan := Plan.resolve request shape
    (∀ row payload, plan.project row = .ok payload →
      (∃ values, plan.projectValues row = .ok values ∧ payload = values.encode ∧
        payload.size = plan.sizing.recordWidth - savedByNulls plan.columns values ∧
        savedByNulls plan.columns values ≤ plan.sizing.recordWidth) ∧
      payload.size ≤ plan.sizing.recordWidth ∧
      (plan.recordOf payload).size ≤ plan.tableSpec.recordWidth) ∧
    ∀ (engine : Engine) (ops : List Op) (t : Table),
      (run Engine.storage ops {} engine).1.table = some ⟨plan, some t⟩ →
        ∃ records, t.scan = .ok records ∧ ∀ record ∈ records, record.size ≤ t.spec.recordWidth := by
  intro plan
  have stored : ∀ c ∈ plan.columns, c.dataType.isFixedWidth = true :=
    Plan.isFixedWidth_resolve fixed
  refine ⟨fun row payload projected => ?_, fun engine ops t ht => ?_⟩
  · have within := Plan.project_size_le stored projected
    refine ⟨?_, within, Plan.size_recordOf_le within⟩
    obtain ⟨values, taken, rfl⟩ := Plan.project_eq_ok projected
    have exact : values.encode.size + savedByNulls plan.columns values = plan.sizing.recordWidth :=
      Sizing.recordWidth_of_fixed (Plan.admits_projectValues taken) stored
    exact ⟨values, taken, rfl, by omega, by omega⟩
  · have h := (Keeps.init engine).run ops
    have start : ({} : Sink Table).Conforming [] := fun _ _ _ _ there => nomatch there
    have conforming := (Keeps.init engine).run_conforming start ops
    obtain ⟨records, scanned, order, -, -⟩ := h.scan_eq ht
    refine ⟨records, scanned, fun record there => ?_⟩
    obtain ⟨values, held, rfl⟩ := List.mem_map.1 (order.perm.mem_iff.1 there)
    have exact : values.encode.size + savedByNulls plan.columns values = plan.sizing.recordWidth :=
      Sizing.recordWidth_of_fixed (conforming plan (some t) ht values held) stored
    rw [(h.serves plan t ht).spec]
    exact Plan.size_recordOf_le (by omega)

/-- A request for bit fields, stored as whole numbers, and decimals, with a hidden text. -/
def maskRequest : TableRequest :=
  { columns := [{ name := "b", dataType := .bit 8 },
      { name := "s", dataType := .text, isHidden := true },
      { name := "d", dataType := .decimal (some 4) (some 1) }],
    distinct := true, name := "m", bitsAsLong := true }

/-- A bit field and a NULL take fourteen of thirty-one bytes, and a recursive expression adds a hash
of eight. -/
theorem fixed_width_exact_masks :
    let plan := Plan.resolve maskRequest { recursive := true }
    plan.sizing.recordWidth = 31 ∧ plan.tableSpec.recordWidth = 39 ∧
      ∃ payload, plan.project [.bit 5, .string "hidden", .null] = .ok payload ∧
        payload.size = 14 ∧ (plan.recordOf payload).size ≤ 39 := by
  intro plan
  obtain ⟨exact, -⟩ := fixed_width_exact maskRequest { recursive := true } (by decide)
  have projected : plan.project [.bit 5, .string "hidden", .null] =
      .ok (Row.encode [.bigInt 5, .null]) := by rfl
  obtain ⟨⟨values, taken, same, size, -⟩, -, record⟩ := exact _ _ projected
  have known : values = [.bigInt 5, .null] := (Except.ok.inj taken).symm
  subst known
  exact ⟨rfl, rfl, _, projected, size, record⟩

end Sink

end ResultSink
