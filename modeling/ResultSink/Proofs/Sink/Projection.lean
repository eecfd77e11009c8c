import ResultSink.Proofs.Sink.Schema

/-! Rows as the values of visible columns. What a request stores of an incoming row is decided by
the values at the positions of its visible columns, in the order of the select list, and by nothing
else of the row but its width. Two runs whose rows differ in hidden columns alone are the same run,
whatever the storage. -/

namespace ResultSink

/-- A traversal fails by the first element that fails. -/
theorem exists_of_mapM_eq_error {α β ε : Type} {f : α → Except ε β} {l : List α} {e : ε}
    (h : l.mapM f = .error e) : ∃ front a back, l = front ++ a :: back ∧
      (∀ b ∈ front, ∃ found, f b = .ok found) ∧ f a = .error e := by
  induction l with
  | nil => cases h
  | cons a l ih =>
    rw [List.mapM_cons] at h
    cases first : f a with
    | error e' =>
      rw [first] at h
      cases h
      exact ⟨[], a, l, rfl, List.forall_mem_nil _, first⟩
    | ok found =>
      rw [first] at h
      cases rest : l.mapM f with
      | error e' =>
        rw [rest] at h
        cases h
        obtain ⟨front, b, back, rfl, passed, failed⟩ := ih rest
        exact ⟨a :: front, b, back, rfl, List.forall_mem_cons.2 ⟨⟨found, first⟩, passed⟩, failed⟩
      | ok others =>
        rw [rest] at h
        cases h

theorem mapM_congr {α β ε : Type} {f g : α → Except ε β} {l : List α}
    (same : ∀ a ∈ l, f a = g a) : l.mapM f = l.mapM g := by
  induction l with
  | nil => rfl
  | cons a l ih =>
    obtain ⟨first, rest⟩ := List.forall_mem_cons.1 same
    rw [List.mapM_cons, List.mapM_cons, first, ih rest]

/-! ### The values of a column -/

namespace Column

variable {bitsAsLong : Bool} {c : Column} {v w : Value}

/-- The type that a column of a select list is stored by. -/
def storedType (bitsAsLong : Bool) (c : Column) : DataType :=
  if bitsAsLong && c.dataType.isBit then .bigInt else c.dataType

@[simp] theorem name_stored : (c.stored bitsAsLong).name = c.name := by
  unfold stored
  split <;> rfl

@[simp] theorem nullable_stored : (c.stored bitsAsLong).nullable = c.nullable := by
  unfold stored
  split <;> rfl

@[simp] theorem dataType_stored : (c.stored bitsAsLong).dataType = c.storedType bitsAsLong := by
  unfold stored storedType
  split <;> rfl

/-- A column of a select list takes a value and stores it as another: the value cast to the type
that the column is stored by, and NULL only where the column may be NULL. -/
structure Takes (bitsAsLong : Bool) (c : Column) (v w : Value) : Prop where
  cast : v.cast (c.storedType bitsAsLong) = .ok w
  present : v = .null → c.nullable = true

/-- Why a column of a select list refuses a value. -/
inductive Refuses (bitsAsLong : Bool) (c : Column) (v : Value) : String → Prop
  | cast {e : CastError} : v.cast (c.storedType bitsAsLong) = .error (.refused e) →
      Refuses bitsAsLong c v e.message
  | null : v = .null → c.nullable = false → Refuses bitsAsLong c v "column cannot be null"

theorem Refuses.not_takes {reason : String} (h : c.Refuses bitsAsLong v reason) :
    ¬c.Takes bitsAsLong v w := by
  intro taken
  cases h with
  | cast failed => cases failed.symm.trans taken.cast
  | null absent needed => cases needed.symm.trans (taken.present absent)

/-- The value that is stored in a column for another. -/
def convert (c : Column) (v : Value) : Except (Failure SinkError) Value :=
  Plan.projectColumn [v] 0 c

theorem convert_of_cast_ok (h : v.cast (c.storedType bitsAsLong) = .ok w) :
    (c.stored bitsAsLong).convert v = if v = .null ∧ c.nullable = false then
      .error (.refused (.projection c.name "column cannot be null")) else .ok w := by
  have null : w.isNull = true ↔ v = .null := by
    rw [← Value.eq_null_iff, Value.cast_eq_null_iff h]
  simp [convert, Plan.projectColumn, h, null]

theorem convert_of_cast_error {e : Failure CastError}
    (h : v.cast (c.storedType bitsAsLong) = .error e) :
    (c.stored bitsAsLong).convert v = .error (e.map fun e => .projection c.name e.message) := by
  simp [convert, Plan.projectColumn, h]

theorem convert_eq_ok_iff :
    (c.stored bitsAsLong).convert v = .ok w ↔ c.Takes bitsAsLong v w := by
  cases cast : v.cast (c.storedType bitsAsLong) with
  | error e =>
    rw [convert_of_cast_error cast]
    exact ⟨fun h => (nomatch h), fun h => (nomatch cast.symm.trans h.cast)⟩
  | ok found =>
    rw [convert_of_cast_ok cast]
    constructor
    · intro h
      split at h
      · cases h
      · next fits =>
        cases h
        exact ⟨cast, fun absent => by simpa [absent] using fits⟩
    · intro h
      cases cast.symm.trans h.cast
      exact if_neg fun ⟨absent, needed⟩ => by simp [h.present absent] at needed

theorem convert_eq_error {e : Failure SinkError}
    (h : (c.stored bitsAsLong).convert v = .error e) :
    (∃ step, v.cast (c.storedType bitsAsLong) = .error (.overflow step)) ∨
      ∃ reason, c.Refuses bitsAsLong v reason ∧ e = .refused (.projection c.name reason) := by
  cases cast : v.cast (c.storedType bitsAsLong) with
  | error cause =>
    rw [convert_of_cast_error cast] at h
    cases cause with
    | overflow step => exact .inl ⟨step, rfl⟩
    | refused cause => exact .inr ⟨_, .cast cast, (Except.error.inj h).symm⟩
  | ok w =>
    rw [convert_of_cast_ok cast] at h
    split at h
    · next absent => exact .inr ⟨_, .null absent.1 absent.2, (Except.error.inj h).symm⟩
    · cases h

end Column

/-! ### The visible part of a row -/

/-- The visible columns of a request, each with the value that a row has at its position. -/
def TableRequest.visible (request : TableRequest) (row : Row) : List (Column × Value) :=
  (request.columns.zip row).filter fun (c : Column × Value) => !c.1.isHidden

/-- Rows of one width that have the same values in the visible columns of a select list. -/
structure Row.SameVisible (columns : List Column) (row row' : Row) : Prop where
  width : row'.length = row.length
  values : ∀ (i : Nat) (c : Column), columns[i]? = some c → c.isHidden = false → row'[i]? = row[i]?

namespace Plan

variable {request : TableRequest} {shape : Shape} {row row' : Row}

/-- The positions of a plan lead to the values of the visible columns, each beside its column. -/
theorem projectValues_resolve (width : row.length = request.columns.length) :
    (resolve request shape).projectValues row = (request.visible row).mapM fun c =>
      (c.1.stored request.bitsAsLong).convert c.2 := by
  have positions : request.columns.zip row =
      request.columns.zipIdx.map fun c => (c.1, row[c.2]?.getD .null) := by
    apply List.ext_getElem
    · simp [width]
    · intro i inside inside'
      have there : i < row.length := by
        rw [List.length_zip, width, Nat.min_self] at inside
        rwa [width]
      simp [there]
  rw [projectValues, if_neg fun other => other width, TableRequest.visible, positions,
    List.filter_map, List.mapM_map]
  -- The filter keeps the same columns whether they are numbered or paired with values.
  show (storedColumns request.bitsAsLong request.columns).mapM _ = _
  rw [storedColumns, List.mapM_map]
  rfl

/-- A row of another width than the select list is refused as a whole. -/
theorem project_of_width (other : row.length ≠ request.columns.length) :
    (resolve request shape).project row = .error (.refused
      (.projection "*" s!"expected {request.columns.length} values, got {row.length}")) := by
  have sourceWidth : (resolve request shape).sourceWidth = request.columns.length := rfl
  rw [project, projectValues, sourceWidth, if_pos other]
  rfl

/-- A row is projected onto the values that its visible columns take. -/
theorem project_eq_ok_iff {payload : Record} :
    (resolve request shape).project row = .ok payload ↔
      row.length = request.columns.length ∧ ∃ values : Row,
        List.Forall₂ (fun c w => c.1.Takes request.bitsAsLong c.2 w) (request.visible row) values ∧
          payload = values.encode := by
  by_cases width : row.length = request.columns.length
  · rw [project, projectValues_resolve width]
    constructor
    · intro h
      cases converted : (request.visible row).mapM fun c =>
        (c.1.stored request.bitsAsLong).convert c.2 with
      | error e =>
        rw [converted] at h
        cases h
      | ok values =>
        rw [converted] at h
        cases h
        have each := (mapM_eq_ok_iff.1 converted).imp fun c w => Column.convert_eq_ok_iff.1
        exact ⟨width, values, each, rfl⟩
    · rintro ⟨-, values, each, rfl⟩
      rw [mapM_eq_ok_iff.2 (each.imp fun c w => Column.convert_eq_ok_iff.2)]
      rfl
  · rw [project_of_width width]
    constructor
    · intro h
      cases h
    · intro h
      exact absurd h.1 width

/-- A row of the right width is refused by the first visible column that does not take its value,
unless a cast before or at that column overflows. -/
theorem project_eq_error (width : row.length = request.columns.length) {e : Failure SinkError}
    (h : (resolve request shape).project row = .error e) :
    ∃ front c back, request.visible row = front ++ c :: back ∧
      (∀ before ∈ front, ∃ w, before.1.Takes request.bitsAsLong before.2 w) ∧
      ((∃ step, c.2.cast (c.1.storedType request.bitsAsLong) = .error (.overflow step)) ∨
        ∃ reason, c.1.Refuses request.bitsAsLong c.2 reason ∧
          e = .refused (.projection c.1.name reason)) := by
  rw [project, projectValues_resolve width] at h
  cases converted : (request.visible row).mapM fun c =>
    (c.1.stored request.bitsAsLong).convert c.2 with
  | ok values =>
    rw [converted] at h
    cases h
  | error e' =>
    rw [converted] at h
    cases h
    obtain ⟨front, c, back, split, passed, failed⟩ := exists_of_mapM_eq_error converted
    refine ⟨front, c, back, split, fun before there => ?_, Column.convert_eq_error failed⟩
    obtain ⟨w, taken⟩ := passed before there
    exact ⟨w, Column.convert_eq_ok_iff.1 taken⟩

/-- Only the width of a row and its values in visible columns are projected. -/
theorem project_sameVisible {plan : Plan} {bitsAsLong : Bool} {columns : List Column}
    (stored : plan.stored = storedColumns bitsAsLong columns)
    (same : Row.SameVisible columns row row') :
    plan.project row' = plan.project row := by
  have values : plan.stored.mapM (fun c => projectColumn row' c.1 c.2) =
      plan.stored.mapM fun c => projectColumn row c.1 c.2 := by
    apply mapM_congr
    intro c there
    rw [stored, storedColumns] at there
    obtain ⟨⟨given, i⟩, kept, rfl⟩ := List.mem_map.1 there
    obtain ⟨place, visible⟩ := List.mem_filter.1 kept
    have shown : given.isHidden = false := by simpa using visible
    have value := same.values i given (List.mem_zipIdx_iff_getElem?.1 place) shown
    simp only [projectColumn, value]
  rw [project, project, projectValues, projectValues, same.width, values]

end Plan

/-! ### Runs whose rows differ in hidden columns -/

namespace Sink

variable {ω τ : Type} (storage : Storage ω τ)

/-- The select list of the table after an operation and its answer. -/
def listed (op : Op) (answer : Except (Failure SinkError) Reply) (columns : List Column) :
    List Column :=
  match op, answer with
  | .create request, .ok _ => request.columns
  | .free, _ => []
  | _, _ => columns

/-- A sink stores the visible columns of a select list, if it has a table. -/
def Lists (s : Sink τ) (columns : List Column) : Prop :=
  ∀ plan, s.plan? = some plan →
    ∃ bitsAsLong, plan.stored = Plan.storedColumns bitsAsLong columns

/-- Operations that are the same but for the values of hidden columns. -/
inductive Op.Alike (columns : List Column) : Op → Op → Prop
  | same (op : Op) : Alike columns op op
  | insert {row row' : Row} : Row.SameVisible columns row row' →
      Alike columns (.insert row) (.insert row')

/-- Runs from a sink that are the same but for values in the hidden columns of the table that each
row is handed to. -/
inductive Alike : List Column → Sink τ → ω → List Op → List Op → Prop
  | nil {columns : List Column} {s : Sink τ} {w : ω} : Alike columns s w [] []
  | cons {columns : List Column} {s : Sink τ} {w : ω} {op op' : Op} {ops ops' : List Op} :
      op.Alike columns op' →
      Alike (listed op (step storage op s w).1 columns) (step storage op s w).2.1
        (step storage op s w).2.2 ops ops' →
      Alike columns s w (op :: ops) (op' :: ops')

/-- What each operation of a run answers, with the sink and the storage's world after it. -/
def trace (storage : Storage ω τ) :
    List Op → Sink τ → ω → List (Answer ω τ (Failure SinkError) Reply)
  | [], _, _ => []
  | op :: ops, s, w =>
    let after := step storage op s w
    after :: trace storage ops after.2.1 after.2.2

variable {storage} {s : Sink τ} {w : ω} {columns : List Column}

theorem Lists.step (h : s.Lists columns) (op : Op) :
    (step storage op s w).2.1.Lists (listed op (step storage op s w).1 columns) := by
  intro plan ht
  rw [plan?_step] at ht
  split at ht
  · next request reply made =>
    cases ht
    rw [made]
    exact ⟨_, rfl⟩
  · cases ht
  · next unfreed unmade =>
    unfold listed
    split
    · next made => exact (unmade _ _ rfl made).elim
    · exact (unfreed rfl).elim
    · exact h plan ht

/-- An operation does not see the values of hidden columns: a row is projected before anything else
is done with it. -/
theorem Lists.step_alike (h : s.Lists columns) {op op' : Op} (alike : op.Alike columns op') :
    Sink.step storage op' s w = Sink.step storage op s w := by
  cases alike with
  | same => rfl
  | @insert row row' same =>
    have inserted : s.insert storage row' w = s.insert storage row w := by
      rcases ht : s.table with _ | ⟨plan, handle⟩
      · simp only [Sink.insert, ht]
      · obtain ⟨bitsAsLong, stored⟩ := h plan (by rw [plan?, ht]; rfl)
        simp only [Sink.insert, ht, Plan.project_sameVisible stored same]
    simp only [Sink.step, inserted]

/-- Nor does a run. -/
theorem Lists.run_alike (h : s.Lists columns) {ops ops' : List Op}
    (alike : Alike storage columns s w ops ops') :
    trace storage ops' s w = trace storage ops s w ∧
      run storage ops' s w = run storage ops s w := by
  induction alike with
  | nil => exact ⟨rfl, rfl⟩
  | cons first rest ih =>
    obtain ⟨traced, ran⟩ := ih (h.step _)
    rw [trace, trace, run, run, List.foldl_cons, List.foldl_cons, h.step_alike first, traced]
    exact ⟨rfl, ran⟩

/-- What is stored of a row is its visible part. A row is projected exactly if it has a value for
each column of the select list and each visible column takes the value at its own position, and what
is stored reads back as the values so taken, in the order of the select list and in canonical form,
which changes only the bits of negative zeros and of NaNs. A row of another width is refused as a
whole, and where no cast overflows any other is refused by the first visible column that does not
take its value. So runs that are the same but for the values of hidden columns answer the same and
leave the same, over any storage. -/
theorem stores_visible (request : TableRequest) (shape : Shape) (row : Row) :
    let plan := Plan.resolve request shape
    let visible := request.visible row
    let takes := fun (c : Column × Value) (w : Value) => c.1.Takes request.bitsAsLong c.2 w
    ((∃ payload, plan.project row = .ok payload) ↔
      row.length = request.columns.length ∧ ∀ c ∈ visible, ∃ w, takes c w) ∧
    (∀ payload, plan.project row = .ok payload →
      ∃ values : Row, List.Forall₂ takes visible values ∧ payload = values.encode ∧
        values.canonical = values.map Value.withCanonicalBits ∧
        (values.LengthsFit → Row.decode payload = .ok values.canonical)) ∧
    (row.length ≠ request.columns.length → plan.project row = .error (.refused
      (.projection "*" s!"expected {request.columns.length} values, got {row.length}"))) ∧
    (row.length = request.columns.length →
      (∀ c ∈ visible, ∀ step,
        c.2.cast (c.1.storedType request.bitsAsLong) ≠ .error (.overflow step)) →
      ∀ e, plan.project row = .error e → ∃ front c back reason,
        visible = front ++ c :: back ∧ (∀ before ∈ front, ∃ w, takes before w) ∧
        c.1.Refuses request.bitsAsLong c.2 reason ∧
        e = .refused (.projection c.1.name reason)) ∧
    ∀ (ω τ : Type) (storage : Storage ω τ) (w : ω) (ops ops' : List Op),
      Alike storage [] {} w ops ops' →
        trace storage ops' {} w = trace storage ops {} w ∧
        run storage ops' {} w = run storage ops {} w := by
  intro plan visible takes
  refine ⟨⟨?_, ?_⟩, ?_, Plan.project_of_width, ?_, ?_⟩
  · rintro ⟨payload, projected⟩
    obtain ⟨width, values, each, -⟩ := Plan.project_eq_ok_iff.1 projected
    refine ⟨width, fun c there => ?_⟩
    obtain ⟨i, inside, rfl⟩ := List.mem_iff_getElem.1 there
    exact ⟨_, each.get inside (each.length_eq ▸ inside)⟩
  · rintro ⟨width, each⟩
    cases projected : plan.project row with
    | ok payload => exact ⟨payload, rfl⟩
    | error e =>
      obtain ⟨front, c, back, split, -, failed⟩ := Plan.project_eq_error width projected
      have there : c ∈ visible := by
        rw [show visible = _ from split]
        simp
      obtain ⟨w, taken⟩ := each c there
      rcases failed with ⟨step, overflow⟩ | ⟨reason, refused, -⟩
      · cases overflow.symm.trans taken.cast
      · exact absurd taken refused.not_takes
  · intro payload projected
    obtain ⟨-, values, each, rfl⟩ := Plan.project_eq_ok_iff.1 projected
    exact ⟨values, each, rfl, values.canonical_eq_map, Row.decode_encode⟩
  · intro width inRange e projected
    obtain ⟨front, c, back, split, passed, failed⟩ := Plan.project_eq_error width projected
    have there : c ∈ visible := by
      rw [show visible = _ from split]
      simp
    rcases failed with ⟨step, overflow⟩ | ⟨reason, refused, told⟩
    · exact absurd overflow (inRange c there step)
    · exact ⟨front, c, back, reason, split, passed, refused, told⟩
  · intro ω τ storage w ops ops' alike
    have nothing : ({} : Sink τ).Lists [] := fun _ ht => (nomatch ht)
    exact nothing.run_alike alike

/-- A request for whole numbers, never NULL, bit fields that are stored as whole numbers, and
doubles, with a hidden column between them. -/
def flagsRequest : TableRequest :=
  { columns := [{ name := "n", dataType := .int, nullable := false },
      { name := "k", dataType := .text, isHidden := true },
      { name := "b", dataType := .bit 8 }, { name := "x", dataType := .double },
      { name := "y", dataType := .double }], distinct := true, name := "f", bitsAsLong := true }

/-- A row is stored without its hidden value, whatever that is, and refused for NULL in its first
column. The number 1.5 is stored as it is, and a negative zero without its sign. -/
theorem stores_visible_flags :
    let plan := Plan.resolve flagsRequest {}
    let engine := oneRowEngine {}
    let row : Row := [.string "8", .boolean true, .bit 5, .double (.ofBits 0x3ff8000000000000),
      .double (.ofBits 0x8000000000000000)]
    let nulls : Row := [.null, .int 1, .null, .null, .null]
    (∃ payload, plan.project row = .ok payload ∧ Row.decode payload = .ok [.int 8, .bigInt 5,
      .double (.ofBits 0x3ff8000000000000), .double (.ofBits 0)]) ∧
    (∃ c ∈ flagsRequest.visible nulls, c.1.name = "n" ∧
      c.1.Refuses true c.2 "column cannot be null") ∧
    ∀ hidden : Value,
      run Engine.storage [.create flagsRequest, .insert [.int 7, hidden, .null, .null, .null]] {}
          engine =
        run Engine.storage [.create flagsRequest, .insert [.int 7, .null, .null, .null, .null]] {}
          engine := by
  intro plan engine row nulls
  obtain ⟨-, reads, -, -, -⟩ := stores_visible flagsRequest {} row
  obtain ⟨-, -, -, refuses, blind⟩ := stores_visible flagsRequest {} nulls
  refine ⟨?_, ?_, fun hidden => ?_⟩
  · have projected : plan.project row = .ok (Row.encode [.int 8, .bigInt 5,
        .double (.ofBits 0x3ff8000000000000), .double (.ofBits 0x8000000000000000)]) := by rfl
    obtain ⟨values, each, same, bits, back⟩ := reads _ projected
    have shown : flagsRequest.visible row =
        [({ name := "n", dataType := .int, nullable := false }, .string "8"),
          ({ name := "b", dataType := .bit 8 }, .bit 5),
          ({ name := "x", dataType := .double }, .double (.ofBits 0x3ff8000000000000)),
          ({ name := "y", dataType := .double }, .double (.ofBits 0x8000000000000000))] := by rfl
    rw [shown] at each
    obtain _ | ⟨first, _ | ⟨second, _ | ⟨third, _ | ⟨fourth, _ | _⟩⟩⟩⟩ := each
    have number : (Value.string "8").cast .int = .ok (.int 8) := by decide +kernel
    have flags : (Value.bit 5).cast .bigInt = .ok (.bigInt 5) := by decide +kernel
    have double (x : Double) : (Value.double x).cast .double = .ok (.double x) := by rfl
    cases number.symm.trans first.cast
    cases flags.symm.trans second.cast
    cases (double _).symm.trans third.cast
    cases (double _).symm.trans fourth.cast
    have read := back ⟨by decide, by simp [Value.LengthFits]⟩
    rw [bits] at read
    exact ⟨_, projected, same ▸ read⟩
  · have refused : plan.project nulls =
        .error (.refused (.projection "n" "column cannot be null")) := by rfl
    have inRange : ∀ c ∈ flagsRequest.visible nulls, ∀ step,
        c.2.cast (c.1.storedType true) ≠ .error (.overflow step) := by
      have shown : flagsRequest.visible nulls =
          [({ name := "n", dataType := .int, nullable := false }, .null),
            ({ name := "b", dataType := .bit 8 }, .null),
            ({ name := "x", dataType := .double }, .null),
            ({ name := "y", dataType := .double }, .null)] := by rfl
      simp [shown, Value.cast_null]
    obtain ⟨front, c, back, reason, split, -, cause, told⟩ := refuses rfl inRange _ refused
    injection told with told
    injection told with name text
    refine ⟨c, by simp [split], name.symm, text ▸ cause⟩
  · have made : listed (.create flagsRequest)
        (step Engine.storage (.create flagsRequest) {} engine).1 [] = flagsRequest.columns := by rfl
    refine (blind _ _ Engine.storage engine _ _ (.cons (.same _) (.cons (.insert ?_) .nil))).2
    rw [made]
    refine ⟨rfl, fun i c there shown => ?_⟩
    rcases i with _ | _ | i
    · rfl
    · cases there
      cases shown
    · rfl

end Sink

end ResultSink
