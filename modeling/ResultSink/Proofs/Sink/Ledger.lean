import ResultSink.Proofs.Record.RoundTrip
import ResultSink.Proofs.Sink.Plan
import ResultSink.Sink.Run

/-! The ledger of a run: the rows that a sink took since its table was provisioned or emptied, in
the order in which it took them. `Keeps` ties a sink and its engine to a ledger; every operation
keeps it, and so does every run. -/

namespace ResultSink

namespace Sink

section Definitions

variable {ω τ : Type}

/-- What a row becomes in the stored columns, in canonical form. -/
def projection? (s : Sink τ) (row : Row) : Option Row :=
  match s.table with
  | none => none
  | some t =>
    match t.plan.projectValues row with
    | .ok values => some values.canonical
    | .error _ => none

/-- The ledger after an operation and its answer. -/
def noted (s : Sink τ) (op : Op) (answer : Except (Failure SinkError) Reply) (rows : List Row) :
    List Row :=
  match op, answer with
  | .create _, .ok _ => []
  | .reset, _ | .cleanup, _ => []
  | .insert row, .ok (.outcome .inserted) => rows ++ (s.projection? row).toList
  | _, _ => rows

/-- The ledger of a run that goes on from a sink, a world and a ledger. -/
def ledger (storage : Storage ω τ) : List Op → Sink τ → ω → List Row → List Row
  | [], _, _, rows => rows
  | op :: ops, s, w, rows =>
    let after := step storage op s w
    ledger storage ops after.2.1 after.2.2 (s.noted op after.1 rows)

end Definitions

end Sink

namespace Plan

/-- The record that is stored of a projected row. -/
def rowRecord (plan : Plan) (row : Row) : Record := plan.recordOf row.encode

theorem rowRecord_canonical (plan : Plan) (row : Row) :
    plan.rowRecord row.canonical = plan.rowRecord row := by
  rw [rowRecord, Row.encode_canonical, rowRecord]

theorem size_encode_le (plan : Plan) (row : Row) : row.encode.size ≤ (plan.rowRecord row).size := by
  rw [rowRecord, size_recordOf]
  exact Nat.le_add_right _ _

/-- A row is read back in canonical form. -/
theorem readRecord_rowRecord (plan : Plan) {row : Row} (h : row.LengthsFit) :
    plan.readRecord (plan.rowRecord row) = .ok row.canonical := by
  have decoded := Row.decode_encode h
  unfold readRecord rowRecord recordOf
  by_cases hs : plan.strategy = .hashKey
  · rw [if_pos hs, if_pos hs, Record.splitHash_appendHash]
    dsimp only
    rw [decoded]
    rfl
  · rw [if_neg hs, if_neg hs, decoded]
    rfl

/-- The row that a record was made of. -/
def rowOf (plan : Plan) (record : Record) : Row := (plan.readRecord record).toOption.getD []

theorem rowOf_rowRecord (plan : Plan) {row : Row} (h : row.LengthsFit) :
    plan.rowOf (plan.rowRecord row) = row.canonical := by
  rw [rowOf, plan.readRecord_rowRecord h]
  rfl

end Plan

namespace Sink

/-- A row is turned away before it reaches a table, or it is projected for one. -/
theorem insert_reaches {ω τ : Type} (storage : Storage ω τ) (s : Sink τ) (row : Row) (w : ω) :
    (∃ e, s.insert storage row w = (.error e, s, w)) ∨
      ∃ plan t values, s.table = some ⟨plan, some t⟩ ∧ plan.projectValues row = .ok values := by
  match ht : s.table with
  | none => exact .inl ⟨_, by rw [Sink.insert, ht]⟩
  | some ⟨plan, handle⟩ =>
    cases hv : plan.projectValues row with
    | error e => exact .inl ⟨e, by simp [Sink.insert, ht, Plan.project, hv, Except.map]⟩
    | ok values =>
      cases handle with
      | none => exact .inl ⟨_, by simp [Sink.insert, ht, Plan.project, hv, Except.map]; rfl⟩
      | some t => exact .inr ⟨plan, t, values, rfl, hv⟩

theorem insert_cases (s : Sink Table) (row : Row) (engine : Engine) :
    (∃ e, s.insert Engine.storage row engine = (.error e, s, engine)) ∨
      ∃ plan t values, s.table = some ⟨plan, some t⟩ ∧ plan.projectValues row = .ok values :=
  insert_reaches Engine.storage s row engine

theorem withHandle_self {τ : Type} {s : Sink τ} {plan : Plan} {t : τ}
    (ht : s.table = some ⟨plan, some t⟩) : s.withHandle plan t = s := by
  rw [withHandle, ← ht]

/-- A row that is projected for a table is noted in canonical form. -/
theorem projection?_eq {τ : Type} {s : Sink τ} {plan : Plan} {handle : Option τ}
    (ht : s.table = some ⟨plan, handle⟩) {row values : Row}
    (hv : plan.projectValues row = .ok values) : s.projection? row = some values.canonical := by
  rw [projection?, ht]
  dsimp only
  rw [hv]

/-- A sink and its engine keep the rows of a ledger. -/
structure Keeps (s : Sink Table) (engine : Engine) (rows : List Row) : Prop where
  rowCount : s.rowCount = if s.table.isSome then rows.length else 0
  canonical : ∀ row ∈ rows, row.canonical = row
  sizes : ∀ row ∈ rows, row.encode.size ≤ maxRecordSize
  resolved : ∀ t, s.table = some t → ∃ request shape, t.plan = Plan.resolve request shape
  pending : ∀ plan, s.table = some ⟨plan, none⟩ → rows = []
  serves : ∀ plan t, s.table = some ⟨plan, some t⟩ →
    plan.Serves engine.config t (rows.map plan.rowRecord)

namespace Keeps

variable {s : Sink Table} {engine : Engine} {rows : List Row}

theorem init (engine : Engine) : ({} : Sink Table).Keeps engine [] where
  rowCount := rfl
  canonical _ h := nomatch h
  sizes _ h := nomatch h
  resolved _ h := nomatch h
  pending _ h := nomatch h
  serves _ _ h := nomatch h

theorem frame (h : s.Keeps engine rows) {next : Engine} (hf : engine.Frame next) :
    s.Keeps next rows :=
  { h with serves := fun plan t ht => hf.config ▸ h.serves plan t ht }

theorem lengthsFit (h : s.Keeps engine rows) {row : Row} (hr : row ∈ rows) : row.LengthsFit :=
  Row.lengthsFit_of_size (Nat.lt_of_le_of_lt (h.sizes row hr) (by decide))

/-- Two sinks that differ only in their shape and in whether they eliminate keep the same rows. -/
theorem congr (h : s.Keeps engine rows) {s' : Sink Table} (ht : s'.table = s.table)
    (hc : s'.rowCount = s.rowCount) : s'.Keeps engine rows where
  rowCount := by rw [hc, ht, h.rowCount]
  canonical := h.canonical
  sizes := h.sizes
  resolved t ht' := h.resolved t (ht ▸ ht')
  pending plan ht' := h.pending plan (ht ▸ ht')
  serves plan t ht' := h.serves plan t (ht ▸ ht')

/-- Among the records of a ledger is that of a row exactly if the row is in the ledger. -/
theorem mem_records_iff (h : s.Keeps engine rows) (plan : Plan) (values : Row) :
    plan.rowRecord values ∈ rows.map plan.rowRecord ↔ values.canonical ∈ rows := by
  constructor
  · intro there
    obtain ⟨row, hr, same⟩ := List.mem_map.1 there
    have bytes : row.encode = values.encode := Plan.recordOf_inj.1 same
    have fits : values.LengthsFit :=
      Row.lengthsFit_of_size (Nat.lt_of_le_of_lt (bytes ▸ h.sizes row hr) (by decide))
    have forms := (Row.encode_eq_iff (h.lengthsFit hr) fits).1 bytes
    rwa [← forms, h.canonical row hr]
  · intro there
    rw [← plan.rowRecord_canonical values]
    exact List.mem_map_of_mem there

/-- A sink without rows keeps an empty ledger, if its table serves its plan. -/
theorem of_empty {s : Sink Table} (hc : s.rowCount = 0)
    (resolved : ∀ t, s.table = some t → ∃ request shape, t.plan = Plan.resolve request shape)
    (serves : ∀ plan t, s.table = some ⟨plan, some t⟩ → plan.Serves engine.config t []) :
    s.Keeps engine [] where
  rowCount := by rw [hc]; split <;> rfl
  canonical _ h := nomatch h
  sizes _ h := nomatch h
  resolved := resolved
  pending _ _ := rfl
  serves := serves

/-! ### Operations -/

theorem create (h : s.Keeps engine rows) (request : TableRequest) :
    let after := step Engine.storage (.create request) s engine
    after.2.1.Keeps after.2.2 (s.noted (.create request) after.1 rows) := by
  obtain ⟨frame, allocated⟩ := (Plan.resolve request s.shape).allocate_spec engine
  cases ht : s.table with
  | some t => simpa [step, Sink.create, ht, noted] using h
  | none =>
    by_cases hi : (Plan.resolve request s.shape).instantiate = true
    · rcases ha : (Plan.resolve request s.shape).allocate Engine.storage engine with
        ⟨e | t, next⟩
      · rw [ha] at frame
        simpa [step, Sink.create, ht, hi, ha, noted] using h.frame frame
      · rw [ha] at frame allocated
        have kept : (({ shape := s.shape, table := some ⟨Plan.resolve request s.shape, none⟩ } :
            Sink Table).withHandle (Plan.resolve request s.shape) t).Keeps next [] := by
          refine of_empty rfl (fun table same => ?_) fun plan table same => ?_
          · cases same
            exact ⟨request, s.shape, rfl⟩
          · cases same
            exact frame.config ▸ allocated t rfl
        simpa [step, Sink.create, ht, hi, ha, noted] using kept
    · have kept : ({ shape := s.shape, table := some ⟨Plan.resolve request s.shape, none⟩ } :
          Sink Table).Keeps engine [] := by
        refine of_empty rfl (fun table same => ?_) fun plan table same => ?_
        · cases same
          exact ⟨request, s.shape, rfl⟩
        · cases same
      simpa [step, Sink.create, ht, hi, noted] using kept

theorem instantiate (h : s.Keeps engine rows) :
    let after := step Engine.storage .instantiate s engine
    after.2.1.Keeps after.2.2 (s.noted .instantiate after.1 rows) := by
  match ht : s.table with
  | none => simpa [step, Sink.instantiate, ht, noted] using h
  | some ⟨plan, some t⟩ => simpa [step, Sink.instantiate, ht, noted] using h
  | some ⟨plan, none⟩ =>
    obtain ⟨frame, allocated⟩ := plan.allocate_spec engine
    rcases ha : plan.allocate Engine.storage engine with ⟨e | t, next⟩
    · rw [ha] at frame
      simpa [step, Sink.instantiate, ht, ha, noted] using h.frame frame
    · rw [ha] at frame allocated
      obtain rfl := h.pending plan ht
      have kept : (s.withHandle plan t).Keeps next [] := by
        refine of_empty ?_ (fun table same => ?_) fun plan table same => ?_
        · rw [withHandle, h.rowCount, ht]
          rfl
        · cases same
          exact h.resolved ⟨plan, none⟩ ht
        · cases same
          exact frame.config ▸ allocated t rfl
      simpa [step, Sink.instantiate, ht, ha, noted] using kept

theorem free (h : s.Keeps engine rows) : s.free.Keeps engine rows where
  rowCount := rfl
  canonical := h.canonical
  sizes := h.sizes
  resolved _ none := nomatch none
  pending _ none := nomatch none
  serves _ _ none := nomatch none

theorem reset (h : s.Keeps engine rows) :
    (s.reset Engine.storage engine).1 = .ok () ∧
      (s.reset Engine.storage engine).2.2 = engine ∧
      (s.reset Engine.storage engine).2.1.Keeps engine [] := by
  match ht : s.table with
  | none =>
    simp only [Sink.reset, ht]
    exact ⟨trivial, trivial, of_empty rfl (fun t same => h.resolved t (ht ▸ same))
      fun plan t same => nomatch same⟩
  | some ⟨plan, none⟩ =>
    simp only [Sink.reset, ht]
    refine ⟨trivial, trivial, of_empty rfl (fun t same => h.resolved t (ht ▸ same)) ?_⟩
    rintro other t ⟨⟩
  | some ⟨plan, some t⟩ =>
    obtain ⟨cleared, serves⟩ := (h.serves plan t ht).clear
    simp only [Sink.reset, ht, cleared]
    refine ⟨trivial, trivial, of_empty rfl (fun table same => ?_) fun plan table same => ?_⟩
    · cases same
      exact h.resolved ⟨plan, some t⟩ ht
    · cases same
      exact serves

/-- A row that is projected for a table is inserted there, and the count is of what is held then. -/
theorem insert_reached (h : s.Keeps engine rows) {plan : Plan} {t : Table}
    (ht : s.table = some ⟨plan, some t⟩) {row values : Row}
    (hv : plan.projectValues row = .ok values) :
    ∃ answer next world held,
      s.insert Engine.storage row engine =
        (answer.mapError fun e => .refused (plan.fatal e),
          { s.withHandle plan next with rowCount := held.length }, world) ∧
      engine.Frame world ∧ plan.Serves engine.config next held ∧
      plan.Inserts engine s.eliminating t (rows.map plan.rowRecord) values.encode answer held := by
  obtain ⟨answer, next, world, held, inserted, frame, serves, inserts⟩ :=
    (h.serves plan t ht).insert s.eliminating values.encode
  have projected : plan.project row = .ok values.encode := by rw [Plan.project, hv]; rfl
  have count : s.rowCount = (rows.map plan.rowRecord).length := by
    rw [h.rowCount, ht, List.length_map]
    rfl
  refine ⟨answer, next, world, held, ?_, frame, serves, inserts⟩
  rw [Sink.insert, ht]
  dsimp only
  rw [projected]
  dsimp only
  rw [inserted]
  cases inserts with
  | found => simp [withHandle, count]
  | stored _ stores =>
    cases stores with
    | inserted => simp [withHandle, count]
    | duplicate => simp [withHandle, count]
    | failed => simp [withHandle, count]

theorem insert (h : s.Keeps engine rows) (row : Row) :
    let after := step Engine.storage (.insert row) s engine
    after.2.1.Keeps after.2.2 (s.noted (.insert row) after.1 rows) := by
  rcases insert_cases s row engine with ⟨e, turned⟩ | ⟨plan, t, values, ht, hv⟩
  · simpa [step, turned, noted, Except.map] using h
  obtain ⟨answer, next, world, held, inserted, frame, serves, inserts⟩ := h.insert_reached ht hv
  have unchanged (same : held = rows.map plan.rowRecord) :
      ({ s.withHandle plan next with rowCount := held.length } : Sink Table).Keeps world rows := by
    refine ⟨by simp [withHandle, same], h.canonical, h.sizes, ?_, ?_, ?_⟩
    · rintro table ⟨⟩
      exact h.resolved ⟨plan, some t⟩ ht
    · rintro other ⟨⟩
    · rintro other table ⟨⟩
      exact frame.config ▸ same ▸ serves
  cases inserts with
  | found => simpa [step, inserted, noted, Except.map] using unchanged rfl
  | stored _ stores =>
    cases stores with
    | duplicate => simpa [step, inserted, noted, Except.map] using unchanged rfl
    | failed => simpa [step, inserted, noted, Except.map] using unchanged rfl
    | inserted possible fresh =>
      have small : (plan.rowRecord values).size ≤ maxRecordSize :=
        Nat.le_of_not_lt fun large => possible _ (.tooLarge large)
      have bytes : values.canonical.encode.size ≤ maxRecordSize := by
        rw [Row.encode_canonical]
        exact Nat.le_trans (plan.size_encode_le values) small
      have projection := projection?_eq ht hv
      have joined : (rows ++ [values.canonical]).map plan.rowRecord =
          rows.map plan.rowRecord ++ [plan.rowRecord values] := by
        simp [plan.rowRecord_canonical]
      have kept : ({ s.withHandle plan next with
          rowCount := (rows.map plan.rowRecord ++ [plan.rowRecord values]).length } :
          Sink Table).Keeps world (rows ++ [values.canonical]) := by
        refine ⟨by simp [withHandle], fun r hr => ?_, fun r hr => ?_, ?_, ?_, ?_⟩
        · rcases List.mem_append.1 hr with hr | hr
          · exact h.canonical r hr
          · rw [List.mem_singleton.1 hr, Row.canonical_canonical]
        · rcases List.mem_append.1 hr with hr | hr
          · exact h.sizes r hr
          · rw [List.mem_singleton.1 hr]
            exact bytes
        · rintro table ⟨⟩
          exact h.resolved ⟨plan, some t⟩ ht
        · rintro other ⟨⟩
        · rintro other table ⟨⟩
          rw [joined]
          exact frame.config ▸ serves
      simpa [step, inserted, noted, projection, Except.map] using kept

/-- Each record of the table is read back as the row of the ledger that it was made of. -/
theorem readRecord_eq (h : s.Keeps engine rows) (plan : Plan) {record : Record}
    (hr : record ∈ rows.map plan.rowRecord) :
    plan.readRecord record = .ok (plan.rowOf record) ∧
      plan.rowRecord (plan.rowOf record) = record := by
  obtain ⟨row, there, rfl⟩ := List.mem_map.1 hr
  have read := plan.readRecord_rowRecord (h.lengthsFit there)
  rw [plan.rowOf_rowRecord (h.lengthsFit there), read, h.canonical row there]
  exact ⟨rfl, rfl⟩

theorem map_rowOf (h : s.Keeps engine rows) (plan : Plan) :
    (rows.map plan.rowRecord).map plan.rowOf = rows := by
  rw [List.map_map]
  refine (List.map_congr_left fun row hr => ?_).trans (List.map_id rows)
  exact (plan.rowOf_rowRecord (h.lengthsFit hr)).trans (h.canonical row hr)

/-- What is scanned are the records of the rows that are returned, in the same order. -/
theorem scan_eq (h : s.Keeps engine rows) {plan : Plan} {t : Table}
    (ht : s.table = some ⟨plan, some t⟩) :
    ∃ records, t.scan = .ok records ∧ t.ReadsAs (rows.map plan.rowRecord) records ∧
      s.rows Engine.storage engine = (.ok (records.map plan.rowOf), s, engine) ∧
      (records.map plan.rowOf).map plan.rowRecord = records := by
  obtain ⟨records, scanned, order⟩ := (h.serves plan t ht).holds.scan
  have there (record : Record) (hr : record ∈ records) : record ∈ rows.map plan.rowRecord :=
    order.perm.mem_iff.1 hr
  have reads : records.mapM plan.readRecord = .ok (records.map plan.rowOf) :=
    mapM_eq_ok fun record hr => (h.readRecord_eq plan (there record hr)).1
  have back (record : Record) (hr : record ∈ records) :
      plan.rowRecord (plan.rowOf record) = record := (h.readRecord_eq plan (there record hr)).2
  have same := withHandle_self ht
  refine ⟨records, scanned, order, by simp [Sink.rows, ht, Plan.rows, scanned, reads, same], ?_⟩
  rw [List.map_map]
  exact (List.map_congr_left back).trans (List.map_id records)

/-- The rows of an instantiated table are those of the ledger. -/
theorem rows_eq (h : s.Keeps engine rows) {plan : Plan} {t : Table}
    (ht : s.table = some ⟨plan, some t⟩) :
    ∃ read, s.rows Engine.storage engine = (.ok read, s, engine) ∧
      if t.placement = .disk ∧ plan.strategy = .uniqueKey then
        read.Perm rows ∧ read.Pairwise fun a b => Record.Before a.encode b.encode
      else read = rows := by
  obtain ⟨records, -, order, answer, back⟩ := h.scan_eq ht
  have key : t.spec.key = .unique ↔ plan.strategy = .uniqueKey := by
    rw [(h.serves plan t ht).key, Strategy.key_eq_unique]
  unfold Table.ReadsAs at order
  simp only [key] at order
  refine ⟨records.map plan.rowOf, answer, ?_⟩
  split at order
  · next disk =>
    have notHash : ¬plan.strategy = .hashKey := by rw [disk.2]; decide
    have plain (row : Row) : plan.rowRecord row = row.encode := by
      rw [Plan.rowRecord, Plan.recordOf, if_neg notHash]
    rw [if_pos disk]
    refine ⟨?_, ?_⟩
    · rw [← h.map_rowOf plan]
      exact order.1.map plan.rowOf
    · have ordered := order.2
      rw [← back, List.pairwise_map] at ordered
      simpa only [plain] using ordered
  · next other => rw [if_neg other, order, h.map_rowOf plan]

/-- Every operation keeps the ledger. -/
theorem step (h : s.Keeps engine rows) (op : Op) :
    let after := Sink.step Engine.storage op s engine
    after.2.1.Keeps after.2.2 (s.noted op after.1 rows) := by
  cases op with
  | prepare shape => exact h.congr rfl rfl
  | create request => exact h.create request
  | instantiate => exact h.instantiate
  | free => exact h.free
  | insert row => exact h.insert row
  | setEliminating on =>
    by_cases fixed : (!on && s.strategy? = some .uniqueKey) = true
    · simpa [Sink.step, setEliminating, fixed, noted] using h
    · have kept : ({ s with eliminating := on } : Sink Table).Keeps engine rows := h.congr rfl rfl
      simpa [Sink.step, setEliminating, fixed, noted] using kept
  | endOfRows => exact h
  | flush => exact h
  | reset =>
    obtain ⟨-, same, kept⟩ := h.reset
    simpa [Sink.step, noted, same] using kept
  | cleanup =>
    obtain ⟨-, same, kept⟩ := h.reset
    simpa [Sink.step, Sink.cleanup, noted, same] using kept
  | rows =>
    match ht : s.table with
    | none => simpa [Sink.step, Sink.rows, ht, noted] using h
    | some ⟨plan, none⟩ => simpa [Sink.step, Sink.rows, ht, noted] using h
    | some ⟨plan, some t⟩ =>
      obtain ⟨read, answer, -⟩ := h.rows_eq ht
      simpa [Sink.step, answer, noted, Except.map] using h

/-- Every run keeps the ledger. -/
theorem run (h : s.Keeps engine rows) (ops : List Op) :
    (Sink.run Engine.storage ops s engine).1.Keeps (Sink.run Engine.storage ops s engine).2
      (ledger Engine.storage ops s engine rows) := by
  induction ops generalizing s engine rows with
  | nil => exact h
  | cons op ops ih => exact ih (h.step op)

end Keeps

end Sink

end ResultSink
