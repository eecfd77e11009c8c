import ResultSink.Proofs.Sink.Lifecycle
import ResultSink.Proofs.Sink.Width
import ResultSink.Proofs.Storage.Writes

/-! The first row of a table in memory. An engine starts a table in memory only if a record of the
width asked for fits there with its overhead, which is what the table charges for it; so the first
record of that width has room, and a sink whose rows are as wide as estimated does not move its
table for the first of them. -/

namespace ResultSink

/-! ### Room for one record -/

/-- A valid configuration has room in memory for one record that fits with its overhead. -/
theorem Config.not_full_nil {config : Config} (valid : config.error? = none) {width size : Nat}
    (room : width + rowOverhead ≤ config.memoryLimit) (small : size ≤ width) :
    ¬config.Full .memory [] size := by
  have rows : config.memoryRows ≠ some 0 := by
    intro none
    unfold error? at valid
    split at valid
    · cases valid
    · cases valid
  rintro (⟨limit, given, reached⟩ | excess)
  · rw [List.length_nil, Nat.le_zero] at reached
    exact rows (reached ▸ given)
  · rw [footprint_nil] at excess
    omega

/-- A table starts in memory only if one record of the width asked for fits there. -/
theorem Engine.create_memory {engine : Engine} {spec : TableSpec} {t : Table}
    (created : (engine.create spec).1 = .ok t) (place : t.placement = .memory) :
    spec.recordWidth + rowOverhead ≤ engine.config.memoryLimit := by
  simp only [create] at created
  split at created
  · cases created
  · next start =>
    unfold startsOnDisk at start
    split at start
    · cases start
    · unfold tooWide at start
      split at start
      · cases start
      · exact Nat.le_of_not_lt (of_decide_eq_false (Except.ok.inj start))
  · split at created
    · cases created
    · cases created
      cases place

/-- Only a full table is to be moved. -/
theorem Reaction.tableFull_of_exceeded {ignores : Bool} {e : StorageError}
    (h : Reaction.of ignores e = .capacityExceeded) :
    ∃ placement rows bytes, e = .tableFull placement rows bytes := by
  cases e with
  | tableFull placement rows bytes => exact ⟨placement, rows, bytes, rfl⟩
  | duplicateKey => cases ignores <;> cases h
  | _ => cases h

/-- A table says that it is full only if it has no room. -/
theorem Table.full_of_refusal? {config : Config} {placement place : Placement} {key : Key}
    {records : List Record} {record : Record} {rows bytes : Nat}
    (h : Table.refusal? config placement key records record = some (.tableFull place rows bytes)) :
    config.Full placement records record.size := by
  unfold Table.refusal? at h
  split at h
  · cases h
  · split at h
    · next full => exact full
    · unfold keyRefusal? at h
      split at h
      · cases h
      · split at h <;> cases h
      · split at h <;> cases h

/-- A write that fails where there is room is no reason to move the table. -/
theorem Table.Holds.reaction_of_room {config : Config} {t : Table} {records : List Record}
    (h : t.Holds config records) {record : Record}
    (room : ¬config.Full t.placement records record.size) {e : StorageError}
    (failed : t.write record = .error e) : t.reaction e ≠ .capacityExceeded := by
  intro exceeded
  obtain ⟨placement, rows, bytes, rfl⟩ := Reaction.tableFull_of_exceeded exceeded
  cases refusal : Table.refusal? config t.placement t.spec.key records record with
  | none =>
    obtain ⟨next, written, -⟩ := h.write_stored refusal
    cases written.symm.trans failed
  | some cause =>
    cases (h.write_refused refusal).symm.trans failed
    exact room (Table.full_of_refusal? refusal)

namespace Plan

variable {plan : Plan} {t t₁ : Table} {records : List Record} {payload : Record} {w w' : Engine}
  {t' : Numbered Table} {answer : Except SinkError InsertOutcome} {calls : List (Call Table)}

/-- A write does not move a table, and where there is room it gives no reason to. -/
theorem Serves.write_stays (h : plan.Serves w.config t records) {record : Record}
    (room : ¬w.config.Full t.placement records record.size) {wrote : Except StorageError Unit}
    (hw : Engine.storage.write record t w = (wrote, t₁, w')) :
    t₁.placement = t.placement ∧ ∀ e, wrote = .error e → t₁.reaction e ≠ .capacityExceeded := by
  obtain ⟨-, ⟨cause, written, rfl, rfl⟩ | ⟨written, rfl⟩⟩ := storage_write_cases hw
  · refine ⟨rfl, fun e failed => ?_⟩
    cases failed
    exact h.holds.reaction_of_room room written
  · exact ⟨(h.holds.write_ok written).2.placement, fun e failed => nomatch failed⟩

/-- Where there is room for a record, its first write settles it. -/
theorem Serves.course_stays (h : plan.Serves w.config t records) {record : Record}
    (room : ¬w.config.Full t.placement records record.size)
    (hc : Course Engine.storage plan record t w answer t' w' calls) :
    Call.promotions calls = [] ∧ t'.table.placement = t.placement := by
  cases hc with
  | settled hw => exact ⟨rfl, (h.write_stays room hw).1⟩
  | unmoved hw exceeded | moved hw exceeded =>
    exact absurd exceeded ((h.write_stays room hw).2 _ rfl)

theorem Serves.insertion_stays (h : plan.Serves w.config t records)
    (room : ¬w.config.Full t.placement records (plan.recordOf payload).size) {eliminating : Bool}
    (hi : Insertion Engine.storage plan eliminating payload t w answer t' w' calls) :
    Call.promotions calls = [] ∧ t'.table.placement = t.placement := by
  cases hi with
  | unread _ hr | unsplit _ hr | found _ hr =>
    obtain ⟨rfl, rfl⟩ := storage_readHash_leaves hr
    exact ⟨rfl, rfl⟩
  | new _ hr _ course =>
    obtain ⟨rfl, rfl⟩ := storage_readHash_leaves hr
    obtain ⟨promotions, place⟩ := h.course_stays room course
    exact ⟨promotions, place⟩
  | unasked _ course => exact h.course_stays room course

/-! ### Tables that are not used yet -/

/-- A table in memory that was made for a plan and holds nothing, with room for one record. -/
structure Unused (plan : Plan) (config : Config) (t : Table) : Prop where
  serves : plan.Serves config t []
  memory : t.placement = .memory
  room : plan.tableSpec.recordWidth + rowOverhead ≤ config.memoryLimit

theorem Unused.clear {config : Config} (h : plan.Unused config t) : plan.Unused config t.clear where
  serves := h.serves.step h.serves.holds.clear.1 h.serves.holds.clear.2
  memory := h.serves.holds.clear.2.placement.trans h.memory
  room := h.room

/-- What is done to a table after it is created does not move it. -/
theorem exists_created (allocated : (plan.allocate Engine.storage w).1 = .ok t) :
    ∃ made, (w.create plan.tableSpec).1 = .ok made ∧ made.placement = t.placement := by
  unfold allocate at allocated
  rw [storage_create] at allocated
  rcases hc : w.create plan.tableSpec with ⟨e | made, w'⟩
  · rw [hc] at allocated
    cases allocated
  · rw [hc] at allocated
    refine ⟨made, rfl, ?_⟩
    simp only [storage_ignoreDuplicates, storage_openIndex, Table.openIndex] at allocated
    split at allocated
    · rcases ho : (made.setIgnoresDuplicates true).index.openLookups with e | index
      · rw [ho] at allocated
        cases allocated
      · rw [ho] at allocated
        cases allocated
        simp
    · cases allocated
      simp

/-- A table that is allocated in memory is one of them. -/
theorem allocate_unused (allocated : (plan.allocate Engine.storage w).1 = .ok t)
    (memory : t.placement = .memory) : plan.Unused w.config t where
  serves := (plan.allocate_spec w).2 t allocated
  memory := memory
  room := by
    obtain ⟨made, created, same⟩ := exists_created allocated
    exact Engine.create_memory created (same.trans memory)

end Plan

namespace Sink

/-! ### What becomes of a table -/

/-- How a sink comes by the table that it has after an operation: the table is new, it was there, it
was there and is emptied, or a row was handed to it. -/
inductive Yields (s : Sink Table) (w : Engine) (plan : Plan) : Op → Table → Prop
  | made {op : Op} {t : Table} : s.handle? = none → (plan.allocate Engine.storage w).1 = .ok t →
      Yields s w plan op t
  | kept {op : Op} {t : Table} : s.table = some ⟨plan, some t⟩ → Yields s w plan op t
  | emptied {op : Op} {t : Table} : s.table = some ⟨plan, some t⟩ → Yields s w plan op t.clear
  | filled {row : Row} {payload : Record} {t t' : Table} : s.table = some ⟨plan, some t⟩ →
      plan.project row = .ok payload → Yields s w plan (.insert row) t'

/-- What an operation leaves of a sink and its engine: the engine's configuration and machine, and
a table that the operation yields, if there is one. -/
structure Leaves (s : Sink Table) (w : Engine) (op : Op) (next : Sink Table) (w' : Engine) :
    Prop where
  frame : w.Frame w'
  yields : ∀ plan t, next.table = some ⟨plan, some t⟩ → s.Yields w plan op t

namespace Leaves

variable {s next : Sink Table} {w w' : Engine} {op : Op}

theorem of_table (frame : w.Frame w') (same : next.table = s.table) : s.Leaves w op next w' where
  frame := frame
  yields _ _ there := .kept (same.symm.trans there)

theorem of_none (frame : w.Frame w') (none : next.handle? = none) : s.Leaves w op next w' where
  frame := frame
  yields plan t there := by
    rw [handle?, there] at none
    cases none

/-- A new table comes with the engine that allocated it. -/
theorem of_allocate {plan : Plan} {t : Table} (fresh : s.handle? = none)
    (allocated : plan.allocate Engine.storage w = (.ok t, w'))
    (made : next.table = some ⟨plan, some t⟩) : s.Leaves w op next w' where
  frame := by simpa [allocated] using (plan.allocate_spec w).1
  yields other t' there := by
    cases made.symm.trans there
    exact .made fresh (by rw [allocated])

end Leaves

/-- An operation neither frees the table of a plan nor hands it a row that it takes. -/
def Op.Idle (plan : Plan) : Op → Prop
  | .free => False
  | .insert row => ∀ payload, plan.project row ≠ .ok payload
  | _ => True

namespace Keeps

variable {s : Sink Table} {w : Engine} {rows : List Row}

theorem step_leaves (h : s.Keeps w rows) (op : Op) :
    s.Leaves w op (Sink.step Engine.storage op s w).2.1 (Sink.step Engine.storage op s w).2.2 := by
  cases op with
  | prepare shape | endOfRows | flush => exact .of_table (.refl w) rfl
  | free => exact .of_none (.refl w) rfl
  | create request =>
    have frame := ((Plan.resolve request s.shape).allocate_spec w).1
    rcases ht : s.table with _ | other
    · by_cases hi : (Plan.resolve request s.shape).instantiate = true
      · rcases ha : (Plan.resolve request s.shape).allocate Engine.storage w with ⟨e | t, w'⟩
        · rw [ha] at frame
          simp only [Sink.step, Sink.create, ht, if_pos hi, ha]
          exact .of_table frame rfl
        · simp only [Sink.step, Sink.create, ht, if_pos hi, ha]
          exact .of_allocate (by rw [handle?, ht]; rfl) ha rfl
      · simp only [Sink.step, Sink.create, ht, if_neg hi]
        exact .of_none (.refl w) rfl
    · simp only [Sink.step, Sink.create, ht]
      exact .of_table (.refl w) rfl
  | instantiate =>
    rcases ht : s.table with _ | ⟨plan, _ | t⟩
    · simp only [Sink.step, Sink.instantiate, ht]
      exact .of_table (.refl w) rfl
    · have frame := (plan.allocate_spec w).1
      rcases ha : plan.allocate Engine.storage w with ⟨e | t, w'⟩
      · rw [ha] at frame
        simp only [Sink.step, Sink.instantiate, ht, ha]
        exact .of_table frame rfl
      · simp only [Sink.step, Sink.instantiate, ht, ha]
        exact .of_allocate (by rw [handle?, ht]; rfl) ha rfl
    · simp only [Sink.step, Sink.instantiate, ht]
      exact .of_table (.refl w) rfl
  | insert row =>
    rcases insert_cases s row w with ⟨e, turned⟩ | ⟨plan, t, values, ht, hv⟩
    · simp only [Sink.step, turned]
      exact .of_table (.refl w) rfl
    · have projected : plan.project row = .ok values.encode := by rw [Plan.project, hv]; rfl
      obtain ⟨answer, next, world, held, inserted, frame, -⟩ := h.insert_reached ht hv
      simp only [Sink.step, inserted]
      refine ⟨frame, fun other t' there => ?_⟩
      cases there
      exact .filled ht projected
  | setEliminating on =>
    simp only [Sink.step, setEliminating]
    split
    · exact .of_table (.refl w) rfl
    · exact .of_table (.refl w) rfl
  | reset | cleanup =>
    rcases ht : s.table with _ | ⟨plan, _ | t⟩
    · simp only [Sink.step, Sink.cleanup, Sink.reset, ht]
      exact .of_none (.refl w) rfl
    · simp only [Sink.step, Sink.cleanup, Sink.reset, ht]
      exact .of_none (.refl w) rfl
    · have serves := h.serves plan t ht
      simp only [Sink.step, Sink.cleanup, Sink.reset, ht, serves.clear.1]
      refine ⟨.refl w, fun other t' there => ?_⟩
      cases there
      exact .emptied ht
  | rows =>
    rcases ht : s.table with _ | ⟨plan, _ | t⟩
    · simp only [Sink.step, Sink.rows, ht]
      exact .of_table (.refl w) rfl
    · simp only [Sink.step, Sink.rows, ht]
      exact .of_table (.refl w) rfl
    · obtain ⟨read, answer, -⟩ := h.rows_eq ht
      simp only [Sink.step, answer]
      exact .of_table (.refl w) rfl

theorem run_frame (h : s.Keeps w rows) (ops : List Op) :
    w.Frame (Sink.run Engine.storage ops s w).2 := by
  induction ops generalizing s w rows with
  | nil => exact .refl w
  | cons op ops ih => exact (h.step_leaves op).frame.trans (ih (h.step op))

/-- A table that is not used stays so until it takes a row or is freed. -/
theorem step_unused (h : s.Keeps w rows) {plan : Plan} {t : Table}
    (ht : s.table = some ⟨plan, some t⟩) (unused : plan.Unused w.config t) {op : Op}
    (idle : op.Idle plan) :
    let after := Sink.step Engine.storage op s w
    ∃ t', after.2.1.table = some ⟨plan, some t'⟩ ∧ plan.Unused after.2.2.config t' := by
  intro after
  have unfreed : op ≠ .free := by
    rintro rfl
    exact idle
  obtain ⟨frame, yields⟩ := h.step_leaves op
  obtain ⟨left, ht', ages⟩ := h.step_continues unfreed plan (some t) ht
  obtain ⟨t', rfl, -⟩ := ages t rfl
  refine ⟨t', ht', ?_⟩
  rw [frame.config]
  cases yields plan t' ht' with
  | made none =>
    rw [handle?, ht] at none
    cases none
  | kept there =>
    cases ht.symm.trans there
    exact unused
  | emptied there =>
    cases ht.symm.trans there
    exact unused.clear
  | filled _ projected => exact absurd projected (idle _)

theorem run_unused (h : s.Keeps w rows) {plan : Plan} {t : Table}
    (ht : s.table = some ⟨plan, some t⟩) (unused : plan.Unused w.config t) {ops : List Op}
    (idle : ∀ op ∈ ops, op.Idle plan) :
    let after := Sink.run Engine.storage ops s w
    ∃ t', after.1.table = some ⟨plan, some t'⟩ ∧ plan.Unused after.2.config t' := by
  induction ops generalizing s w rows t with
  | nil => exact ⟨t, ht, unused⟩
  | cons op ops ih =>
    obtain ⟨first, rest⟩ := List.forall_mem_cons.1 idle
    obtain ⟨t', ht', unused'⟩ := h.step_unused ht unused first
    exact ih (h.step op) ht' unused' rest

end Keeps

/-- A sink does not ask for a move of its table to take a row, and the table stays in memory. -/
structure Stays (s : Sink Table) (w : Engine) (row : Row) : Prop where
  promotions : Call.promotions
    (s.watched.insert Engine.storage.watched row (.start w)).2.2.calls = []
  placement : ((s.insert Engine.storage row w).2.1.handle?.map Table.placement) = some .memory

/-- A table that is not used takes a row of fixed width without a move. -/
theorem stays_of_unused {s : Sink Table} {w : Engine} (valid : w.config.error? = none)
    {plan : Plan} {t : Table} (ht : s.table = some ⟨plan, some t⟩)
    (unused : plan.Unused w.config t)
    (fixed : ∀ c ∈ plan.columns, c.dataType.isFixedWidth = true) {row : Row} {payload : Record}
    (projected : plan.project row = .ok payload) : s.Stays w row := by
  obtain ⟨answer, next, w', calls, insertion, inserted, number, watched⟩ :=
    Plan.insert_watched Engine.storage plan t w s.eliminating payload
  have there : s.watched.table = some ⟨plan, some ⟨0, t⟩⟩ := by simp [map, ht]
  have room : ¬w.config.Full t.placement [] (plan.recordOf payload).size := by
    rw [unused.memory]
    exact Config.not_full_nil valid unused.room
      (Plan.size_recordOf_le (Plan.project_size_le fixed projected))
  obtain ⟨promotions, placement⟩ := unused.serves.insertion_stays room insertion
  constructor
  · rw [insert_eq Engine.storage.watched there projected (.start w) watched]
    exact promotions
  · rw [insert_eq Engine.storage ht projected w inserted, handle?, table_settled]
    exact congrArg some (placement.trans unused.memory)

/-- A table that an engine starts in memory has room for its first record, if that is no wider than
was asked for: the record is taken, unless it has no hash where it needs one. So where all stored
columns are of fixed width, a sink whose table was made in memory does not ask for a move when the
first row is taken, whatever happens before and however duplicates are told. -/
theorem first_row_stays (engine : Engine) (valid : engine.config.error? = none) :
    (∀ spec t, (engine.create spec).1 = .ok t → t.placement = .memory → ∀ ops : List Table.Op,
      (Table.run ops t).rowCount = 0 → ∀ record : Record,
        record.size ≤ min spec.recordWidth maxRecordSize →
          (Table.step (.write record) (Table.run ops t)).1 =
            if spec.key = .hash ∧ record.size < hashWidth then
              .error (.corrupted s!"record of {record.size} bytes has no hash column")
            else .ok .done) ∧
    ∀ (before : List Op) (op : Op) (idle : List Op) (plan : Plan) (t : Table),
      let s := (run Engine.storage before {} engine).1
      let w := (run Engine.storage before {} engine).2
      let made := (step Engine.storage op s w).2
      let later := run Engine.storage idle made.1 made.2
      s.handle? = none → made.1.table = some ⟨plan, some t⟩ → t.placement = .memory →
      (∀ c ∈ plan.columns, c.dataType.isFixedWidth = true) → (∀ op ∈ idle, op.Idle plan) →
      ∀ row payload, plan.project row = .ok payload → later.1.Stays later.2 row := by
  constructor
  · intro spec t created place ops empty record small
    obtain ⟨holds, spec_eq, -⟩ := (engine.create_spec spec).2 t created
    obtain ⟨holds', lasts, -⟩ := holds.run ops
    have nothing : Table.written ops t [] = [] :=
      List.eq_nil_of_length_eq_zero (holds'.rowCount.symm.trans empty)
    rw [nothing] at holds'
    have memory := lasts.placement.trans place
    have room := Config.not_full_nil valid (Engine.create_memory created place)
      (Nat.le_trans small (Nat.min_le_left _ _))
    have sized : ¬maxRecordSize < record.size :=
      Nat.not_lt_of_le (Nat.le_trans small (Nat.min_le_right _ _))
    rw [holds'.step_write, if_neg sized, memory, if_neg room, lasts.spec, spec_eq,
      if_neg fun held => nomatch held.2]
  · intro before op idle plan t s w made later fresh there place fixed waits row payload projected
    have h := (Keeps.init engine).run before
    obtain ⟨frame, yields⟩ := h.step_leaves op
    have unused : plan.Unused made.2.config t := by
      rw [frame.config]
      cases yields plan t there with
      | made _ allocated => exact Plan.allocate_unused allocated place
      | kept old | emptied old | filled old =>
        rw [handle?, old] at fresh
        cases fresh
    obtain ⟨t', there', unused'⟩ := (h.step op).run_unused there unused waits
    have config : later.2.config = engine.config :=
      (((Keeps.init engine).run_frame before).trans
        (frame.trans ((h.step op).run_frame idle))).config
    exact stays_of_unused (by rw [config, valid]) there' unused' fixed projected

/-- In an engine with room for one row in memory, the first row stays there under a hash key, behind
a row of the wrong width and a reset. -/
theorem first_row_stays_masks :
    let engine := oneRowEngine {}
    let spec : TableSpec := { name := "t", key := .hash, columns := 1, recordWidth := 9 }
    let s := (run Engine.storage [.prepare { recursive := true }] {} engine).1
    let made := (step Engine.storage (.create maskRequest) s engine).2
    let later := run Engine.storage [.insert [.null], .reset] made.1 made.2
    (∃ t, (engine.create spec).1 = .ok t ∧
      (Table.step (.write ⟨#[7, 1, 0, 0, 0, 0, 0, 0, 0]⟩) (Table.run [.openIndex] t)).1 =
        .ok .done) ∧
      later.1.strategy? = some .hashKey ∧ later.1.Stays later.2 [.bit 5, .string "x", .null] := by
  intro engine spec s made later
  obtain ⟨first, stays⟩ := first_row_stays engine (by decide)
  refine ⟨⟨_, rfl, ?_⟩, by decide +kernel, ?_⟩
  · rw [first spec _ rfl rfl [.openIndex] rfl _ (by decide)]
    rfl
  · have known : made.1.table.map (fun t => (t.plan, t.handle.isSome)) =
        some (Plan.resolve maskRequest { recursive := true }, true) := by decide +kernel
    obtain ⟨t, there⟩ := exists_handle known
    have place : made.1.handle?.map Table.placement = some .memory := by decide +kernel
    rw [handle?, there] at place
    refine stays [.prepare { recursive := true }] (.create maskRequest) [.insert [.null], .reset]
      _ t rfl there (Option.some.inj place) (by decide) ?_ _ _ rfl
    intro op given
    rcases List.mem_pair.1 given with rfl | rfl
    · intro payload projected
      cases projected
    · trivial

end Sink

end ResultSink
