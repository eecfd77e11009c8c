import ResultSink.Proofs.Sink.FirstRow

/-! Where a table is: whether it can be made and in which place, and when an insertion moves it. For
that only the configuration, the machine and the sizes of the records matter, and not what is in
them. -/

namespace ResultSink

/-! ### What only the sizes of records decide -/

section

variable {config : Config} {placement : Placement} {records other : List Record} {size : Nat}

theorem footprint_congr (overhead : Nat)
    (same : other.map ByteArray.size = records.map ByteArray.size) :
    footprint overhead other = footprint overhead records := by
  have sizes (records : List Record) : footprint overhead records =
      (records.map ByteArray.size).foldr (fun size total => size + overhead + total) 0 := by
    rw [List.foldr_map]
    rfl
  rw [sizes, same, ← sizes]

theorem Config.full_congr (same : other.map ByteArray.size = records.map ByteArray.size) :
    config.Full placement other size ↔ config.Full placement records size := by
  have length : other.length = records.length := by simpa using congrArg List.length same
  cases placement with
  | memory => simp only [Config.Full, length, footprint_congr rowOverhead same]
  | disk => simp only [Config.Full, footprint_congr lengthWidth same]

namespace Engine

variable {w w' : Engine} {t t' : Table} {record record' : Record}

/-- What two engines have in common they keep while each is used. -/
theorem Frame.keep {last last' : Engine} (h : w.Frame w') (kept : w.Frame last)
    (kept' : w'.Frame last') : last.Frame last' where
  config := kept'.config.trans (h.config.trans kept.config.symm)
  hasDirectory := kept'.hasDirectory.trans (h.hasDirectory.trans kept.hasDirectory.symm)

theorem Frame.canMakeFile (h : w.Frame w') : w'.canMakeFile = w.canMakeFile := by
  rw [Engine.canMakeFile, Engine.canMakeFile, h.config, h.hasDirectory]

/-- Whether a record can be stored depends on where its table is and on the sizes of the records. -/
theorem cannotStore_congr (frame : w.Frame w') (place : t'.placement = t.placement)
    (same : other.map ByteArray.size = records.map ByteArray.size)
    (size : record'.size = record.size) :
    (∃ e, w'.CannotStore t' other record' e) ↔ ∃ e, w.CannotStore t records record e := by
  rw [cannotStore_iff, cannotStore_iff, Exhausted, Exhausted, frame.config, frame.canMakeFile,
    place, size, Config.full_congr same, Config.full_congr same]

/-- Whether a table can be created, and where, depends on the configuration and the machine. -/
theorem create_congr (frame : w.Frame w') {spec : TableSpec}
    (created : (w.create spec).1 = .ok t) :
    ∃ t', (w'.create spec).1 = .ok t' ∧ t'.placement = t.placement := by
  have starts : w'.useId.startsOnDisk spec = w.useId.startsOnDisk spec := by
    have same : w'.useId.config = w.useId.config := frame.config
    rw [startsOnDisk, tooWide, same, startsOnDisk, tooWide]
  simp only [create] at created ⊢
  rw [starts]
  split at created
  · cases created
  · cases created
    exact ⟨_, rfl, rfl⟩
  · have usable : w'.useId.canMakeFile = w.useId.canMakeFile := frame.canMakeFile
    by_cases made : w.useId.canMakeFile = true
    · rw [newFileTable, if_pos made] at created
      cases created
      rw [newFileTable, usable, if_pos made]
      exact ⟨_, rfl, rfl⟩
    · rw [newFileTable, if_neg made] at created
      cases created

end Engine

end

namespace Plan

variable {plan plan' : Plan} {t made : Table} {w w' w₁ : Engine}

/-- A table that is created for a plan can be set up for it. -/
theorem exists_allocated (created : (w.create plan.tableSpec).1 = .ok made) :
    ∃ t, (plan.allocate Engine.storage w).1 = .ok t := by
  obtain ⟨-, spec⟩ := w.create_spec plan.tableSpec
  obtain ⟨holds, spec, -⟩ := spec made created
  have serves := plan.serves_new holds spec
  rcases hc : w.create plan.tableSpec with ⟨answer, next⟩
  rw [hc] at created
  obtain rfl : answer = .ok made := created
  rw [allocate, storage_create, hc]
  by_cases hs : plan.strategy = .hashKey
  · rw [if_pos hs] at serves
    obtain ⟨ready, opened, -⟩ := serves
    simp only [if_pos hs, storage_ignoreDuplicates, storage_openIndex, opened, replacing_ok]
    exact ⟨_, rfl⟩
  · simp only [if_neg hs]
    exact ⟨_, rfl⟩

theorem allocate_congr (frame : w.Frame w') (spec : plan'.tableSpec = plan.tableSpec)
    (allocated : (plan.allocate Engine.storage w).1 = .ok t) :
    ∃ t', (plan'.allocate Engine.storage w').1 = .ok t' ∧ t'.placement = t.placement := by
  obtain ⟨made, created, place⟩ := exists_created allocated
  obtain ⟨made', created', place'⟩ := Engine.create_congr frame created
  rw [← spec] at created'
  obtain ⟨t', allocated'⟩ := exists_allocated created'
  obtain ⟨again, same, place''⟩ := exists_created allocated'
  cases created'.symm.trans same
  exact ⟨t', allocated', place''.symm.trans (place'.trans place)⟩

end Plan

/-! ### Where a table is after an insertion -/

namespace Plan

variable {plan : Plan} {t next : Table} {t' : Numbered Table} {records : List Record}
  {payload record : Record} {w w' : Engine} {outcome : InsertOutcome} {calls : List (Call Table)}

/-- A table that was moved is on disk. -/
theorem Serves.promotes_disk (h : plan.Serves w.config t records)
    (hp : Promotes Engine.storage t w (.ok ()) t' w' calls) : t'.table.placement = .disk := by
  rcases h.promotion with ⟨-, copy, promoted, copied, copyOf⟩ | ⟨e, promoted⟩
  · cases hp with
    | opened hm hk ho =>
      cases promoted.symm.trans hm
      obtain ⟨ready, opened, -, -, place⟩ := (h.copied copied copyOf).1 hk
      rw [storage_openIndex, opened] at ho
      cases ho
      exact place
    | plain hm hk =>
      cases promoted.symm.trans hm
      exact copyOf.placement
  · cases hp with
    | opened hm | plain hm => cases promoted.symm.trans hm

/-- Where there is no room for a record, it is stored on disk or not at all. -/
theorem Serves.course_moves (h : plan.Serves w.config t records)
    (small : record.size ≤ maxRecordSize) (full : w.config.Full t.placement records record.size)
    (hc : Course Engine.storage plan record t w (.ok outcome) t' w' calls) :
    t'.table.placement = .disk := by
  have refused := h.write_full small full
  generalize answered : Except.ok outcome = answer at hc
  cases hc with
  | settled hw enough =>
    rw [storage_write, refused] at hw
    cases hw
    exact absurd rfl (enough _ rfl)
  | unmoved => cases answered
  | moved hw _ promotes hw' =>
    obtain ⟨rfl, rfl⟩ := (h.write_ages hw).2 _ rfl
    obtain ⟨-, serves⟩ := h.promotes_ages promotes
    exact (serves.write_ages hw').1.disk (h.promotes_disk promotes)

/-- A payload is taken only if its record is not too large. -/
theorem Inserts.size_le {eliminating : Bool} {held : List Record}
    (h : plan.Inserts w eliminating t records payload (.ok outcome) held)
    (sizes : ∀ record ∈ records, record.size ≤ maxRecordSize) :
    (plan.recordOf payload).size ≤ maxRecordSize := by
  cases h with
  | found _ there => exact sizes _ there
  | stored _ stores =>
    cases stores with
    | inserted possible | duplicate possible =>
      exact Nat.le_of_not_lt fun large => possible _ (.tooLarge large)

/-- A payload that is found, or that there is room for, leaves the table where it is; any other is
stored on disk. -/
theorem Serves.insert_place (h : plan.Serves w.config t records) {eliminating : Bool}
    (small : (plan.recordOf payload).size ≤ maxRecordSize)
    (inserted : plan.insert Engine.storage eliminating payload t w = (.ok outcome, next, w')) :
    let stays := (plan.strategy = .hashKey ∧ eliminating) ∧ plan.recordOf payload ∈ records ∨
      ¬w.config.Full t.placement records (plan.recordOf payload).size
    (stays → next.placement = t.placement) ∧ (¬stays → next.placement = .disk) := by
  obtain ⟨answer, t', last, calls, insertion, same, -⟩ :=
    insert_watched Engine.storage plan t w eliminating payload
  cases inserted.symm.trans same
  refine ⟨fun stays => ?_, fun moves => ?_⟩
  · rcases stays with ⟨looked, there⟩ | room
    · rw [Plan.insert, if_pos looked, h.contains_eq looked.1, decide_eq_true there] at inserted
      cases inserted
      rfl
    · exact (h.insertion_stays room insertion).2
  · obtain ⟨missed, full⟩ := not_or.1 moves
    rw [Decidable.not_not] at full
    cases insertion with
    | found looked hr among =>
      have contained := h.contains_eq looked.1 payload
      rw [contains, hr] at contained
      dsimp only at contained
      rw [among, Prod.mk.injEq, Except.ok.injEq] at contained
      exact absurd ⟨looked, of_decide_eq_true contained.1.symm⟩ missed
    | new _ hr _ course =>
      obtain ⟨rfl, rfl⟩ := storage_readHash_leaves hr
      exact h.course_moves small full course
    | unasked _ course => exact h.course_moves small full course

end Plan

end ResultSink
