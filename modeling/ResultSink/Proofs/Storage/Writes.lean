import ResultSink.Proofs.Storage.Runs

/-! What a write comes to. A table decides it by the records it holds and by nothing else: the size
of the record is looked at first, then the room, then the key. A write that is refused changes
nothing, although a file takes the bytes of a record before the index takes its row: the index
takes every record that it has checked, so no write stops between the two. -/

namespace ResultSink

namespace TableIndex

/-- A record that an index has checked is one that it takes. -/
theorem add_of_check {index : TableIndex} {record : Record} (h : index.check record = .ok ())
    (row : RowId) : ∃ next, index.add record row = .ok next := by
  unfold check at h
  unfold TableIndex.add
  cases hk : index.key with
  | none => exact ⟨_, rfl⟩
  | unique => exact ⟨_, rfl⟩
  | hash =>
    simp only [hk] at h ⊢
    cases split : Record.splitHash record with
    | error e =>
      rw [split] at h
      cases h
    | ok parts => exact ⟨_, rfl⟩

end TableIndex

namespace FileTable

/-- A write in the order in which the parts of a table change. The file takes the bytes first, and
keeps them if the index then fails to take the row. -/
def writeInOrder (record : Record) (t : FileTable) : Except StorageError Unit × FileTable :=
  if maxRecordSize < record.size then (.error (.recordTooLarge record.size maxRecordSize), t)
  else if !t.hasRoom record.size then (.error (.tableFull .disk t.offsets.size t.dataBytes), t)
  else
    match t.index.check record with
    | .error e => (.error e, t)
    | .ok () =>
      let grown := { t with file := t.file ++ framed record }
      match grown.index.add record ⟨grown.offsets.size⟩ with
      | .error e => (.error e, grown)
      | .ok index =>
        let start := grown.file.size - (framed record).size
        (.ok (), { grown with
          offsets := grown.offsets.push start
          dataBytes := grown.dataBytes + record.size
          index })

/-- A write in order is a write as a whole, and leaves the table if it fails. -/
theorem writeInOrder_eq (t : FileTable) (record : Record) :
    t.writeInOrder record =
      match t.write record with
      | .ok next => (.ok (), next)
      | .error e => (.error e, t) := by
  have start : (t.file ++ framed record).size - (framed record).size = t.file.size := by
    rw [ByteArray.size_append, Nat.add_sub_cancel]
  unfold writeInOrder write
  split
  · rfl
  split
  · rfl
  cases checked : t.index.check record with
  | error e => rfl
  | ok =>
    obtain ⟨index, added⟩ := TableIndex.add_of_check checked ⟨t.offsets.size⟩
    simp only [added, start]
    rfl

end FileTable

namespace Table

namespace Holds

variable {config : Config} {t : Table} {records : List Record} {record : Record}

/-- The records that a table holds decide what it answers to a write. -/
theorem step_write (h : t.Holds config records) (record : Record) :
    (Table.step (.write record) t).1 =
      if maxRecordSize < record.size then .error (.recordTooLarge record.size maxRecordSize)
      else if config.Full t.placement records record.size then
        .error (.tableFull t.placement records.length (footprint 0 records))
      else if t.spec.key = .unique ∧ record ∈ records then .error .duplicateKey
      else if t.spec.key = .hash ∧ record.size < hashWidth then
        .error (.corrupted s!"record of {record.size} bytes has no hash column")
      else .ok .done := by
  have answer : (Table.step (.write record) t).1 =
      (refusal? config t.placement t.spec.key records record).elim (.ok .done) .error := by
    cases hr : refusal? config t.placement t.spec.key records record with
    | some e => rw [h.step_refused hr, Option.elim_some]
    | none =>
      obtain ⟨next, stored, -⟩ := h.step_stored hr
      rw [stored, Option.elim_none]
  rw [answer]
  by_cases large : maxRecordSize < record.size
  · simp [refusal?, large]
  by_cases full : config.Full t.placement records record.size
  · simp [refusal?, large, full]
  cases key : t.spec.key with
  | none => simp [refusal?, large, full, keyRefusal?]
  | unique =>
    by_cases held : record ∈ records <;> simp [refusal?, large, full, keyRefusal?, held]
  | hash =>
    by_cases short : record.size < hashWidth <;> simp [refusal?, large, full, keyRefusal?, short]

/-- A refused write leaves the table. -/
theorem step_write_error (h : t.Holds config records) {e : StorageError}
    (failed : (Table.step (.write record) t).1 = .error e) :
    (Table.step (.write record) t).2 = t := by
  cases hr : refusal? config t.placement t.spec.key records record with
  | some cause => rw [h.step_refused hr]
  | none =>
    obtain ⟨next, stored, -⟩ := h.step_stored hr
    rw [stored] at failed
    cases failed

/-- A write that is not refused adds the record to those that the table holds. -/
theorem step_write_ok (h : t.Holds config records)
    (done : (Table.step (.write record) t).1 = .ok .done) :
    (Table.step (.write record) t).2.Holds config (records ++ [record]) ∧
      t.Frame (Table.step (.write record) t).2 := by
  cases hr : refusal? config t.placement t.spec.key records record with
  | some cause =>
    rw [h.step_refused hr] at done
    cases done
  | none =>
    obtain ⟨next, stored, kept⟩ := h.step_stored hr
    rw [stored]
    exact kept

end Holds

/-- A file whose parts change one after another is left as by a write as a whole. -/
theorem step_writeInOrder (file : FileTable) (record : Record) :
    (file.writeInOrder record).1 = (step (.write record) (disk file)).1.map (fun _ => ()) ∧
      disk (file.writeInOrder record).2 = (step (.write record) (disk file)).2 := by
  rw [file.writeInOrder_eq, step, write]
  cases file.write record <;> exact ⟨rfl, rfl⟩

/-- After any run from an empty table, in memory or on disk, a write is refused for its size, for
want of room, or by the key, in this order, or else the record joins those that are counted, found
by hash and read. A refused write leaves the table as it was, also where the file takes the bytes of
a record before the index takes its row. -/
theorem write_decides (placement : Placement) (id : TableId) (spec : TableSpec) (config : Config)
    (ops : List Op) (record : Record) :
    let t := run ops (new placement id spec config)
    let kept := written ops (new placement id spec config) []
    let after := step (.write record) t
    after.1 =
      (if maxRecordSize < record.size then .error (.recordTooLarge record.size maxRecordSize)
      else if config.Full placement kept record.size then
        .error (.tableFull placement kept.length (footprint 0 kept))
      else if spec.key = .unique ∧ record ∈ kept then .error .duplicateKey
      else if spec.key = .hash ∧ record.size < hashWidth then
        .error (.corrupted s!"record of {record.size} bytes has no hash column")
      else .ok .done) ∧
    (after.1 = .ok .done →
      after.2.rowCount = kept.length + 1 ∧ after.2.dataBytes = footprint 0 kept + record.size ∧
      (∃ read, after.2.scan = .ok read ∧ after.2.ReadsAs (kept ++ [record]) read) ∧
      ∀ hash, after.2.readHash hash =
        if t.index.isOpen then .ok ((kept ++ [record]).filter (Record.endsWith hash))
        else .error .indexNotOpen) ∧
    (∀ e, after.1 = .error e → after.2 = t) ∧
    ∀ file, t = disk file →
      (file.writeInOrder record).1 = after.1.map (fun _ => ()) ∧
        disk (file.writeInOrder record).2 = after.2 := by
  intro t kept after
  have start : (new placement id spec config).spec = spec ∧
      (new placement id spec config).placement = placement := by
    cases placement <;> exact ⟨rfl, rfl⟩
  obtain ⟨holds, lasts, -⟩ := (holds_new placement id spec config).run ops
  have spec_eq : t.spec = spec := lasts.spec.trans start.1
  have place : t.placement = placement := lasts.placement.trans start.2
  refine ⟨?_, fun done => ?_, fun e failed => holds.step_write_error failed, fun file ht => ?_⟩
  · rw [← place, ← spec_eq]
    exact holds.step_write record
  · obtain ⟨stored, frame⟩ := holds.step_write_ok done
    refine ⟨?_, ?_, stored.scan, fun hash => ?_⟩
    · rw [stored.rowCount, List.length_append, List.length_singleton]
    · rw [stored.dataBytes, footprint_append]
      rfl
    · rw [stored.readHash_eq, frame.isOpen]
  · simp only [after, ht]
    exact step_writeInOrder file record

/-- A file under a hash key refuses a record without a hash and is left as it was. A record with a
hash joins the one that the file holds. -/
theorem write_decides_by_hash :
    let start := new .disk .first { name := "t", key := .hash, columns := 1 } {}
    let held : Record := ⟨#[7, 1, 0, 0, 0, 0, 0, 0, 0]⟩
    let t := run [.write held, .openIndex] start
    (step (.write ⟨#[7]⟩) t).1 = .error (.corrupted "record of 1 bytes has no hash column") ∧
      (step (.write ⟨#[7]⟩) t).2 = t ∧ (step (.write held) t).1 = .ok .done ∧
      (step (.write held) t).2.rowCount = 2 ∧
      (step (.write held) t).2.readHash 1 = .ok [held, held] := by
  intro start held t
  have decides := write_decides .disk .first { name := "t", key := .hash, columns := 1 } {}
    [.write held, .openIndex]
  have kept : written [.write held, .openIndex] start [] = [held] := by decide
  obtain ⟨-, -, leaves, -⟩ := decides ⟨#[7]⟩
  obtain ⟨-, stores, -, -⟩ := decides held
  have refused : (step (.write ⟨#[7]⟩) t).1 =
      .error (.corrupted "record of 1 bytes has no hash column") := by rfl
  have done : (step (.write held) t).1 = .ok .done := by rfl
  have isOpen : t.index.isOpen = true := by rfl
  have ending : held.endsWith 1 = true := by decide
  obtain ⟨count, -, -, found⟩ := stores done
  have one := found 1
  rw [kept] at count one
  refine ⟨refused, leaves _ refused, done, count, ?_⟩
  rw [one, if_pos isOpen]
  simp [ending]

end Table

end ResultSink
