import ResultSink.Proofs.Storage.Tables
import ResultSink.Storage.Engine

/-! What an engine makes: a new table holds nothing, and a table that is moved to disk holds what
its source holds. A move fails only where no file can be made or where the file would grow too
large. -/

namespace ResultSink

/-- A table with a key can hold some records in some order of writes. -/
structure Admissible (key : Key) (records : List Record) : Prop where
  sizes : ∀ record ∈ records, record.size ≤ maxRecordSize
  distinct : key = .unique → records.Nodup
  hashed : key = .hash → ∀ record ∈ records, hashWidth ≤ record.size

theorem Table.Holds.admissible {config : Config} {t : Table} {records : List Record}
    (h : t.Holds config records) : Admissible t.spec.key records where
  sizes _ hr := h.sizes hr
  distinct hk := h.covers.nodup (h.key.trans hk)
  hashed hk := h.covers.hashes (h.key.trans hk)

/-- Behind admissible records only a lack of room keeps the next one out. -/
theorem Admissible.refusal_eq {key : Key} {held records : List Record} {record : Record}
    (h : Admissible key (held ++ record :: records)) (config : Config) (placement : Placement) :
    Table.refusal? config placement key held record =
      if config.Full placement held record.size then
        some (.tableFull placement held.length (footprint 0 held))
      else none := by
  have there : record ∈ held ++ record :: records := by simp
  have admitted : keyRefusal? key held record = none := by
    cases hk : key with
    | none => rfl
    | unique =>
      have fresh : record ∉ held := fun old =>
        (List.nodup_append.1 (h.distinct hk)).2.2 record old record List.mem_cons_self rfl
      simp [keyRefusal?, fresh]
    | hash => exact if_neg (Nat.not_lt_of_le (h.hashed hk record there))
  rw [Table.refusal?, if_neg (Nat.not_lt_of_le (h.sizes record there)), admitted]

/-! ### Copies -/

/-- A file on disk has room for all of some records. -/
def Config.Fits (config : Config) (records : List Record) : Prop :=
  ∀ limit ∈ config.diskLimit, footprint lengthWidth records ≤ limit

theorem Config.not_fits_iff {config : Config} {records : List Record} :
    ¬config.Fits records ↔ ∃ limit ∈ config.diskLimit, limit < footprint lengthWidth records := by
  simp [Fits]

/-- Records are copied behind others in their order, unless the file grows too large. -/
theorem FileTable.Holds.foldlM_write {config : Config} {t : FileTable} {held records : List Record}
    (h : t.Holds config held) (fits : config.Fits held)
    (admissible : Admissible t.spec.key (held ++ records)) :
    (config.Fits (held ++ records) ∧ ∃ next, records.foldlM FileTable.write t = .ok next ∧
      next.Holds config (held ++ records) ∧ (Table.disk t).Frame (.disk next)) ∨
    ¬config.Fits (held ++ records) ∧ ∃ rows bytes,
      records.foldlM FileTable.write t = .error (.tableFull .disk rows bytes) := by
  induction records generalizing t held with
  | nil =>
    rw [List.append_nil]
    exact .inl ⟨fits, t, rfl, h, .refl (.disk t)⟩
  | cons record records ih =>
    have refusal := admissible.refusal_eq config .disk
    rw [List.foldlM_cons]
    by_cases full : config.Full .disk held record.size
    · rw [if_pos full] at refusal
      obtain ⟨limit, hl, excess⟩ := full
      refine .inr ⟨Config.not_fits_iff.2 ⟨limit, hl, ?_⟩, held.length, footprint 0 held, ?_⟩
      · rw [footprint_append, footprint_cons]
        omega
      · rw [h.write_eq, refusal]
        rfl
    · rw [if_neg full] at refusal
      obtain ⟨next, written, holds, frame⟩ := h.write_stored refusal
      have spec : next.spec = t.spec := frame.spec
      have room : config.Fits (held ++ [record]) := by
        intro limit hl
        have small := Nat.le_of_not_lt fun excess => full ⟨limit, hl, excess⟩
        rw [footprint_append, footprint_cons, footprint_nil]
        omega
      have split : held ++ record :: records = held ++ [record] ++ records := by simp
      rw [split] at admissible ⊢
      rcases ih holds room (by rwa [spec]) with
        ⟨fits', last, rest, holds', frame'⟩ | ⟨excess, rows, bytes, rest⟩
      · exact .inl ⟨fits', last, by rw [written]; exact rest, holds', frame.trans frame'⟩
      · exact .inr ⟨excess, rows, bytes, by rw [written]; exact rest⟩

/-- A table on disk stands for another: it goes by its number and its description, treats
duplicates alike, and its index is closed. -/
structure Table.CopyOf (t copy : Table) : Prop where
  id : copy.id = t.id
  spec : copy.spec = t.spec
  placement : copy.placement = .disk
  ignoresDuplicates : copy.ignoresDuplicates = t.ignoresDuplicates
  isOpen : copy.index.isOpen = false

namespace Engine

/-- What the calls of tables leave alone in an engine. -/
structure Frame (engine next : Engine) : Prop where
  config : next.config = engine.config
  hasDirectory : next.hasDirectory = engine.hasDirectory

theorem Frame.refl (engine : Engine) : engine.Frame engine := ⟨rfl, rfl⟩

theorem Frame.trans {engine next last : Engine} (h : engine.Frame next) (h' : next.Frame last) :
    engine.Frame last :=
  ⟨h'.config.trans h.config, h'.hasDirectory.trans h.hasDirectory⟩

/-- A new table holds nothing, and its index is closed. -/
theorem create_spec (spec : TableSpec) (engine : Engine) :
    engine.Frame (engine.create spec).2 ∧
      ∀ t, (engine.create spec).1 = .ok t →
        t.Holds engine.config [] ∧ t.spec = spec ∧ t.index.isOpen = false := by
  simp only [create]
  split
  · exact ⟨⟨rfl, rfl⟩, fun t h => nomatch h⟩
  · refine ⟨⟨rfl, rfl⟩, fun t h => ?_⟩
    cases h
    exact ⟨MemoryTable.holds_new _ spec engine.config, rfl, rfl⟩
  · unfold newFileTable
    by_cases made : engine.useId.canMakeFile
    · rw [if_pos made]
      refine ⟨⟨rfl, rfl⟩, fun t h => ?_⟩
      cases h
      exact ⟨FileTable.holds_new _ spec engine.config, rfl, rfl⟩
    · rw [if_neg made]
      exact ⟨⟨rfl, rfl⟩, fun t h => nomatch h⟩

/-- The engine after a table has been moved to disk. -/
def countPromotion (engine : Engine) : Engine :=
  { engine with stats.promotions := engine.stats.promotions + 1 }

theorem frame_countPromotion (engine : Engine) : engine.Frame engine.countPromotion := ⟨rfl, rfl⟩

variable {engine : Engine} {t : Table} {records : List Record}

theorem openCopy_disk (hp : t.placement = .disk) :
    engine.openCopy t = .error (.notSupported s!"table {t.id.name} is already on disk") := by
  rw [openCopy, hp]

theorem openCopy_noFile (hp : t.placement = .memory) (hf : engine.canMakeFile = false) :
    engine.openCopy t = .error .system := by
  simp [openCopy, hp, newFileTable, hf, Except.map]

theorem openCopy_memory (hp : t.placement = .memory) (hf : engine.canMakeFile = true) :
    ∃ empty, engine.openCopy t = .ok empty ∧ empty.Holds engine.config [] ∧
      t.CopyOf (.disk empty) :=
  ⟨{ FileTable.new t.id t.spec engine.config with ignoresDuplicates := t.ignoresDuplicates },
    by simp [openCopy, hp, newFileTable, hf, Except.map],
    ⟨rfl, rfl, rfl, rfl, rfl, TableIndex.covers_new t.spec.key, fun _ h => nomatch h⟩,
    rfl, rfl, rfl, rfl, rfl⟩

theorem of_openCopy {empty : FileTable} (h : engine.openCopy t = .ok empty) :
    t.placement = .memory ∧ empty.Holds engine.config [] ∧ t.CopyOf (.disk empty) := by
  cases hp : t.placement with
  | disk => cases (openCopy_disk hp).symm.trans h
  | memory =>
    cases hf : engine.canMakeFile with
    | false => cases (openCopy_noFile hp hf).symm.trans h
    | true =>
      obtain ⟨made, opened, start, copyOf⟩ := openCopy_memory hp hf
      cases opened.symm.trans h
      exact ⟨rfl, start, copyOf⟩

/-- A copy holds what its source holds, or the file would grow too large. -/
theorem fillCopy_empty {empty : FileTable} (h : empty.Holds engine.config [])
    (copyOf : t.CopyOf (.disk empty)) (admissible : Admissible t.spec.key records) :
    (engine.config.Fits records ∧ ∃ copy,
      engine.fillCopy empty records = (.ok copy, engine.countPromotion) ∧
      copy.Holds engine.config records ∧ t.CopyOf copy) ∨
    ¬engine.config.Fits records ∧ ∃ rows bytes,
      engine.fillCopy empty records = (.error (.tableFull .disk rows bytes), engine) := by
  have spec : empty.spec = t.spec := copyOf.spec
  have admissible' : Admissible empty.spec.key ([] ++ records) := by rwa [spec]
  have nothing : engine.config.Fits [] := fun _ _ => Nat.zero_le _
  rcases h.foldlM_write nothing admissible' with
    ⟨fits, copy, filled, holds, frame⟩ | ⟨excess, rows, bytes, filled⟩
  · refine .inl ⟨fits, .disk copy, by rw [fillCopy, filled]; rfl, holds, ?_⟩
    exact ⟨frame.id.trans copyOf.id, frame.spec.trans copyOf.spec, rfl,
      frame.ignoresDuplicates.trans copyOf.ignoresDuplicates, frame.isOpen.trans copyOf.isOpen⟩
  · exact .inr ⟨excess, rows, bytes, by rw [fillCopy, filled]⟩

theorem promote_disk (hp : t.placement = .disk) :
    engine.promote t =
      (.error (.notSupported s!"table {t.id.name} is already on disk"), engine) := by
  rw [promote, openCopy_disk hp]

theorem promote_noFile (hp : t.placement = .memory) (hf : engine.canMakeFile = false) :
    engine.promote t = (.error .system, engine) := by
  rw [promote, openCopy_noFile hp hf]

/-- A table in memory reads its records in the order they were written. -/
theorem scan_memory {config : Config} (h : t.Holds config records) (hp : t.placement = .memory) :
    t.scan = .ok records := by
  obtain ⟨read, scanned, order⟩ := h.scan
  have onlyDisk : ¬(t.placement = .disk ∧ t.spec.key = .unique) := by simp [hp]
  rw [Table.ReadsAs, if_neg onlyDisk] at order
  rw [scanned, order]

/-- Where a file can be made, the copy holds what its source holds, or the file would grow too
large. The source may have been made for another configuration. -/
theorem promote_memory {config : Config} (h : t.Holds config records) (hp : t.placement = .memory)
    (hf : engine.canMakeFile = true) :
    (engine.config.Fits records ∧ ∃ copy,
      engine.promote t = (.ok copy, engine.countPromotion) ∧
      copy.Holds engine.config records ∧ t.CopyOf copy) ∨
    ¬engine.config.Fits records ∧ ∃ rows bytes,
      engine.promote t = (.error (.tableFull .disk rows bytes), engine) := by
  obtain ⟨empty, opened, start, copyOf⟩ := openCopy_memory hp hf
  have promoted : engine.promote t = engine.fillCopy empty records := by
    rw [promote, opened, scan_memory h hp]
  rw [promoted]
  exact fillCopy_empty start copyOf h.admissible

end Engine

end ResultSink
