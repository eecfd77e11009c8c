import ResultSink.Proofs.Storage.Engine
import ResultSink.Proofs.Storage.Runs
import ResultSink.Storage.Interface

/-! Promotion of a table that a run has filled. The copy on disk holds the records of its source,
neither fewer nor more, and finds, reads and refuses them as the source does; a promotion that fails
leaves no trace. -/

namespace ResultSink

namespace Table

/-- A run that never clears the table keeps every record in it. -/
theorem mem_written {ops : List Op} (never : Op.clear ∉ ops) {t : Table} {records : List Record}
    {record : Record} (there : record ∈ records) : record ∈ written ops t records := by
  induction ops generalizing t records with
  | nil => exact there
  | cons op ops ih =>
    refine ih (fun later => never (List.mem_cons_of_mem op later)) ?_
    unfold noted
    split
    · exact List.mem_append_left _ there
    · exact absurd List.mem_cons_self never
    · exact there

/-- A unique key refuses a record that the table holds, where there is room for it. -/
theorem Holds.write_held {config : Config} {t : Table} {records : List Record}
    (h : t.Holds config records) (hk : t.spec.key = .unique) {record : Record}
    (there : record ∈ records) (room : ¬config.Full t.placement records record.size) :
    t.write record = .error .duplicateKey := by
  refine h.write_refused ?_
  rw [refusal?, if_neg (Nat.not_lt_of_le (h.sizes there)), if_neg room, hk]
  exact if_pos there

/-- Once its index is open, a table finds the records that end with a hash. -/
theorem Holds.readHash_opened {config : Config} {t : Table} {records : List Record}
    (h : t.Holds config records) (hk : t.spec.key = .hash) :
    ∃ opened, t.openIndex = .ok opened ∧
      ∀ hash, opened.readHash hash = .ok (records.filter (Record.endsWith hash)) := by
  obtain ⟨opened, holds⟩ := h.openIndex hk
  refine ⟨_, opened, fun hash => ?_⟩
  rw [holds.readHash_eq, index_withIndex, if_pos rfl]

/-- A copy is read in the order its source was written, or in that of its records under a unique
key. -/
theorem Holds.scan_copy {config : Config} {t copy : Table} {records : List Record}
    (h : copy.Holds config records) (copyOf : t.CopyOf copy) :
    ∃ read, copy.scan = .ok read ∧
      if t.spec.key = .unique then read.Perm records ∧ read.Pairwise Record.Before
      else read = records := by
  obtain ⟨read, scanned, order⟩ := h.scan
  refine ⟨read, scanned, ?_⟩
  have place : (copy.placement = .disk ∧ copy.spec.key = .unique) ↔ t.spec.key = .unique := by
    rw [copyOf.placement, copyOf.spec]
    exact and_iff_right rfl
  unfold ReadsAs at order
  simpa only [place] using order

/-- As long as a table is not cleared, its unique key refuses the records it held at first. -/
theorem Holds.write_later {config : Config} {t : Table} {records : List Record}
    (h : t.Holds config records) (hk : t.spec.key = .unique) {record : Record}
    (there : record ∈ records) {later : List Op} (never : Op.clear ∉ later)
    (room : ¬config.Full t.placement (written later t records) record.size) :
    (Table.run later t).write record = .error .duplicateKey := by
  obtain ⟨holds, lasts, -⟩ := h.run later
  refine holds.write_held ?_ (mem_written never there) ?_
  · rw [lasts.spec, hk]
  · rwa [lasts.placement]

end Table

namespace Engine

open Table

/-- A promotion of a table in memory either makes a copy of it or changes nothing. -/
theorem promote_cases (engine : Engine) {config : Config} {t : Table} {records : List Record}
    (h : t.Holds config records) (hp : t.placement = .memory) :
    (engine.canMakeFile = true ∧ engine.config.Fits records) ∧ (∃ copy,
      engine.promote t = (.ok copy, engine.countPromotion) ∧
      copy.Holds engine.config records ∧ t.CopyOf copy) ∨
    ¬(engine.canMakeFile = true ∧ engine.config.Fits records) ∧
      ∃ e, engine.promote t = (.error e, engine) := by
  cases hf : engine.canMakeFile with
  | false => exact .inr ⟨fun both => (nomatch both.1), _, promote_noFile hp hf⟩
  | true =>
    rcases promote_memory h hp hf with ⟨fits, made⟩ | ⟨excess, rows, bytes, promoted⟩
    · exact .inl ⟨⟨rfl, fits⟩, made⟩
    · exact .inr ⟨fun both => excess both.2, _, promoted⟩

/-- A promotion succeeds exactly where a file can be made and has room for all that the table holds.
The copy then counts, reads and finds by hash what its source does, under a unique key in the order
of the bytes, and for as long as it is not cleared a unique key of it refuses what it took over. The
source stays, the engine counts successes only, and a table on disk is never promoted. -/
theorem promote_run (engine : Engine) (config : Config) (id : TableId) (spec : TableSpec)
    (ops : List Op) :
    let t := run ops (new .memory id spec config)
    let kept := written ops (new .memory id spec config) []
    let after := Engine.storage.promote t engine
    ((∃ copy, after.1 = .ok copy) ↔ engine.canMakeFile = true ∧
      ∀ limit ∈ engine.config.diskLimit, footprint lengthWidth kept ≤ limit) ∧
    after.2.1 = t ∧
    (∀ e, after.1 = .error e → after.2.2 = engine) ∧
    (∀ copy, after.1 = .ok copy →
      after.2.2 = { engine with stats.promotions := engine.stats.promotions + 1 } ∧
      t.CopyOf copy ∧ copy.rowCount = t.rowCount ∧ copy.dataBytes = t.dataBytes ∧
      t.scan = .ok kept ∧
      (∃ read, copy.scan = .ok read ∧
        if spec.key = .unique then read.Perm kept ∧ read.Pairwise Record.Before else read = kept) ∧
      (spec.key = .hash → ∃ opened source, copy.openIndex = .ok opened ∧
        t.openIndex = .ok source ∧ ∀ hash, ∃ found,
          source.readHash hash = .ok found ∧ opened.readHash hash = .ok found) ∧
      (spec.key = .unique → ∀ record ∈ kept, ∀ later, Op.clear ∉ later →
        ¬engine.config.Full .disk (written later copy kept) record.size →
        (run later copy).write record = .error .duplicateKey)) ∧
    ∀ file : FileTable, (engine.promote (.disk file)).1 =
      .error (.notSupported s!"table {file.id.name} is already on disk") := by
  intro t kept after
  obtain ⟨filled, lasts, -⟩ := (holds_new .memory id spec config).run ops
  have holds : t.Holds config kept := filled
  have spec_eq : t.spec = spec := lasts.spec
  have place : t.placement = .memory := lasts.placement
  rcases engine.promote_cases holds place with
    ⟨possible, copy, promoted, copied, copyOf⟩ | ⟨impossible, e, promoted⟩
  · have answer : after = (.ok copy, t, engine.countPromotion) :=
      (storage_promote t engine).trans (by rw [promoted])
    rw [answer]
    refine ⟨⟨fun _ => possible, fun _ => ⟨copy, rfl⟩⟩, rfl, fun e failed => (by cases failed), ?_,
      fun file => by rw [promote_disk rfl]; rfl⟩
    rintro _ ⟨⟩
    refine ⟨rfl, copyOf, ?_, ?_, scan_memory holds place, ?_, fun hk => ?_, fun hk => ?_⟩
    · rw [copied.rowCount, holds.rowCount]
    · rw [copied.dataBytes, holds.dataBytes]
    · rw [← spec_eq]
      exact copied.scan_copy copyOf
    · rw [← spec_eq] at hk
      obtain ⟨source, openSource, foundSource⟩ := holds.readHash_opened hk
      obtain ⟨opened, openCopy, found⟩ := copied.readHash_opened (copyOf.spec ▸ hk)
      exact ⟨opened, source, openCopy, openSource, fun hash => ⟨_, foundSource hash, found hash⟩⟩
    · intro record there later never room
      rw [← copyOf.placement] at room
      exact copied.write_later (by rw [copyOf.spec, spec_eq, hk]) there never room
  · have answer : after = (.error e, t, engine) :=
      (storage_promote t engine).trans (by rw [promoted])
    rw [answer]
    refine ⟨⟨?_, fun possible => absurd possible impossible⟩, rfl, fun _ _ => rfl,
      fun copy made => (by cases made), fun file => by rw [promote_disk rfl]; rfl⟩
    rintro ⟨copy, made⟩
    cases made

/-- Two records are copied in the order of their bytes, and neither is taken a second time. -/
theorem promote_run_unique :
    let engine : Engine := { config := { diskLimit := some 20 }, hasDirectory := Option.isNone }
    let t := run [.write ⟨#[2]⟩, .write ⟨#[1]⟩]
      (new .memory .first { name := "t", key := .unique, columns := 1 } {})
    ∃ copy, (engine.promote t).1 = .ok copy ∧ t.CopyOf copy ∧
      (∃ read, copy.scan = .ok read ∧ read.Perm [⟨#[2]⟩, ⟨#[1]⟩] ∧ read.Pairwise Record.Before) ∧
      (run [.write ⟨#[3]⟩] copy).write ⟨#[2]⟩ = .error .duplicateKey := by
  intro engine t
  let start := new .memory .first { name := "t", key := .unique, columns := 1 } {}
  have kept : written [.write ⟨#[2]⟩, .write ⟨#[1]⟩] start [] = [⟨#[2]⟩, ⟨#[1]⟩] := by decide
  obtain ⟨made, -, -, copies, -⟩ := promote_run engine {} .first
    { name := "t", key := .unique, columns := 1 } [.write ⟨#[2]⟩, .write ⟨#[1]⟩]
  obtain ⟨copy, promoted⟩ := made.2 ⟨by decide, by rw [kept]; decide⟩
  obtain ⟨-, copyOf, -, -, -, reads, -, refuses⟩ := copies copy promoted
  rw [kept] at reads refuses
  refine ⟨copy, promoted, copyOf, reads, refuses rfl _ (by decide) _ (by simp) ?_⟩
  have held : written [.write ⟨#[3]⟩] copy [⟨#[2]⟩, ⟨#[1]⟩] =
      noted (.write ⟨#[3]⟩) (step (.write ⟨#[3]⟩) copy).1 [⟨#[2]⟩, ⟨#[1]⟩] := rfl
  rw [held]
  cases (step (.write ⟨#[3]⟩) copy).1 with
  | ok reply =>
    show ¬engine.config.Full .disk [⟨#[2]⟩, ⟨#[1]⟩, ⟨#[3]⟩] 1
    decide
  | error e =>
    show ¬engine.config.Full .disk [⟨#[2]⟩, ⟨#[1]⟩] 1
    decide

end Engine

end ResultSink
