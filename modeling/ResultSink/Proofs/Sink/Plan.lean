import ResultSink.Proofs.Storage.Engine
import ResultSink.Sink.ResultTable

/-! What a plan does with the tables of an engine. `Serves` says that a table is set up as a plan
asks and holds some records. Storing a record comes to one of three things, which `Stores` lists,
and it fails only for the causes that `CannotStore` lists. -/

namespace ResultSink

@[simp] theorem mapError_ok {α ε ε' : Type} (f : ε → ε') (a : α) :
    (Except.ok a).mapError f = .ok a := rfl

@[simp] theorem mapError_error {α ε ε' : Type} (f : ε → ε') (e : ε) :
    (Except.error e : Except ε α).mapError f = .error (f e) := rfl

/-- Why a record cannot be stored behind others, and the error that says so. -/
inductive Engine.CannotStore (engine : Engine) (t : Table) (records : List Record)
    (record : Record) : StorageError → Prop
  | tooLarge : maxRecordSize < record.size →
      CannotStore engine t records record (.recordTooLarge record.size maxRecordSize)
  | onDisk : record.size ≤ maxRecordSize → t.placement = .disk →
      engine.config.Full .disk records record.size →
      CannotStore engine t records record
        (.notSupported s!"table {t.id.name} is already on disk")
  | noFile : record.size ≤ maxRecordSize → t.placement = .memory →
      engine.config.Full .memory records record.size → engine.canMakeFile = false →
      CannotStore engine t records record .system
  | noRoom {rows bytes : Nat} : record.size ≤ maxRecordSize → t.placement = .memory →
      engine.config.Full .memory records record.size → engine.canMakeFile = true →
      engine.config.Full .disk records record.size →
      CannotStore engine t records record (.tableFull .disk rows bytes)

/-- What storing a record behind others comes to: the answer and the records held after it. -/
inductive Engine.Stores (engine : Engine) (t : Table) (records : List Record) (record : Record) :
    Except StorageError InsertOutcome → List Record → Prop
  | inserted : (∀ e, ¬engine.CannotStore t records record e) →
      (t.spec.key = .unique → record ∉ records) →
      Stores engine t records record (.ok .inserted) (records ++ [record])
  | duplicate : (∀ e, ¬engine.CannotStore t records record e) → t.spec.key = .unique →
      record ∈ records → Stores engine t records record (.ok .duplicateRejected) records
  | failed {e : StorageError} : engine.CannotStore t records record e →
      Stores engine t records record (.error e) records

/-- Neither the place of a table has room for a record of a size behind others nor the disk, where
the table could be moved from memory. -/
def Engine.Exhausted (engine : Engine) (t : Table) (records : List Record) (size : Nat) : Prop :=
  t.placement = .disk ∧ engine.config.Full .disk records size ∨
    t.placement = .memory ∧ engine.config.Full .memory records size ∧
      (engine.canMakeFile = false ∨ engine.config.Full .disk records size)

instance decidableExhausted (engine : Engine) (t : Table) (records : List Record) (size : Nat) :
    Decidable (engine.Exhausted t records size) :=
  inferInstanceAs (Decidable (_ ∨ _))

theorem Engine.cannotStore_iff {engine : Engine} {t : Table} {records : List Record}
    {record : Record} :
    (∃ e, engine.CannotStore t records record e) ↔
      maxRecordSize < record.size ∨ engine.Exhausted t records record.size := by
  constructor
  · rintro ⟨e, large | ⟨-, hp, full⟩ | ⟨-, hp, full, none⟩ | ⟨-, hp, full, -, fullDisk⟩⟩
    · exact .inl large
    · exact .inr (.inl ⟨hp, full⟩)
    · exact .inr (.inr ⟨hp, full, .inl none⟩)
    · exact .inr (.inr ⟨hp, full, .inr fullDisk⟩)
  · intro h
    by_cases large : maxRecordSize < record.size
    · exact ⟨_, .tooLarge large⟩
    have small := Nat.le_of_not_lt large
    rcases h.resolve_left large with ⟨hp, full⟩ | ⟨hp, full, room⟩
    · exact ⟨_, .onDisk small hp full⟩
    · cases hf : engine.canMakeFile with
      | false => exact ⟨_, .noFile small hp full hf⟩
      | true =>
        have fullDisk := room.resolve_left (by simp [hf])
        exact ⟨.tableFull .disk 0 0, .noRoom small hp full hf fullDisk⟩

/-- Where there is room, only the size of a record can keep it out. -/
theorem Engine.not_cannotStore {engine : Engine} {t : Table} {records : List Record}
    {record : Record} (small : record.size ≤ maxRecordSize)
    (room : ¬engine.Exhausted t records record.size) (e : StorageError) :
    ¬engine.CannotStore t records record e := by
  intro h
  rcases Engine.cannotStore_iff.1 ⟨e, h⟩ with large | full
  · omega
  · exact room full

theorem Engine.not_exhausted_of_room {engine : Engine} {t : Table} {records : List Record}
    {size : Nat} (room : ¬engine.config.Full t.placement records size) :
    ¬engine.Exhausted t records size := by
  rintro (⟨hp, full⟩ | ⟨hp, full, -⟩) <;> exact room (hp ▸ full)

theorem Engine.not_exhausted_of_disk {engine : Engine} {t : Table} {records : List Record}
    {size : Nat} (hf : engine.canMakeFile = true)
    (room : ¬engine.config.Full .disk records size) : ¬engine.Exhausted t records size := by
  rintro (⟨-, full⟩ | ⟨-, -, none | full⟩)
  · exact room full
  · cases hf.symm.trans none
  · exact room full

theorem Engine.exhausted_perm {engine : Engine} {t : Table} {records other : List Record}
    {size : Nat} (h : records.Perm other) :
    engine.Exhausted t records size ↔ engine.Exhausted t other size := by
  simp only [Engine.Exhausted, Config.full_perm h]

theorem Engine.CannotStore.perm {engine : Engine} {t : Table} {records other : List Record}
    {record : Record} {e : StorageError} (h : engine.CannotStore t records record e)
    (hp : records.Perm other) : engine.CannotStore t other record e := by
  cases h with
  | tooLarge large => exact .tooLarge large
  | onDisk small place full => exact .onDisk small place ((Config.full_perm hp).1 full)
  | noFile small place full none => exact .noFile small place ((Config.full_perm hp).1 full) none
  | noRoom small place full some fullDisk =>
    exact .noRoom small place ((Config.full_perm hp).1 full) some ((Config.full_perm hp).1 fullDisk)

namespace Strategy

@[simp] theorem key_eq_unique {strategy : Strategy} :
    strategy.key = .unique ↔ strategy = .uniqueKey := by cases strategy <;> simp [key]

@[simp] theorem key_eq_hash {strategy : Strategy} :
    strategy.key = .hash ↔ strategy = .hashKey := by cases strategy <;> simp [key]

end Strategy

/-- Behind records that all fit, a key refuses only what a unique key holds. -/
theorem keyRefusal?_eq {key : Key} {records : List Record} {record : Record}
    (wide : key = .hash → hashWidth ≤ record.size) :
    keyRefusal? key records record =
      if key = .unique ∧ record ∈ records then some .duplicateKey else none := by
  cases key with
  | none => rfl
  | unique => simp [keyRefusal?]
  | hash => exact if_neg (Nat.not_lt_of_le (wide rfl))

theorem Record.appendHash_inj {a b : Record} {h h' : UInt64} :
    Record.appendHash a h = Record.appendHash b h' ↔ a = b ∧ h = h' := by
  refine ⟨fun same => ?_, fun ⟨ha, hh⟩ => by rw [ha, hh]⟩
  have split := Record.splitHash_appendHash a h
  rw [same, Record.splitHash_appendHash b h'] at split
  cases split
  exact ⟨rfl, rfl⟩

theorem Record.endsWith_appendHash (payload : Record) (h hash : UInt64) :
    Record.endsWith hash (Record.appendHash payload h) = decide (h = hash) := by
  rw [Record.endsWith, Record.splitHash_appendHash]

theorem Record.exists_appendHash {record : Record} (wide : hashWidth ≤ record.size) :
    ∃ payload h, record = Record.appendHash payload h := by
  obtain ⟨payload, h, split⟩ : ∃ payload h, Record.splitHash record = .ok (payload, h) :=
    ⟨_, _, if_neg (Nat.not_lt_of_le wide)⟩
  exact ⟨payload, h, (Record.appendHash_of_splitHash split).symm⟩

namespace Plan

theorem isAmong_appendHash (payload found : Record) (h : UInt64) (records : List Record) :
    isAmong payload (Record.appendHash found h :: records) =
      if found = payload then .ok true else isAmong payload records := by
  rw [isAmong, Record.splitHash_appendHash]

/-- A look-up finds a payload exactly if its record is held. -/
theorem isAmong_filter {records : List Record} (wide : ∀ record ∈ records, hashWidth ≤ record.size)
    (payload : Record) (hash : UInt64) :
    isAmong payload (records.filter (Record.endsWith hash)) =
      .ok (decide (Record.appendHash payload hash ∈ records)) := by
  induction records with
  | nil => rfl
  | cons record records ih =>
    have rest := ih fun r hr => wide r (List.mem_cons_of_mem record hr)
    obtain ⟨found, h, rfl⟩ := Record.exists_appendHash (wide record List.mem_cons_self)
    have ends := Record.endsWith_appendHash found h hash
    by_cases hh : h = hash
    · subst hh
      rw [List.filter_cons, ends, if_pos (by simp), isAmong_appendHash]
      by_cases hp : found = payload
      · simp [hp]
      · have other : ¬payload = found := fun same => hp same.symm
        simp [hp, other, rest, Record.appendHash_inj]
    · have other : ¬hash = h := fun same => hh same.symm
      rw [List.filter_cons, ends, if_neg (by simp [hh]), rest]
      simp [Record.appendHash_inj, other]

/-- A look-up by any hash finds a payload exactly if it is held with this hash behind it. -/
theorem contains_held {config : Config} {t : Table} {records : List Record}
    (h : t.Holds config records) (hk : t.spec.key = .hash) (ho : t.index.isOpen = true)
    (payload : Record) (hash : UInt64) (engine : Engine) :
    contains Engine.storage payload hash t engine =
      (.ok (decide (Record.appendHash payload hash ∈ records)), t, engine) := by
  have read := h.readHash_eq hash
  rw [if_pos ho] at read
  rw [contains, storage_readHash, read]
  dsimp only
  rw [isAmong_filter (h.covers.hashes (h.key.trans hk))]

/-- A table of an engine with a configuration is set up as a plan asks and holds some records. -/
structure Serves (plan : Plan) (config : Config) (t : Table) (records : List Record) : Prop where
  holds : t.Holds config records
  spec : t.spec = plan.tableSpec
  ignoresDuplicates : t.ignoresDuplicates = true
  isOpen : plan.strategy = .hashKey → t.index.isOpen = true

namespace Serves

variable {plan : Plan} {engine : Engine} {t : Table} {records : List Record}

theorem key {config : Config} (h : plan.Serves config t records) :
    t.spec.key = plan.strategy.key := by
  rw [h.spec]
  rfl

theorem isOpen_iff {config : Config} (h : plan.Serves config t records) :
    t.index.isOpen = true ↔ plan.strategy = .hashKey := by
  refine ⟨fun isOpen => ?_, h.isOpen⟩
  rw [← Strategy.key_eq_hash, ← h.key, ← h.holds.key]
  exact h.holds.covers.openOnly isOpen

/-- A table that is set up like another serves the same plan. -/
theorem step {config : Config} {next : Table} {held : List Record}
    (h : plan.Serves config t records) (holds : next.Holds config held) (frame : t.Frame next) :
    plan.Serves config next held :=
  ⟨holds, frame.spec.trans h.spec, frame.ignoresDuplicates.trans h.ignoresDuplicates,
    fun hs => frame.isOpen.trans (h.isOpen hs)⟩

theorem scan_perm {config : Config} (h : plan.Serves config t records) {read : List Record}
    (scanned : t.scan = .ok read) : read.Perm records :=
  (h.holds.readsAs scanned).perm

theorem contains_eq (h : plan.Serves engine.config t records) (hs : plan.strategy = .hashKey)
    (payload : Record) :
    contains Engine.storage payload (Record.hash payload) t engine =
      (.ok (decide (plan.recordOf payload ∈ records)), t, engine) := by
  have key : t.spec.key = .hash := h.key.trans (by simp [hs])
  rw [contains_held h.holds key (h.isOpen hs), recordOf, if_pos hs]

/-- A copy serves the plan of its source, once its index is open under a hash key. -/
theorem copied {config config' : Config} (h : plan.Serves config t records) {copy : Table}
    (holds : copy.Holds config' records) (copyOf : t.CopyOf copy) :
    (copy.spec.key.hasHash = true → ∃ next, copy.openIndex = .ok next ∧
      plan.Serves config' next records ∧ next.id = t.id ∧ next.placement = .disk) ∧
    (copy.spec.key.hasHash = false → plan.Serves config' copy records) := by
  have ignores := copyOf.ignoresDuplicates.trans h.ignoresDuplicates
  have spec := copyOf.spec.trans h.spec
  have key : copy.spec.key = plan.strategy.key := by rw [copyOf.spec, h.key]
  constructor
  · intro hashed
    have hash : copy.spec.key = .hash := by
      cases hk : copy.spec.key with
      | hash => rfl
      | none | unique =>
        rw [hk] at hashed
        cases hashed
    obtain ⟨opened, holds'⟩ := holds.openIndex hash
    refine ⟨_, opened, ⟨holds', by simpa using spec, by simpa using ignores, fun _ => by simp⟩, ?_⟩
    simpa using ⟨copyOf.id, copyOf.placement⟩
  · intro plain
    refine ⟨holds, spec, ignores, fun hs => ?_⟩
    rw [key, hs] at plain
    cases plain

/-- Where a file can be made, a table is moved to disk or would grow too large there. -/
theorem promote (h : plan.Serves engine.config t records) (hp : t.placement = .memory)
    (hf : engine.canMakeFile = true) :
    (∃ moved next, Plan.promote Engine.storage t engine = (.ok (), moved, next) ∧
      engine.Frame next ∧ plan.Serves engine.config moved records ∧ moved.placement = .disk) ∨
    ∃ rows bytes, Plan.promote Engine.storage t engine =
        (.error (.tableFull .disk rows bytes), t, engine) ∧
      ∃ limit ∈ engine.config.diskLimit, limit < footprint lengthWidth records := by
  rcases Engine.promote_memory h.holds hp hf with
    ⟨-, copy, promoted, holds, copyOf⟩ | ⟨excess, rows, bytes, promoted⟩
  · obtain ⟨opens, plain⟩ := h.copied holds copyOf
    refine .inl ?_
    cases hk : copy.spec.key.hasHash with
    | true =>
      obtain ⟨next, opened, serves, -, place⟩ := opens hk
      refine ⟨next, engine.countPromotion, ?_, engine.frame_countPromotion, serves, place⟩
      simp [Plan.promote, promoted, hk, opened]
    | false =>
      refine ⟨copy, engine.countPromotion, ?_, engine.frame_countPromotion, plain hk,
        copyOf.placement⟩
      simp [Plan.promote, promoted, hk]
  · refine .inr ⟨rows, bytes, ?_, Config.not_fits_iff.1 excess⟩
    simp [Plan.promote, promoted]

theorem write_ok {config : Config} (h : plan.Serves config t records) {record : Record}
    {next : Table} (written : t.write record = .ok next) :
    plan.Serves config next (records ++ [record]) :=
  h.step (h.holds.write_ok written).1 (h.holds.write_ok written).2

/-- A table with room takes every record but a duplicate under a unique key. -/
theorem write_roomy {config : Config} (h : plan.Serves config t records) {record : Record}
    (wide : plan.strategy = .hashKey → hashWidth ≤ record.size)
    (small : record.size ≤ maxRecordSize) (room : ¬config.Full t.placement records record.size) :
    (t.spec.key = .unique ∧ record ∈ records ∧ t.write record = .error .duplicateKey) ∨
    ((t.spec.key = .unique → record ∉ records) ∧
      ∃ next, t.write record = .ok next ∧ plan.Serves config next (records ++ [record])) := by
  have refusal : Table.refusal? config t.placement t.spec.key records record =
      if t.spec.key = .unique ∧ record ∈ records then some .duplicateKey else none := by
    rw [Table.refusal?, if_neg (Nat.not_lt_of_le small), if_neg room,
      keyRefusal?_eq fun hk => wide (by simpa [h.key] using hk)]
  by_cases held : t.spec.key = .unique ∧ record ∈ records
  · rw [if_pos held] at refusal
    exact .inl ⟨held.1, held.2, h.holds.write_refused refusal⟩
  · rw [if_neg held] at refusal
    obtain ⟨next, written, holds, frame⟩ := h.holds.write_stored refusal
    exact .inr ⟨fun hk hr => held ⟨hk, hr⟩, next, written, h.step holds frame⟩

theorem write_full {config : Config} (h : plan.Serves config t records) {record : Record}
    (small : record.size ≤ maxRecordSize) (full : config.Full t.placement records record.size) :
    t.write record = .error (.tableFull t.placement records.length (footprint 0 records)) := by
  refine h.holds.write_refused ?_
  rw [Table.refusal?, if_neg (Nat.not_lt_of_le small), if_pos full]

theorem reaction_duplicateKey {config : Config} (h : plan.Serves config t records) :
    t.reaction .duplicateKey = .ignorable := if_pos h.ignoresDuplicates

/-- The first attempt settles a record where the table has room. -/
theorem store_roomy (h : plan.Serves engine.config t records) {record : Record}
    (wide : plan.strategy = .hashKey → hashWidth ≤ record.size)
    (small : record.size ≤ maxRecordSize)
    (room : ¬engine.config.Full t.placement records record.size) :
    ∃ answer next held, store Engine.storage plan record t engine = (.ok answer, next, engine) ∧
      plan.Serves engine.config next held ∧ engine.Stores t records record (.ok answer) held := by
  have possible := Engine.not_cannotStore small (Engine.not_exhausted_of_room room)
  rcases h.write_roomy wide small room with ⟨hk, hr, written⟩ | ⟨fresh, next, written, serves⟩
  · refine ⟨.duplicateRejected, t, records, ?_, h, .duplicate possible hk hr⟩
    simp [store, written, h.reaction_duplicateKey]
  · refine ⟨.inserted, next, records ++ [record], ?_, serves, .inserted possible fresh⟩
    simp [store, written]

theorem retry_roomy (h : plan.Serves engine.config t records) {record : Record}
    (wide : plan.strategy = .hashKey → hashWidth ≤ record.size)
    (small : record.size ≤ maxRecordSize)
    (room : ¬engine.config.Full t.placement records record.size) :
    (t.spec.key = .unique ∧ record ∈ records ∧
      retry Engine.storage plan record t engine = (.ok .duplicateRejected, t, engine)) ∨
    ((t.spec.key = .unique → record ∉ records) ∧
      ∃ next, retry Engine.storage plan record t engine = (.ok .inserted, next, engine) ∧
        plan.Serves engine.config next (records ++ [record])) := by
  rcases h.write_roomy wide small room with ⟨hk, hr, written⟩ | ⟨fresh, next, written, serves⟩
  · exact .inl ⟨hk, hr, by simp [retry, written, h.reaction_duplicateKey]⟩
  · exact .inr ⟨fresh, next, by simp [retry, written], serves⟩

theorem retry_full (h : plan.Serves engine.config t records) {record : Record}
    (small : record.size ≤ maxRecordSize)
    (full : engine.config.Full t.placement records record.size) :
    retry Engine.storage plan record t engine =
      (.error (plan.fatal (.tableFull t.placement records.length (footprint 0 records))), t,
        engine) := by
  simp [retry, h.write_full small full, Table.reaction, Reaction.of]

theorem store_unmoved (h : plan.Serves engine.config t records) {record : Record}
    (small : record.size ≤ maxRecordSize)
    (full : engine.config.Full t.placement records record.size) {e : StorageError}
    (hm : Plan.promote Engine.storage t engine = (.error e, t, engine)) :
    store Engine.storage plan record t engine = (.error (plan.fatal e), t, engine) := by
  simp [store, h.write_full small full, Table.reaction, Reaction.of, hm]

theorem store_moved (h : plan.Serves engine.config t records) {record : Record}
    (small : record.size ≤ maxRecordSize)
    (full : engine.config.Full t.placement records record.size) {moved : Table} {next : Engine}
    (hm : Plan.promote Engine.storage t engine = (.ok (), moved, next)) :
    store Engine.storage plan record t engine = retry Engine.storage plan record moved next := by
  simp [store, h.write_full small full, Table.reaction, Reaction.of, hm]

/-- Where a table has no room, its move to disk settles the record. -/
theorem store_full (h : plan.Serves engine.config t records) {record : Record}
    (wide : plan.strategy = .hashKey → hashWidth ≤ record.size)
    (small : record.size ≤ maxRecordSize)
    (full : engine.config.Full t.placement records record.size) :
    ∃ answer next world held,
      store Engine.storage plan record t engine = (answer.mapError plan.fatal, next, world) ∧
      engine.Frame world ∧ plan.Serves engine.config next held ∧
      engine.Stores t records record answer held := by
  cases hp : t.placement with
  | disk =>
    have fullHere : engine.config.Full .disk records record.size := hp ▸ full
    have promoted : Plan.promote Engine.storage t engine =
        (.error (.notSupported s!"table {t.id.name} is already on disk"), t, engine) := by
      simp [Plan.promote, Engine.promote_disk hp]
    exact ⟨.error _, t, engine, records, h.store_unmoved small full promoted, .refl engine, h,
      .failed (.onDisk small hp fullHere)⟩
  | memory =>
    have fullHere : engine.config.Full .memory records record.size := hp ▸ full
    by_cases hf : engine.canMakeFile = true
    · rcases h.promote hp hf with ⟨copy, next, promoted, frame, serves, placement⟩ |
        ⟨rows, bytes, promoted, limit, hl, excess⟩
      · have there : plan.Serves next.config copy records := frame.config ▸ serves
        by_cases fullDisk : engine.config.Full .disk records record.size
        · have refused := there.retry_full small (by rwa [placement, frame.config])
          rw [placement] at refused
          exact ⟨.error _, copy, next, records, (h.store_moved small full promoted).trans refused,
            frame, serves, .failed (.noRoom small hp fullHere hf fullDisk)⟩
        · have possible (e : StorageError) : ¬engine.CannotStore t records record e :=
            Engine.not_cannotStore small (Engine.not_exhausted_of_disk hf fullDisk) e
          have key : copy.spec.key = t.spec.key := serves.key.trans h.key.symm
          rcases there.retry_roomy wide small (by rwa [placement, frame.config]) with
            ⟨hk, hr, retried⟩ | ⟨fresh, last, retried, serves'⟩
          · exact ⟨.ok _, copy, next, records, (h.store_moved small full promoted).trans retried,
              frame, serves, .duplicate possible (key ▸ hk) hr⟩
          · exact ⟨.ok _, last, next, records ++ [record],
              (h.store_moved small full promoted).trans retried, frame, frame.config ▸ serves',
              .inserted possible (key ▸ fresh)⟩
      · have fullDisk : engine.config.Full .disk records record.size := ⟨limit, hl, by omega⟩
        exact ⟨.error _, t, engine, records, h.store_unmoved small full promoted, .refl engine, h,
          .failed (.noRoom small hp fullHere hf fullDisk)⟩
    · have none : engine.canMakeFile = false := Bool.eq_false_iff.2 hf
      have promoted : Plan.promote Engine.storage t engine = (.error .system, t, engine) := by
        simp [Plan.promote, Engine.promote_noFile hp none]
      exact ⟨.error _, t, engine, records, h.store_unmoved small full promoted, .refl engine, h,
        .failed (.noFile small hp fullHere none)⟩

theorem store (h : plan.Serves engine.config t records) {record : Record}
    (wide : plan.strategy = .hashKey → hashWidth ≤ record.size) :
    ∃ answer next world held,
      Plan.store Engine.storage plan record t engine =
        (answer.mapError plan.fatal, next, world) ∧
      engine.Frame world ∧ plan.Serves engine.config next held ∧
      engine.Stores t records record answer held := by
  by_cases large : maxRecordSize < record.size
  · have refusal : Table.refusal? engine.config t.placement t.spec.key records record =
        some (.recordTooLarge record.size maxRecordSize) := if_pos large
    refine ⟨.error (.recordTooLarge record.size maxRecordSize), t, engine, records, ?_,
      .refl engine, h, .failed (.tooLarge large)⟩
    simp [Plan.store, h.holds.write_refused refusal, Table.reaction, Reaction.of]
  · have small := Nat.le_of_not_lt large
    by_cases full : engine.config.Full t.placement records record.size
    · exact h.store_full wide small full
    · obtain ⟨answer, next, held, stored, serves, stores⟩ := h.store_roomy wide small full
      exact ⟨.ok answer, next, engine, held, stored, .refl engine, serves, stores⟩

end Serves

/-- What inserting a payload comes to: the answer and the records held after it. -/
inductive Inserts (plan : Plan) (engine : Engine) (eliminating : Bool) (t : Table)
    (records : List Record) (payload : Record) :
    Except StorageError InsertOutcome → List Record → Prop
  | found : plan.strategy = .hashKey ∧ eliminating → plan.recordOf payload ∈ records →
      Inserts plan engine eliminating t records payload (.ok .duplicateRejected) records
  | stored {answer : Except StorageError InsertOutcome} {held : List Record} :
      ¬((plan.strategy = .hashKey ∧ eliminating) ∧ plan.recordOf payload ∈ records) →
      engine.Stores t records (plan.recordOf payload) answer held →
      Inserts plan engine eliminating t records payload answer held

namespace Inserts

variable {plan : Plan} {engine : Engine} {eliminating : Bool} {t : Table}
  {records held : List Record} {payload : Record} {answer : Except StorageError InsertOutcome}

theorem of_found (h : plan.Inserts engine eliminating t records payload answer held)
    (looked : plan.strategy = .hashKey ∧ eliminating) (there : plan.recordOf payload ∈ records) :
    answer = .ok .duplicateRejected ∧ held = records := by
  cases h with
  | found => exact ⟨rfl, rfl⟩
  | stored new => exact absurd ⟨looked, there⟩ new

/-- A taken payload is a duplicate exactly if its record is held and duplicates are eliminated. -/
theorem rejected_iff {outcome : InsertOutcome}
    (h : plan.Inserts engine eliminating t records payload (.ok outcome) held)
    (hk : t.spec.key = plan.strategy.key) :
    outcome = .duplicateRejected ↔ plan.recordOf payload ∈ records ∧
      (plan.strategy = .uniqueKey ∨ plan.strategy = .hashKey ∧ eliminating) := by
  have key : t.spec.key = .unique ↔ plan.strategy = .uniqueKey := by
    rw [hk, Strategy.key_eq_unique]
  cases h with
  | found looked there => exact ⟨fun _ => ⟨there, .inr looked⟩, fun _ => rfl⟩
  | stored new stores =>
    cases stores with
    | duplicate _ unique there => exact ⟨fun _ => ⟨there, .inl (key.1 unique)⟩, fun _ => rfl⟩
    | inserted _ fresh =>
      refine ⟨fun same => (nomatch same), fun ⟨there, how⟩ => ?_⟩
      rcases how with unique | looked
      · exact absurd there (fresh (key.2 unique))
      · exact absurd ⟨looked, there⟩ new

/-- A payload that no look-up finds is taken unless its record cannot be stored. -/
theorem error_iff (h : plan.Inserts engine eliminating t records payload answer held)
    (new : ¬((plan.strategy = .hashKey ∧ eliminating) ∧ plan.recordOf payload ∈ records)) :
    (∃ e, answer = .error e) ↔
      ∃ e, engine.CannotStore t records (plan.recordOf payload) e := by
  cases h with
  | found looked there => exact absurd ⟨looked, there⟩ new
  | stored _ stores =>
    cases stores with
    | failed cause => exact ⟨fun _ => ⟨_, cause⟩, fun _ => ⟨_, rfl⟩⟩
    | inserted possible | duplicate possible =>
      exact ⟨fun ⟨_, failed⟩ => (nomatch failed), fun ⟨e, cause⟩ => absurd cause (possible e)⟩

theorem cause {e : StorageError}
    (h : plan.Inserts engine eliminating t records payload (.error e) held) :
    engine.CannotStore t records (plan.recordOf payload) e ∧ held = records := by
  cases h with
  | stored _ stores =>
    cases stores with
    | failed cause => exact ⟨cause, rfl⟩

/-- A payload whose record is held changes nothing, and it is rejected unless a unique key is asked
for a record that cannot be stored. -/
theorem of_held (h : plan.Inserts engine eliminating t records payload answer held)
    (hk : t.spec.key = plan.strategy.key) (there : plan.recordOf payload ∈ records)
    (how : plan.strategy = .uniqueKey ∨ plan.strategy = .hashKey ∧ eliminating) :
    held = records ∧
      (answer = .ok .duplicateRejected ∧ ¬(plan.strategy = .uniqueKey ∧
          ∃ e, engine.CannotStore t records (plan.recordOf payload) e) ∨
        ∃ e, answer = .error e ∧ plan.strategy = .uniqueKey ∧
          engine.CannotStore t records (plan.recordOf payload) e) := by
  cases h with
  | found looked =>
    have notUnique : ¬plan.strategy = .uniqueKey := by rw [looked.1]; decide
    exact ⟨rfl, .inl ⟨rfl, fun both => notUnique both.1⟩⟩
  | stored new stores =>
    have unique := how.resolve_right fun looked => new ⟨looked, there⟩
    cases stores with
    | inserted _ fresh =>
      have key : t.spec.key = .unique := by rw [hk, unique]; rfl
      exact absurd there (fresh key)
    | duplicate possible => exact ⟨rfl, .inl ⟨rfl, fun ⟨_, e, cause⟩ => possible e cause⟩⟩
    | failed cause => exact ⟨rfl, .inr ⟨_, rfl, unique, cause⟩⟩

end Inserts

theorem project_eq_ok {plan : Plan} {row : Row} {payload : Record}
    (h : plan.project row = .ok payload) :
    ∃ values, plan.projectValues row = .ok values ∧ values.encode = payload := by
  unfold project at h
  cases hv : plan.projectValues row with
  | error e =>
    rw [hv] at h
    cases h
  | ok values =>
    rw [hv] at h
    exact ⟨values, rfl, Except.ok.inj h⟩

theorem size_recordOf (plan : Plan) (payload : Record) :
    (plan.recordOf payload).size =
      payload.size + if plan.strategy = .hashKey then hashWidth else 0 := by
  unfold recordOf
  split <;> simp

theorem recordOf_inj {plan : Plan} {a b : Record} :
    plan.recordOf a = plan.recordOf b ↔ a = b := by
  unfold recordOf
  split
  · exact ⟨fun same => (Record.appendHash_inj.1 same).1, fun same => by rw [same]⟩
  · exact Iff.rfl

theorem Serves.insert {plan : Plan} {engine : Engine} {t : Table} {records : List Record}
    (h : plan.Serves engine.config t records) (eliminating : Bool) (payload : Record) :
    ∃ answer next world held,
      Plan.insert Engine.storage plan eliminating payload t engine =
        (answer.mapError plan.fatal, next, world) ∧
      engine.Frame world ∧ plan.Serves engine.config next held ∧
      plan.Inserts engine eliminating t records payload answer held := by
  have wide : plan.strategy = .hashKey → hashWidth ≤ (plan.recordOf payload).size := by
    intro hs
    rw [size_recordOf, if_pos hs]
    omega
  unfold Plan.insert
  by_cases looked : plan.strategy = .hashKey ∧ eliminating
  · rw [if_pos looked, h.contains_eq looked.1]
    by_cases there : plan.recordOf payload ∈ records
    · rw [decide_eq_true there]
      exact ⟨.ok .duplicateRejected, t, engine, records, rfl, .refl engine, h, .found looked there⟩
    · rw [decide_eq_false there]
      obtain ⟨answer, next, world, held, stored, frame, serves, stores⟩ := h.store wide
      exact ⟨answer, next, world, held, stored, frame, serves, .stored (there ·.2) stores⟩
  · rw [if_neg looked]
    obtain ⟨answer, next, world, held, stored, frame, serves, stores⟩ := h.store wide
    exact ⟨answer, next, world, held, stored, frame, serves, .stored (looked ·.1) stores⟩

/-- A new table serves the plan it was made for, once duplicates are ignored and its index is open
under a hash key. -/
theorem serves_new (plan : Plan) {config : Config} {t : Table} (holds : t.Holds config [])
    (spec : t.spec = plan.tableSpec) :
    if plan.strategy = .hashKey then ∃ next, (t.setIgnoresDuplicates true).openIndex = .ok next ∧
      plan.Serves config next []
    else plan.Serves config (t.setIgnoresDuplicates true) [] := by
  have ready := holds.setIgnoresDuplicates true
  by_cases hs : plan.strategy = .hashKey
  · rw [if_pos hs]
    have key : (t.setIgnoresDuplicates true).spec.key = .hash := by
      rw [Table.spec_setIgnoresDuplicates, spec]
      simp [tableSpec, hs]
    obtain ⟨opened, holds'⟩ := ready.openIndex key
    exact ⟨_, opened, holds', by simpa using spec, by simp, fun _ => by simp⟩
  · rw [if_neg hs]
    exact ⟨ready, by simpa using spec, by simp, fun other => absurd other hs⟩

/-- A table that is allocated for a plan serves it and holds nothing. -/
theorem allocate_spec (plan : Plan) (engine : Engine) :
    engine.Frame (plan.allocate Engine.storage engine).2 ∧
      ∀ t, (plan.allocate Engine.storage engine).1 = .ok t → plan.Serves engine.config t [] := by
  obtain ⟨frame, created⟩ := engine.create_spec plan.tableSpec
  unfold allocate
  rw [storage_create]
  rcases hc : engine.create plan.tableSpec with ⟨answer | t, next⟩
  · rw [hc] at frame
    exact ⟨frame, fun t h => nomatch h⟩
  · rw [hc] at frame created
    obtain ⟨holds, spec, -⟩ := created t rfl
    have serves := plan.serves_new holds spec
    by_cases hs : plan.strategy = .hashKey
    · rw [if_pos hs] at serves
      obtain ⟨ready, opened, serves⟩ := serves
      simp only [if_pos hs, storage_ignoreDuplicates, storage_openIndex, opened, replacing_ok]
      refine ⟨frame, fun t h => ?_⟩
      cases h
      exact serves
    · rw [if_neg hs] at serves
      simp only [if_neg hs, storage_ignoreDuplicates]
      refine ⟨frame, fun t h => ?_⟩
      cases h
      exact serves

theorem Serves.clear {plan : Plan} {engine : Engine} {t : Table} {records : List Record}
    (h : plan.Serves engine.config t records) :
    plan.clear Engine.storage t engine = (.ok (), t.clear, engine) ∧
      plan.Serves engine.config t.clear [] :=
  ⟨rfl, h.step h.holds.clear.1 h.holds.clear.2⟩

end Plan

end ResultSink
