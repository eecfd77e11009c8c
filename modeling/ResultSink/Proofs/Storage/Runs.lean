import ResultSink.Proofs.Storage.Tables
import ResultSink.Storage.Run

/-! Runs of a table as lists of records. `Table.written` keeps the records that a run wrote since
the table was last cleared. A table in either place counts them, finds them by hash and reads them,
and no operation meets an index entry without a row or a record that is cut off. -/

namespace ResultSink

/-- A record ends with a hash if its last bytes are those of the hash, least significant first. -/
theorem Record.endsWith_eq (hash : UInt64) (record : Record) :
    record.endsWith hash = decide
      (record.data.toList.drop (record.size - hashWidth) = littleEndian hashWidth hash.toNat) := by
  by_cases wide : hashWidth ≤ record.size
  · obtain ⟨payload, found, split⟩ : ∃ payload h, Record.splitHash record = .ok (payload, h) :=
      ⟨_, _, if_neg (Nat.not_lt_of_le wide)⟩
    obtain rfl := Record.appendHash_of_splitHash split
    have last : (Record.appendHash payload found).data.toList.drop payload.size =
        littleEndian hashWidth found.toNat := by
      simp [Record.appendHash]
    have same : littleEndian hashWidth found.toNat = littleEndian hashWidth hash.toNat ↔
        found = hash := by
      rw [littleEndian_inj found.toNat_lt hash.toNat_lt, UInt64.toNat_inj]
    simp [Record.endsWith, split, last, same]
  · have short : Record.splitHash record =
        .error (.corrupted s!"record of {record.size} bytes has no hash column") :=
      if_pos (Nat.lt_of_not_le wide)
    have other : ¬record.data.toList.drop (record.size - hashWidth) =
        littleEndian hashWidth hash.toNat := by
      intro same
      have length := congrArg List.length same
      rw [List.length_drop, length_littleEndian] at length
      have size : record.data.toList.length = record.size := rfl
      omega
    simp [Record.endsWith, short, other]

/-- Texts that differ within their fronts differ whatever stands behind them. -/
theorem append_ne_append {front front' : String} {k : Nat} {a b : Char}
    (h : front.toList[k]? = some a) (h' : front'.toList[k]? = some b) (other : a ≠ b)
    (back back' : String) : front ++ back ≠ front' ++ back' := by
  intro same
  have letter := congrArg (fun text => text.toList[k]?) same
  obtain ⟨inside, -⟩ := List.getElem?_eq_some_iff.1 h
  obtain ⟨inside', -⟩ := List.getElem?_eq_some_iff.1 h'
  simp only [String.toList_append] at letter
  rw [List.getElem?_append_left inside, List.getElem?_append_left inside', h, h'] at letter
  exact other (Option.some.inj letter)

namespace Table

/-! ### The records of a run -/

/-- The records after an operation and its answer. -/
def noted (op : Op) (answer : Except StorageError Reply) (records : List Record) : List Record :=
  match op, answer with
  | .write record, .ok _ => records ++ [record]
  | .clear, .ok _ => []
  | _, _ => records

/-- The records that a run writes and does not clear, behind those that the table holds. -/
def written : List Op → Table → List Record → List Record
  | [], _, records => records
  | op :: ops, t, records => written ops (step op t).2 (noted op (step op t).1 records)

/-- Whether look-ups by hash are open after an operation. -/
def openAfter (key : Key) (wasOpen : Bool) : Op → Bool
  | .openIndex => wasOpen || key.hasHash
  | .closeIndex => false
  | _ => wasOpen

/-- What all operations leave alone in a table. -/
structure Lasts (t next : Table) : Prop where
  id : next.id = t.id
  spec : next.spec = t.spec
  placement : next.placement = t.placement

theorem Lasts.trans {t next last : Table} (h : t.Lasts next) (h' : next.Lasts last) :
    t.Lasts last :=
  ⟨h'.id.trans h.id, h'.spec.trans h.spec, h'.placement.trans h.placement⟩

theorem Frame.lasts {t next : Table} (h : t.Frame next) : t.Lasts next :=
  ⟨h.id, h.spec, h.placement⟩

theorem lasts_withIndex (t : Table) (index : TableIndex) : t.Lasts (t.withIndex index) :=
  ⟨by simp, by simp, by simp⟩

@[simp] theorem change_ok (next t : Table) : change (.ok next) t = (.ok .done, next) := rfl

@[simp] theorem change_error (e : StorageError) (t : Table) :
    change (.error e) t = (.error e, t) := rfl

/-- Why a table that holds some records refuses an operation. -/
inductive Refuses (config : Config) (t : Table) (records : List Record) : Op → StorageError → Prop
  | write {record : Record} {e : StorageError} :
      refusal? config t.placement t.spec.key records record = some e →
      Refuses config t records (.write record) e
  | openIndex : t.spec.key ≠ .hash →
      Refuses config t records .openIndex
        (.notSupported "index_init on a table without a hash index")
  | readHash {hash : UInt64} : t.index.isOpen = false →
      Refuses config t records (.readHash hash) .indexNotOpen

/-- No cause of a refusal is in the table itself: no entry of the index is without a row, and no
record is cut off. -/
theorem Refuses.sound {config : Config} {t : Table} {records : List Record} {op : Op}
    {e : StorageError} (h : Refuses config t records op e) :
    (∀ row : RowId, e ≠ .corrupted s!"dangling index entry {row.debugText}") ∧
      (∀ offset : Nat, e ≠ .corrupted s!"record at offset {offset} runs past end of file") ∧
      ∀ what, e ≠ .io what := by
  cases h with
  | openIndex => simp
  | readHash => simp
  | write refused =>
    unfold refusal? at refused
    split at refused
    · obtain rfl := Option.some.inj refused
      simp
    split at refused
    · obtain rfl := Option.some.inj refused
      simp
    unfold keyRefusal? at refused
    split at refused
    · cases refused
    · split at refused
      · obtain rfl := Option.some.inj refused
        simp
      · cases refused
    · -- The text of a record without a hash differs from either text in its first letters.
      split at refused
      · obtain rfl := Option.some.inj refused
        refine ⟨fun row same => ?_, fun offset same => ?_, fun what same => nomatch same⟩
        · have texts := StorageError.corrupted.inj same
          rw [String.append_assoc] at texts
          exact append_ne_append (k := 0) rfl rfl (by decide) _ _ texts
        · have texts := StorageError.corrupted.inj same
          rw [String.append_assoc, String.append_assoc] at texts
          exact append_ne_append (k := 7) rfl rfl (by decide) _ _ texts
      · cases refused

theorem holds_new (placement : Placement) (id : TableId) (spec : TableSpec) (config : Config) :
    (new placement id spec config).Holds config [] := by
  cases placement with
  | memory => exact MemoryTable.holds_new id spec config
  | disk => exact FileTable.holds_new id spec config

namespace Holds

variable {config : Config} {t : Table} {records : List Record}

theorem openIndex_other (h : t.Holds config records) (hk : t.spec.key ≠ .hash) :
    t.openIndex = .error (.notSupported "index_init on a table without a hash index") := by
  have key : t.index.key ≠ .hash := fun other => hk (h.key.symm.trans other)
  rw [Table.openIndex, TableIndex.openLookups, if_neg key]
  rfl

theorem closeIndex (h : t.Holds config records) : t.closeIndex.Holds config records := by
  have covers := h.covers
  exact h.withIndex h.key
    ⟨covers.ordered, covers.entries, covers.lookups, covers.hashes, fun isOpen => nomatch isOpen⟩

theorem step_refused (h : t.Holds config records) {record : Record} {e : StorageError}
    (hr : refusal? config t.placement t.spec.key records record = some e) :
    Table.step (.write record) t = (.error e, t) := by
  rw [Table.step, h.write_refused hr, change_error]

theorem step_stored (h : t.Holds config records) {record : Record}
    (hr : refusal? config t.placement t.spec.key records record = none) :
    ∃ next, Table.step (.write record) t = (.ok .done, next) ∧
      next.Holds config (records ++ [record]) ∧ t.Frame next := by
  obtain ⟨next, written, kept⟩ := h.write_stored hr
  refine ⟨next, ?_, kept⟩
  rw [Table.step, written, change_ok]

/-- An operation changes the records by what it notes of them. -/
theorem step (h : t.Holds config records) (op : Op) :
    (step op t).2.Holds config (noted op (step op t).1 records) ∧ t.Lasts (step op t).2 ∧
      (step op t).2.index.isOpen = openAfter t.spec.key t.index.isOpen op := by
  cases op with
  | write record =>
    cases hr : refusal? config t.placement t.spec.key records record with
    | some e =>
      rw [h.step_refused hr]
      exact ⟨h, ⟨rfl, rfl, rfl⟩, rfl⟩
    | none =>
      obtain ⟨next, stored, holds, frame⟩ := h.step_stored hr
      rw [stored]
      exact ⟨holds, frame.lasts, frame.isOpen⟩
  | openIndex =>
    by_cases hk : t.spec.key = .hash
    · obtain ⟨opened, holds⟩ := h.openIndex hk
      simp only [Table.step, opened, change_ok]
      exact ⟨holds, t.lasts_withIndex _, by simp [openAfter, hk, Key.hasHash]⟩
    · simp only [Table.step, h.openIndex_other hk, change_error]
      refine ⟨h, ⟨rfl, rfl, rfl⟩, ?_⟩
      cases key : t.spec.key with
      | hash => exact absurd key hk
      | none | unique => simp [openAfter, Key.hasHash]
  | closeIndex =>
    exact ⟨h.closeIndex, t.lasts_withIndex _, by simp [Table.step, Table.closeIndex, openAfter,
      TableIndex.close]⟩
  | readHash hash => exact ⟨h, ⟨rfl, rfl, rfl⟩, rfl⟩
  | setIgnoresDuplicates ignore =>
    refine ⟨h.setIgnoresDuplicates ignore, ⟨?_, ?_, ?_⟩, ?_⟩ <;> simp [Table.step, openAfter]
  | clear => exact ⟨h.clear.1, h.clear.2.lasts, h.clear.2.isOpen⟩
  | scan => exact ⟨h, ⟨rfl, rfl, rfl⟩, rfl⟩

/-- An operation fails for no other cause than those of a refusal. -/
theorem step_eq_error (h : t.Holds config records) {op : Op} {e : StorageError}
    (failed : (Table.step op t).1 = .error e) : Refuses config t records op e := by
  cases op with
  | write record =>
    cases hr : refusal? config t.placement t.spec.key records record with
    | some cause =>
      rw [h.step_refused hr] at failed
      cases failed
      exact .write hr
    | none =>
      obtain ⟨next, stored, -⟩ := h.step_stored hr
      rw [stored] at failed
      cases failed
  | openIndex =>
    by_cases hk : t.spec.key = .hash
    · rw [Table.step, (h.openIndex hk).1] at failed
      cases failed
    · rw [Table.step, h.openIndex_other hk] at failed
      cases failed
      exact .openIndex hk
  | readHash hash =>
    cases ho : t.index.isOpen with
    | true =>
      simp only [Table.step, h.readHash_eq, ho] at failed
      cases failed
    | false =>
      simp only [Table.step, h.readHash_eq, ho] at failed
      cases failed
      exact .readHash ho
  | scan =>
    obtain ⟨read, scanned, -⟩ := h.scan
    rw [Table.step, scanned] at failed
    cases failed
  | closeIndex | setIgnoresDuplicates ignore | clear => cases failed

theorem run (h : t.Holds config records) (ops : List Op) :
    (run ops t).Holds config (written ops t records) ∧ t.Lasts (run ops t) ∧
      (run ops t).index.isOpen = ops.foldl (openAfter t.spec.key) t.index.isOpen := by
  induction ops generalizing t records with
  | nil => exact ⟨h, ⟨rfl, rfl, rfl⟩, rfl⟩
  | cons op ops ih =>
    obtain ⟨holds, lasts, isOpen⟩ := h.step op
    obtain ⟨holds', lasts', isOpen'⟩ := ih holds
    refine ⟨holds', lasts.trans lasts', ?_⟩
    rw [lasts.spec, isOpen] at isOpen'
    exact isOpen'

end Holds

/-- After any run from an empty table, in memory or on disk, the table counts the records that were
written since it was last cleared, finds them by the hash at their end while look-ups are open, and
reads them in the order they were written, or in that of their bytes under a unique key on disk. Its
index opens under a hash key only, clearing changes no flag, and no operation meets an entry without
a row or a record that is cut off. -/
theorem run_reads_written (placement : Placement) (id : TableId) (spec : TableSpec)
    (config : Config) (ops : List Op) :
    let t := run ops (new placement id spec config)
    let kept := written ops (new placement id spec config) []
    t.rowCount = kept.length ∧ t.dataBytes = footprint 0 kept ∧
    (∃ read, t.scan = .ok read ∧
      if placement = .disk ∧ spec.key = .unique then
        read.Perm kept ∧ read.Pairwise Record.Before
      else read = kept) ∧
    t.index.isOpen = ops.foldl (openAfter spec.key) false ∧
    (∀ hash, t.readHash hash =
      if t.index.isOpen then
        .ok (kept.filter fun record =>
          record.data.toList.drop (record.size - hashWidth) = littleEndian hashWidth hash.toNat)
      else .error .indexNotOpen) ∧
    ((∃ next, t.openIndex = .ok next) ↔ spec.key = .hash) ∧
    t.clear.index.isOpen = t.index.isOpen ∧
    t.clear.ignoresDuplicates = t.ignoresDuplicates ∧
    ∀ op e, (step op t).1 = .error e →
      (∀ row : RowId, e ≠ .corrupted s!"dangling index entry {row.debugText}") ∧
      (∀ offset : Nat, e ≠ .corrupted s!"record at offset {offset} runs past end of file") ∧
      ∀ what, e ≠ .io what := by
  intro t kept
  have start : (new placement id spec config).spec = spec ∧
      (new placement id spec config).placement = placement ∧
      (new placement id spec config).index.isOpen = false := by
    cases placement <;> exact ⟨rfl, rfl, rfl⟩
  obtain ⟨holds, lasts, isOpen⟩ := (holds_new placement id spec config).run ops
  have spec_eq : t.spec = spec := lasts.spec.trans start.1
  have place : t.placement = placement := lasts.placement.trans start.2.1
  obtain ⟨read, scanned, order⟩ := holds.scan
  refine ⟨holds.rowCount, holds.dataBytes, ⟨read, scanned, ?_⟩, ?_, fun hash => ?_, ?_,
    holds.clear.2.isOpen, holds.clear.2.ignoresDuplicates,
    fun op e failed => (holds.step_eq_error failed).sound⟩
  · rw [ReadsAs, place, spec_eq] at order
    exact order
  · rw [← start.1, ← start.2.2]
    exact isOpen
  · rw [holds.readHash_eq, funext (Record.endsWith_eq hash)]
  · rw [← spec_eq]
    constructor
    · rintro ⟨next, opened⟩
      apply Decidable.byContradiction
      intro hk
      rw [holds.openIndex_other hk] at opened
      cases opened
    · intro hk
      exact ⟨_, (holds.openIndex hk).1⟩

/-- A file under a unique key reads its records in the order of their bytes, and keeps a record out
that it holds. -/
theorem run_reads_written_on_disk :
    let start := new .disk .first { name := "t", key := .unique, columns := 1 } {}
    let t := run [.write ⟨#[2]⟩, .openIndex, .write ⟨#[1, 9]⟩, .write ⟨#[2]⟩] start
    t.rowCount = 2 ∧ t.dataBytes = 3 ∧
      (∃ read, t.scan = .ok read ∧ read.Perm [⟨#[2]⟩, ⟨#[1, 9]⟩] ∧
        read.Pairwise Record.Before) ∧
      (step (.write ⟨#[2]⟩) t).1 = .error .duplicateKey ∧
      ∀ what, StorageError.duplicateKey ≠ .io what := by
  intro start t
  obtain ⟨count, bytes, ⟨read, scanned, order⟩, -, -, -, -, -, sound⟩ :=
    run_reads_written .disk .first { name := "t", key := .unique, columns := 1 } {}
      [.write ⟨#[2]⟩, .openIndex, .write ⟨#[1, 9]⟩, .write ⟨#[2]⟩]
  have kept : written [.write ⟨#[2]⟩, .openIndex, .write ⟨#[1, 9]⟩, .write ⟨#[2]⟩] start [] =
      [⟨#[2]⟩, ⟨#[1, 9]⟩] := by decide
  have refused : (step (.write ⟨#[2]⟩) t).1 = .error .duplicateKey := by rfl
  rw [kept] at count bytes order
  exact ⟨count, bytes, ⟨read, scanned, order⟩, refused, (sound _ _ refused).2.2⟩

end Table

end ResultSink
