import ResultSink.Proofs.Storage.Index
import ResultSink.Storage.Table

/-! Tables as lists of records. `Holds` relates a table in either place to the records in it, in the
order they were written. `Table.refusal?` says of such a list which record a table refuses and why,
and every operation of a table is described by what it does to the list. -/

namespace ResultSink

/-! ### What records take up -/

/-- The bytes that records take up with an overhead for each. -/
def footprint (overhead : Nat) (records : List Record) : Nat :=
  records.foldr (fun record total => record.size + overhead + total) 0

@[simp] theorem footprint_nil (overhead : Nat) : footprint overhead [] = 0 := rfl

@[simp] theorem footprint_cons (overhead : Nat) (record : Record) (records : List Record) :
    footprint overhead (record :: records) = record.size + overhead + footprint overhead records :=
  rfl

@[simp] theorem footprint_append (overhead : Nat) (front back : List Record) :
    footprint overhead (front ++ back) = footprint overhead front + footprint overhead back := by
  induction front with
  | nil => simp
  | cons record front ih =>
    rw [List.cons_append, footprint_cons, ih, footprint_cons]
    omega

theorem footprint_perm (overhead : Nat) {front back : List Record} (h : front.Perm back) :
    footprint overhead front = footprint overhead back := by
  induction h with
  | nil => rfl
  | cons record _ ih => rw [footprint_cons, ih, footprint_cons]
  | swap first second records =>
    simp only [footprint_cons]
    omega
  | trans _ _ first second => rw [first, second]

/-- A table in a place has no room for a record of a size behind other records. -/
def Config.Full (config : Config) (placement : Placement) (records : List Record) (size : Nat) :
    Prop :=
  match placement with
  | .memory => (∃ limit ∈ config.memoryRows, limit ≤ records.length) ∨
      config.memoryLimit < footprint rowOverhead records + size + rowOverhead
  | .disk => ∃ limit ∈ config.diskLimit, limit < footprint lengthWidth records + size + lengthWidth

instance decidableFull (config : Config) (placement : Placement) (records : List Record)
    (size : Nat) : Decidable (config.Full placement records size) :=
  match placement with
  | .memory => inferInstanceAs (Decidable (_ ∨ _))
  | .disk => inferInstanceAs (Decidable (∃ limit ∈ config.diskLimit, limit < _))

theorem Config.full_perm {config : Config} {placement : Placement} {records other : List Record}
    {size : Nat} (h : records.Perm other) :
    config.Full placement records size ↔ config.Full placement other size := by
  cases placement with
  | memory => simp only [Config.Full, h.length_eq, footprint_perm rowOverhead h]
  | disk => simp only [Config.Full, footprint_perm lengthWidth h]

/-- Why a table in a place refuses a record behind others: the size of the record is looked at
first, then the room, then the key. -/
def Table.refusal? (config : Config) (placement : Placement) (key : Key) (records : List Record)
    (record : Record) : Option StorageError :=
  if maxRecordSize < record.size then some (.recordTooLarge record.size maxRecordSize)
  else if config.Full placement records record.size then
    some (.tableFull placement records.length (footprint 0 records))
  else keyRefusal? key records record

theorem Table.refusal?_eq_none_iff {config : Config} {placement : Placement} {key : Key}
    {records : List Record} {record : Record} :
    Table.refusal? config placement key records record = none ↔
      record.size ≤ maxRecordSize ∧ ¬config.Full placement records record.size ∧
        keyRefusal? key records record = none := by
  unfold Table.refusal?
  by_cases large : maxRecordSize < record.size
  · rw [if_pos large]
    exact ⟨fun h => (nomatch h), fun h => absurd h.1 (Nat.not_le_of_lt large)⟩
  · have small := Nat.le_of_not_lt large
    by_cases full : config.Full placement records record.size <;> simp [large, full, small]

/-- A table refuses by its own rules only. -/
theorem Table.refusal?_ne_io {config : Config} {placement : Placement} {key : Key}
    {records : List Record} {record : Record} (what : String) :
    Table.refusal? config placement key records record ≠ some (.io what) := by
  unfold Table.refusal? keyRefusal?
  split
  · simp
  split
  · simp
  cases key with
  | none => simp
  | unique | hash => split <;> simp

/-- The three checks before a write, for a table whose room and whose index are known. -/
theorem write_eq_refusal {α : Type} {config : Config} {placement : Placement} {index : TableIndex}
    {records : List Record} (h : index.Covers records) {record : Record} {room : Bool}
    (hr : room = true ↔ ¬config.Full placement records record.size) (stored : TableIndex → α) :
    (if maxRecordSize < record.size then .error (.recordTooLarge record.size maxRecordSize)
      else if !room then .error (.tableFull placement records.length (footprint 0 records))
      else do
        index.check record
        let index ← index.add record ⟨records.length⟩
        return stored index) =
      match Table.refusal? config placement index.key records record with
      | some e => Except.error e
      | none => (index.add record ⟨records.length⟩).map stored := by
  unfold Table.refusal?
  by_cases large : maxRecordSize < record.size
  · rw [if_pos large, if_pos large]
  rw [if_neg large, if_neg large]
  by_cases full : config.Full placement records record.size
  · have none : room = false := Bool.eq_false_iff.2 fun some => hr.1 some full
    simp [none, full]
  · rw [hr.2 full, if_neg full, h.check_eq]
    cases keyRefusal? index.key records record with
    | some e => rfl
    | none => cases index.add record ⟨records.length⟩ <;> rfl

/-- What the rows of a table leave alone. -/
structure Table.Frame (t next : Table) : Prop where
  id : next.id = t.id
  spec : next.spec = t.spec
  placement : next.placement = t.placement
  ignoresDuplicates : next.ignoresDuplicates = t.ignoresDuplicates
  isOpen : next.index.isOpen = t.index.isOpen

theorem Table.Frame.refl (t : Table) : t.Frame t := ⟨rfl, rfl, rfl, rfl, rfl⟩

theorem Table.Frame.trans {t next last : Table} (h : t.Frame next) (h' : next.Frame last) :
    t.Frame last :=
  ⟨h'.id.trans h.id, h'.spec.trans h.spec, h'.placement.trans h.placement,
    h'.ignoresDuplicates.trans h.ignoresDuplicates, h'.isOpen.trans h.isOpen⟩

/-! ### Tables in memory -/

namespace MemoryTable

/-- The table with a record written and its index brought up to date. -/
def append (t : MemoryTable) (record : Record) (index : TableIndex) : MemoryTable :=
  { t with
    rows := t.rows.push record
    usedBytes := t.usedBytes + (record.size + rowOverhead)
    dataBytes := t.dataBytes + record.size
    index }

/-- A table in memory, made for a configuration, holds some records. -/
structure Holds (config : Config) (t : MemoryTable) (records : List Record) : Prop where
  rows : t.rows.toList = records
  usedBytes : t.usedBytes = footprint rowOverhead records
  dataBytes : t.dataBytes = footprint 0 records
  byteLimit : t.byteLimit = config.memoryLimit
  rowLimit : t.rowLimit = config.memoryRows
  key : t.index.key = t.spec.key
  index : t.index.Covers records
  sizes : ∀ record ∈ records, record.size ≤ maxRecordSize

theorem holds_new (id : TableId) (spec : TableSpec) (config : Config) :
    Holds config (new id spec config) [] :=
  ⟨rfl, rfl, rfl, rfl, rfl, rfl, TableIndex.covers_new spec.key, fun _ h => nomatch h⟩

namespace Holds

variable {config : Config} {t : MemoryTable} {records : List Record}

theorem rowCount (h : t.Holds config records) : t.rows.size = records.length := by
  rw [← h.rows, Array.length_toList]

theorem hasRoom_iff (h : t.Holds config records) (size : Nat) :
    t.hasRoom size = true ↔ ¬config.Full .memory records size := by
  unfold hasRoom Config.Full
  rw [h.usedBytes, h.byteLimit, h.rowLimit, h.rowCount]
  cases config.memoryRows <;> simp

theorem read_eq (h : t.Holds config records) {entry : Record × RowId}
    (he : entry ∈ numbered records) : t.read entry.2 = .ok entry.1 := by
  have row := mem_numbered.1 he
  rw [← h.rows, Array.getElem?_toList] at row
  simp [read, row]

theorem write_eq (h : t.Holds config records) (record : Record) :
    t.write record =
      match Table.refusal? config .memory t.spec.key records record with
      | some e => .error e
      | none => (t.index.add record ⟨records.length⟩).map (t.append record) := by
  rw [← h.key, ← write_eq_refusal h.index (h.hasRoom_iff record.size), ← h.dataBytes, write,
    h.rowCount]
  rfl

theorem write_stored (h : t.Holds config records) {record : Record}
    (hr : Table.refusal? config .memory t.spec.key records record = none) :
    ∃ next, t.write record = .ok next ∧ next.Holds config (records ++ [record]) ∧
      (Table.memory t).Frame (.memory next) := by
  obtain ⟨small, -, admitted⟩ := Table.refusal?_eq_none_iff.1 hr
  obtain ⟨index, added, covers, key, isOpen⟩ := h.index.add (h.key ▸ admitted)
  refine ⟨t.append record index, by rw [h.write_eq, hr, added]; rfl, ?_, rfl, rfl, rfl, rfl, isOpen⟩
  refine ⟨?_, ?_, ?_, h.byteLimit, h.rowLimit, key.trans h.key, covers, fun r hr => ?_⟩
  · simp [append, h.rows]
  · simp [append, h.usedBytes]
  · simp [append, h.dataBytes]
  · rcases List.mem_append.1 hr with hr | hr
    · exact h.sizes r hr
    · rw [List.mem_singleton.1 hr]
      exact small

theorem clear (h : t.Holds config records) : t.clear.Holds config [] :=
  ⟨rfl, rfl, rfl, h.byteLimit, h.rowLimit, h.key, h.index.clear, fun _ h => nomatch h⟩

end Holds

end MemoryTable

/-! ### Tables in a file -/

/-- The bytes of a file with some records. -/
def framedAll (records : List Record) : ByteArray :=
  records.foldr (fun record rest => FileTable.framed record ++ rest) .empty

theorem framedAll_append (front back : List Record) :
    framedAll (front ++ back) = framedAll front ++ framedAll back := by
  induction front with
  | nil => exact ByteArray.empty_append.symm
  | cons record front ih =>
    calc framedAll (record :: front ++ back)
      _ = FileTable.framed record ++ framedAll (front ++ back) := rfl
      _ = FileTable.framed record ++ (framedAll front ++ framedAll back) := by rw [ih]
      _ = framedAll (record :: front) ++ framedAll back := ByteArray.append_assoc.symm

theorem size_framedAll (records : List Record) :
    (framedAll records).size = footprint lengthWidth records := by
  induction records with
  | nil => rfl
  | cons record records ih =>
    have size : (framedAll (record :: records)).size =
        (FileTable.framed record).size + (framedAll records).size := ByteArray.size_append
    rw [size, FileTable.size_framed, ih, footprint_cons]
    omega

/-- The offsets of records that are written from a place on. -/
def offsetsFrom (start : Nat) : List Record → List Nat
  | [] => []
  | record :: records => start :: offsetsFrom (start + (record.size + lengthWidth)) records

theorem length_offsetsFrom (start : Nat) (records : List Record) :
    (offsetsFrom start records).length = records.length := by
  induction records generalizing start with
  | nil => rfl
  | cons record records ih => rw [offsetsFrom, List.length_cons, ih, List.length_cons]

theorem offsetsFrom_append (start : Nat) (front back : List Record) :
    offsetsFrom start (front ++ back) =
      offsetsFrom start front ++ offsetsFrom (start + footprint lengthWidth front) back := by
  induction front generalizing start with
  | nil => rfl
  | cons record front ih =>
    rw [List.cons_append, offsetsFrom, ih, footprint_cons, Nat.add_assoc, offsetsFrom,
      List.cons_append]

theorem getElem?_offsetsFrom (start : Nat) {records : List Record} {row : Nat}
    (inside : row < records.length) :
    (offsetsFrom start records)[row]? =
      some (start + footprint lengthWidth (records.take row)) := by
  induction records generalizing start row with
  | nil => cases inside
  | cons record records ih =>
    cases row with
    | zero => rfl
    | succ row =>
      rw [offsetsFrom, List.getElem?_cons_succ, ih _ (Nat.lt_of_succ_lt_succ inside),
        List.take_succ_cons, footprint_cons, Nat.add_assoc]

namespace FileTable

/-- The table with a record written and its index brought up to date. -/
def append (t : FileTable) (record : Record) (index : TableIndex) : FileTable :=
  { t with
    file := t.file ++ framed record
    offsets := t.offsets.push t.file.size
    dataBytes := t.dataBytes + record.size
    index }

/-- A table in a file, made for a configuration, holds some records. -/
structure Holds (config : Config) (t : FileTable) (records : List Record) : Prop where
  file : t.file = framedAll records
  offsets : t.offsets.toList = offsetsFrom 0 records
  dataBytes : t.dataBytes = footprint 0 records
  sizeLimit : t.sizeLimit = config.diskLimit
  key : t.index.key = t.spec.key
  index : t.index.Covers records
  sizes : ∀ record ∈ records, record.size ≤ maxRecordSize

theorem holds_new (id : TableId) (spec : TableSpec) (config : Config) :
    Holds config (new id spec config) [] :=
  ⟨rfl, rfl, rfl, rfl, rfl, TableIndex.covers_new spec.key, fun _ h => nomatch h⟩

namespace Holds

variable {config : Config} {t : FileTable} {records : List Record}

theorem rowCount (h : t.Holds config records) : t.offsets.size = records.length := by
  rw [← length_offsetsFrom 0 records, ← h.offsets, Array.length_toList]

theorem fileSize (h : t.Holds config records) : t.file.size = footprint lengthWidth records := by
  rw [h.file, size_framedAll]

theorem hasRoom_iff (h : t.Holds config records) (size : Nat) :
    t.hasRoom size = true ↔ ¬config.Full .disk records size := by
  have width : footprint lengthWidth records + (lengthWidth + size) =
      footprint lengthWidth records + size + lengthWidth := by omega
  unfold hasRoom Config.Full
  rw [h.sizeLimit, h.fileSize, width]
  cases config.diskLimit <;> simp

theorem read_eq (h : t.Holds config records) {entry : Record × RowId}
    (he : entry ∈ numbered records) : t.read entry.2 = .ok entry.1 := by
  obtain ⟨record, ⟨row⟩⟩ := entry
  have there : records[row]? = some record := mem_numbered.1 he
  obtain ⟨inside, rfl⟩ := List.getElem?_eq_some_iff.1 there
  -- The file is cut where the record begins; what stands before it are the earlier records.
  have cut : records = records.take row ++ records[row] :: records.drop (row + 1) := by
    rw [List.getElem_cons_drop, List.take_append_drop]
  have offset : t.offsets[row]? = some (framedAll (records.take row)).size := by
    rw [← Array.getElem?_toList, h.offsets, getElem?_offsetsFrom 0 inside, Nat.zero_add,
      size_framedAll]
  have small : records[row].size < 2 ^ 32 :=
    Nat.lt_of_le_of_lt (h.sizes _ (List.getElem_mem inside)) (by decide)
  have file : t.file = framedAll (records.take row) ++
      (framed records[row] ++ framedAll (records.drop (row + 1))) := by
    conv => lhs; rw [h.file, cut, framedAll_append]
    rfl
  have found := readAt_framed t records[row] _ _ small file
  rw [read, offset]
  exact found

theorem write_eq (h : t.Holds config records) (record : Record) :
    t.write record =
      match Table.refusal? config .disk t.spec.key records record with
      | some e => .error e
      | none => (t.index.add record ⟨records.length⟩).map (t.append record) := by
  rw [← h.key, ← write_eq_refusal h.index (h.hasRoom_iff record.size), ← h.dataBytes, write,
    h.rowCount]
  rfl

theorem write_stored (h : t.Holds config records) {record : Record}
    (hr : Table.refusal? config .disk t.spec.key records record = none) :
    ∃ next, t.write record = .ok next ∧ next.Holds config (records ++ [record]) ∧
      (Table.disk t).Frame (.disk next) := by
  obtain ⟨small, -, admitted⟩ := Table.refusal?_eq_none_iff.1 hr
  obtain ⟨index, added, covers, key, isOpen⟩ := h.index.add (h.key ▸ admitted)
  refine ⟨t.append record index, by rw [h.write_eq, hr, added]; rfl, ?_, rfl, rfl, rfl, rfl, isOpen⟩
  refine ⟨?_, ?_, ?_, h.sizeLimit, key.trans h.key, covers, fun r hr => ?_⟩
  · rw [framedAll_append, append, h.file]
    exact congrArg (framedAll records ++ ·) ByteArray.append_empty.symm
  · simp [append, h.offsets, h.fileSize, offsetsFrom_append, offsetsFrom]
  · simp [append, h.dataBytes]
  · rcases List.mem_append.1 hr with hr | hr
    · exact h.sizes r hr
    · rw [List.mem_singleton.1 hr]
      exact small

/-- Under a unique key the rows are read in the order of their records. -/
theorem scan (h : t.Holds config records) :
    ∃ read, t.scan = .ok read ∧
      if t.spec.key = .unique then read.Perm records ∧ read.Pairwise Record.Before
      else read = records := by
  by_cases hk : t.spec.key = .unique
  · have key : t.index.key = .unique := h.key.trans hk
    refine ⟨t.index.unique.map Prod.fst, ?_, ?_⟩
    · have read := mapM_rows t.read t.index.unique fun entry he =>
        h.read_eq ((h.index.entries key).mem_iff.1 he)
      rw [FileTable.scan, scanOrder, TableIndex.keyOrder?, if_pos key]
      exact read
    · rw [if_pos hk]
      exact ⟨h.index.perm_unique key, List.pairwise_map.2 h.index.ordered⟩
  · have key : ¬t.index.key = .unique := fun other => hk (h.key.symm.trans other)
    refine ⟨records, ?_, by rw [if_neg hk]⟩
    have read := mapM_rows t.read (numbered records) fun _ => h.read_eq
    rw [map_fst_numbered, map_snd_numbered] at read
    rw [FileTable.scan, scanOrder, TableIndex.keyOrder?, if_neg key, h.rowCount]
    exact read

theorem clear (h : t.Holds config records) : t.clear.Holds config [] :=
  ⟨rfl, rfl, rfl, h.sizeLimit, h.key, h.index.clear, fun _ h => nomatch h⟩

end Holds

end FileTable

/-! ### Tables in either place -/

namespace Table

/-- A table, made for a configuration, holds some records. -/
def Holds (config : Config) (t : Table) (records : List Record) : Prop :=
  match t with
  | memory t => t.Holds config records
  | disk t => t.Holds config records

/-- The records that a table reads, given those it holds: under a unique key a file is read in the
order of its records. -/
def ReadsAs (t : Table) (records read : List Record) : Prop :=
  if t.placement = .disk ∧ t.spec.key = .unique then
    read.Perm records ∧ read.Pairwise Record.Before
  else read = records

theorem ReadsAs.perm {t : Table} {records read : List Record} (h : t.ReadsAs records read) :
    read.Perm records := by
  unfold ReadsAs at h
  split at h
  · exact h.1
  · rw [h]

/-- Tables in the same place read the same records alike. -/
theorem ReadsAs.eq {t next : Table} {records read again : List Record}
    (h : t.ReadsAs records read) (h' : next.ReadsAs records again)
    (hk : next.spec.key = t.spec.key)
    (hp : next.placement = t.placement ∨ t.spec.key ≠ .unique) : again = read := by
  have disk : (next.placement = .disk ∧ next.spec.key = .unique) ↔
      (t.placement = .disk ∧ t.spec.key = .unique) := by
    rw [hk]
    rcases hp with same | other
    · rw [same]
    · simp [other]
  unfold ReadsAs at h h'
  simp only [disk] at h'
  split at h
  · next ordered =>
    rw [if_pos ordered] at h'
    refine List.Perm.eq_of_pairwise (fun a b _ _ before after => ?_) h'.2 h.2 (h'.1.trans h.1.symm)
    exact absurd rfl (Record.Before.trans before after).ne
  · next other =>
    rw [if_neg other] at h'
    rw [h', h]

@[simp] theorem spec_withIndex (index : TableIndex) (t : Table) :
    (t.withIndex index).spec = t.spec := by cases t <;> rfl

@[simp] theorem id_withIndex (index : TableIndex) (t : Table) :
    (t.withIndex index).id = t.id := by cases t <;> rfl

@[simp] theorem placement_withIndex (index : TableIndex) (t : Table) :
    (t.withIndex index).placement = t.placement := by cases t <;> rfl

@[simp] theorem ignoresDuplicates_withIndex (index : TableIndex) (t : Table) :
    (t.withIndex index).ignoresDuplicates = t.ignoresDuplicates := by cases t <;> rfl

@[simp] theorem index_withIndex (index : TableIndex) (t : Table) :
    (t.withIndex index).index = index := by cases t <;> rfl

@[simp] theorem spec_setIgnoresDuplicates (ignore : Bool) (t : Table) :
    (t.setIgnoresDuplicates ignore).spec = t.spec := by cases t <;> rfl

@[simp] theorem id_setIgnoresDuplicates (ignore : Bool) (t : Table) :
    (t.setIgnoresDuplicates ignore).id = t.id := by cases t <;> rfl

@[simp] theorem placement_setIgnoresDuplicates (ignore : Bool) (t : Table) :
    (t.setIgnoresDuplicates ignore).placement = t.placement := by cases t <;> rfl

@[simp] theorem ignoresDuplicates_setIgnoresDuplicates (ignore : Bool) (t : Table) :
    (t.setIgnoresDuplicates ignore).ignoresDuplicates = ignore := by cases t <;> rfl

@[simp] theorem index_setIgnoresDuplicates (ignore : Bool) (t : Table) :
    (t.setIgnoresDuplicates ignore).index = t.index := by cases t <;> rfl

namespace Holds

variable {config : Config} {t : Table} {records : List Record}

theorem key (h : t.Holds config records) : t.index.key = t.spec.key := by
  cases t with
  | memory t => exact MemoryTable.Holds.key h
  | disk t => exact FileTable.Holds.key h

theorem covers (h : t.Holds config records) : t.index.Covers records := by
  cases t with
  | memory t => exact MemoryTable.Holds.index h
  | disk t => exact FileTable.Holds.index h

theorem sizes (h : t.Holds config records) {record : Record} (hr : record ∈ records) :
    record.size ≤ maxRecordSize := by
  cases t with
  | memory t => exact MemoryTable.Holds.sizes h record hr
  | disk t => exact FileTable.Holds.sizes h record hr

theorem rowCount (h : t.Holds config records) : t.rowCount = records.length := by
  cases t with
  | memory t => exact MemoryTable.Holds.rowCount h
  | disk t => exact FileTable.Holds.rowCount h

theorem dataBytes (h : t.Holds config records) : t.dataBytes = footprint 0 records := by
  cases t with
  | memory t => exact MemoryTable.Holds.dataBytes h
  | disk t => exact FileTable.Holds.dataBytes h

theorem write_refused (h : t.Holds config records) {record : Record} {e : StorageError}
    (hr : Table.refusal? config t.placement t.spec.key records record = some e) :
    t.write record = .error e := by
  cases t with
  | memory t =>
    have refused : Table.refusal? config .memory t.spec.key records record = some e := hr
    rw [write, MemoryTable.Holds.write_eq h, refused]
    rfl
  | disk t =>
    have refused : Table.refusal? config .disk t.spec.key records record = some e := hr
    rw [write, FileTable.Holds.write_eq h, refused]
    rfl

theorem write_stored (h : t.Holds config records) {record : Record}
    (hr : Table.refusal? config t.placement t.spec.key records record = none) :
    ∃ next, t.write record = .ok next ∧ next.Holds config (records ++ [record]) ∧
      t.Frame next := by
  cases t with
  | memory t =>
    obtain ⟨next, written, holds, frame⟩ := MemoryTable.Holds.write_stored h hr
    exact ⟨.memory next, by rw [write, written]; rfl, holds, frame⟩
  | disk t =>
    obtain ⟨next, written, holds, frame⟩ := FileTable.Holds.write_stored h hr
    exact ⟨.disk next, by rw [write, written]; rfl, holds, frame⟩

theorem write_ok (h : t.Holds config records) {record : Record} {next : Table}
    (written : t.write record = .ok next) :
    next.Holds config (records ++ [record]) ∧ t.Frame next := by
  cases refusal : Table.refusal? config t.placement t.spec.key records record with
  | some e => cases (h.write_refused refusal).symm.trans written
  | none =>
    obtain ⟨stored, written', holds, frame⟩ := h.write_stored refusal
    cases written'.symm.trans written
    exact ⟨holds, frame⟩

theorem readHash_eq (h : t.Holds config records) (hash : UInt64) :
    t.readHash hash =
      if t.index.isOpen then .ok (records.filter (Record.endsWith hash))
      else .error .indexNotOpen := by
  cases t with
  | memory t => exact h.covers.lookup_eq (fun _ => MemoryTable.Holds.read_eq h) hash
  | disk t => exact h.covers.lookup_eq (fun _ => FileTable.Holds.read_eq h) hash

theorem scan (h : t.Holds config records) :
    ∃ read, t.scan = .ok read ∧ t.ReadsAs records read := by
  cases t with
  | memory t => exact ⟨records, congrArg Except.ok (MemoryTable.Holds.rows h), rfl⟩
  | disk t =>
    obtain ⟨read, scanned, order⟩ := FileTable.Holds.scan h
    exact ⟨read, scanned, by simpa [ReadsAs, placement, spec] using order⟩

theorem readsAs (h : t.Holds config records) {read : List Record} (scanned : t.scan = .ok read) :
    t.ReadsAs records read := by
  obtain ⟨read', scanned', order⟩ := h.scan
  rwa [← Except.ok.inj (scanned'.symm.trans scanned)]

theorem clear (h : t.Holds config records) : t.clear.Holds config [] ∧ t.Frame t.clear := by
  cases t with
  | memory t => exact ⟨MemoryTable.Holds.clear h, rfl, rfl, rfl, rfl, rfl⟩
  | disk t => exact ⟨FileTable.Holds.clear h, rfl, rfl, rfl, rfl, rfl⟩

theorem setIgnoresDuplicates (h : t.Holds config records) (ignore : Bool) :
    (t.setIgnoresDuplicates ignore).Holds config records := by
  cases t with
  | memory t =>
    obtain ⟨rows, usedBytes, dataBytes, byteLimit, rowLimit, key, index, sizes⟩ :
      MemoryTable.Holds config t records := h
    exact ⟨rows, usedBytes, dataBytes, byteLimit, rowLimit, key, index, sizes⟩
  | disk t =>
    obtain ⟨file, offsets, dataBytes, sizeLimit, key, index, sizes⟩ :
      FileTable.Holds config t records := h
    exact ⟨file, offsets, dataBytes, sizeLimit, key, index, sizes⟩

theorem withIndex (h : t.Holds config records) {index : TableIndex}
    (hk : index.key = t.spec.key) (hi : index.Covers records) :
    (t.withIndex index).Holds config records := by
  cases t with
  | memory t =>
    obtain ⟨rows, usedBytes, dataBytes, byteLimit, rowLimit, -, -, sizes⟩ :
      MemoryTable.Holds config t records := h
    exact ⟨rows, usedBytes, dataBytes, byteLimit, rowLimit, hk, hi, sizes⟩
  | disk t =>
    obtain ⟨file, offsets, dataBytes, sizeLimit, -, -, sizes⟩ :
      FileTable.Holds config t records := h
    exact ⟨file, offsets, dataBytes, sizeLimit, hk, hi, sizes⟩

/-- Under a hash key the index opens, and nothing else changes. -/
theorem openIndex (h : t.Holds config records) (hk : t.spec.key = .hash) :
    t.openIndex = .ok (t.withIndex { t.index with isOpen := true }) ∧
      (t.withIndex { t.index with isOpen := true }).Holds config records := by
  obtain ⟨opened, covers⟩ := h.covers.openLookups (h.key.trans hk)
  exact ⟨by rw [Table.openIndex, opened]; rfl, h.withIndex h.key covers⟩

end Holds

end Table

end ResultSink
