import ResultSink.Proofs.Sink.Lifecycle
import ResultSink.Proofs.Sink.Simulation
import ResultSink.Storage.Run

/-! What an emptied table keeps of its past: nothing but its number and its place. An engine treats
tables that differ in their numbers alike, and an emptied table is one that was just made, so a sink
that was reset answers as one over a fresh table does. -/

namespace ResultSink

/-! ### Numbers -/

def MemoryTable.renumber (id : TableId) (t : MemoryTable) : MemoryTable := { t with id }

def FileTable.renumber (id : TableId) (t : FileTable) : FileTable := { t with id }

/-- The table by another number. -/
def Table.renumber (id : TableId) : Table → Table
  | memory t => memory (t.renumber id)
  | disk t => disk (t.renumber id)

theorem map_checks {ε α β γ : Type} {large full : Prop} [Decidable large] [Decidable full]
    (tooLarge noRoom : ε) (check : Except ε Unit) (add : Except ε α) (stored : α → β)
    (change : β → γ) :
    (if large then .error tooLarge else if full then .error noRoom else do
        check
        let index ← add
        return change (stored index)) =
      (if large then .error tooLarge else if full then .error noRoom else do
        check
        let index ← add
        return stored index : Except ε β).map change := by
  split
  · rfl
  · split
    · rfl
    · cases check with
      | error e => rfl
      | ok => cases add <;> rfl

theorem MemoryTable.write_renumber (t : MemoryTable) (id : TableId) (record : Record) :
    (t.renumber id).write record = (t.write record).map (renumber id) :=
  map_checks _ _ (t.index.check record) (t.index.add record ⟨t.rows.size⟩) (t.append record)
    (renumber id)

theorem FileTable.write_renumber (t : FileTable) (id : TableId) (record : Record) :
    (t.renumber id).write record = (t.write record).map (renumber id) :=
  map_checks _ _ (t.index.check record) (t.index.add record ⟨t.offsets.size⟩) (t.append record)
    (renumber id)

theorem FileTable.foldlM_write_renumber (records : List Record) (t : FileTable) (id : TableId) :
    records.foldlM write (t.renumber id) = (records.foldlM write t).map (renumber id) := by
  induction records generalizing t with
  | nil => rfl
  | cons record records ih =>
    rw [List.foldlM_cons, List.foldlM_cons, write_renumber]
    cases t.write record with
    | error e => rfl
    | ok next => exact ih next

namespace Table

variable (id : TableId) (t : Table)

@[simp] theorem spec_renumber : (t.renumber id).spec = t.spec := by cases t <;> rfl

@[simp] theorem placement_renumber : (t.renumber id).placement = t.placement := by cases t <;> rfl

@[simp] theorem reaction_renumber (e : StorageError) :
    (t.renumber id).reaction e = t.reaction e := by cases t <;> rfl

theorem readHash_renumber (hash : UInt64) : (t.renumber id).readHash hash = t.readHash hash := by
  cases t <;> rfl

theorem scan_renumber : (t.renumber id).scan = t.scan := by cases t <;> rfl

theorem clear_renumber : (t.renumber id).clear = t.clear.renumber id := by cases t <;> rfl

theorem renumber_self : t.renumber t.id = t := by cases t <;> rfl

theorem openIndex_renumber : (t.renumber id).openIndex = t.openIndex.map (renumber id) := by
  have same : (t.renumber id).index = t.index := by cases t <;> rfl
  unfold openIndex
  rw [same]
  cases t.index.openLookups with
  | error e => rfl
  | ok index => cases t <;> rfl

theorem write_renumber (record : Record) :
    (t.renumber id).write record = (t.write record).map (renumber id) := by
  cases t with
  | memory t =>
    dsimp only [renumber, write]
    rw [MemoryTable.write_renumber]
    cases t.write record <;> rfl
  | disk t =>
    dsimp only [renumber, write]
    rw [FileTable.write_renumber]
    cases t.write record <;> rfl

end Table

/-- A table that is on disk cannot be moved there. -/
def StorageError.onDisk (id : TableId) : StorageError :=
  .notSupported s!"table {id.name} is already on disk"

/-- Errors that are the same but for the number of the table they name. -/
inductive StorageError.Renumbered (id id' : TableId) : StorageError → StorageError → Prop
  | same (e : StorageError) : Renumbered id id' e e
  | onDisk : Renumbered id id' (.onDisk id) (.onDisk id')

namespace Engine

/-- Tables that are the same but for their numbers, on engines that are the same but for what they
have counted. -/
def renumbering (id id' : TableId) : Likeness Engine Table Engine Table where
  tables t t' := ∃ u : Table, t = u.renumber id ∧ t' = u.renumber id'
  worlds := Frame
  errors := StorageError.Renumbered id id'

variable {id id' : TableId} {w w' : Engine}

theorem replacing_renumbered {call : Table → Except StorageError Table}
    (blind : ∀ id u, call (u.renumber id) = (call u).map (Table.renumber id)) (u : Table)
    (hw : w.Frame w') :
    (renumbering id id').Calls Eq (replacing (call (u.renumber id)) (u.renumber id) w)
      (replacing (call (u.renumber id')) (u.renumber id') w') := by
  rw [blind, blind]
  cases call u with
  | error e => exact .error (.same e) ⟨u, rfl, rfl⟩ hw
  | ok next => exact .ok rfl ⟨next, rfl, rfl⟩ hw

theorem answering_renumbered {α : Type} (answer : Except StorageError α) (u : Table)
    (hw : w.Frame w') :
    (renumbering id id').Calls Eq (answer, u.renumber id, w) (answer, u.renumber id', w') := by
  cases answer with
  | error e => exact .error (.same e) ⟨u, rfl, rfl⟩ hw
  | ok a => exact .ok rfl ⟨u, rfl, rfl⟩ hw

theorem reaction_renumbered (u : Table) {e e' : StorageError}
    (he : StorageError.Renumbered id id' e e') :
    (u.renumber id').reaction e' = (u.renumber id).reaction e := by
  cases he with
  | same => rw [Table.reaction_renumber, Table.reaction_renumber]
  | onDisk => rfl

/-- The copy of a table goes by the number of the table and holds the same bytes. -/
theorem promote_memory_renumber (m : MemoryTable) (usable : w.canMakeFile = true) :
    w.promote ((Table.memory m).renumber id) =
      match m.rows.toList.foldlM FileTable.write
        { FileTable.new m.id m.spec w.config with ignoresDuplicates := m.ignoresDuplicates } with
      | .error e => (.error e, w)
      | .ok copy => (.ok ((Table.disk copy).renumber id), w.countPromotion) := by
  let copy : FileTable :=
    { FileTable.new m.id m.spec w.config with ignoresDuplicates := m.ignoresDuplicates }
  have opened : w.openCopy ((Table.memory m).renumber id) = .ok (copy.renumber id) := by
    show (w.newFileTable id m.spec).map _ = _
    rw [newFileTable, if_pos usable]
    rfl
  have scanned : ((Table.memory m).renumber id).scan = .ok m.rows.toList := rfl
  rw [promote, opened, scanned]
  dsimp only
  -- No record is written by the number of the copy.
  rw [fillCopy, FileTable.foldlM_write_renumber]
  cases m.rows.toList.foldlM FileTable.write copy <;> rfl

theorem promote_renumbered (u : Table) (hw : w.Frame w') :
    (renumbering id id').Calls (renumbering id id').tables
      (storage.promote (u.renumber id) w) (storage.promote (u.renumber id') w') := by
  rw [storage_promote, storage_promote]
  cases u with
  | disk f =>
    rw [promote_disk (by rfl), promote_disk (by rfl)]
    exact .error .onDisk ⟨.disk f, rfl, rfl⟩ hw
  | memory m =>
    have usable : w'.canMakeFile = w.canMakeFile := by
      rw [canMakeFile, canMakeFile, hw.config, hw.hasDirectory]
    cases made : w.canMakeFile with
    | false =>
      rw [promote_noFile (by rfl) made, promote_noFile (by rfl) (usable.trans made)]
      exact .error (.same _) ⟨.memory m, rfl, rfl⟩ hw
    | true =>
      rw [promote_memory_renumber m made, promote_memory_renumber m (usable.trans made), hw.config]
      split
      · exact .error (.same _) ⟨.memory m, rfl, rfl⟩ hw
      · next copy _ =>
        exact .ok ⟨.disk copy, rfl, rfl⟩ ⟨.memory m, rfl, rfl⟩ ⟨hw.config, hw.hasDirectory⟩

theorem renumbering_simulation (id id' : TableId) :
    Simulation storage storage (renumbering id id') where
  refl e := .same e
  promote := by
    rintro _ _ w w' ⟨u, rfl, rfl⟩ hw
    exact promote_renumbered u hw
  write := by
    rintro _ _ w w' record ⟨u, rfl, rfl⟩ hw
    exact replacing_renumbered (fun id u => u.write_renumber id record) u hw
  openIndex := by
    rintro _ _ w w' ⟨u, rfl, rfl⟩ hw
    exact replacing_renumbered (fun id u => u.openIndex_renumber id) u hw
  readHash := by
    rintro _ _ w w' hash ⟨u, rfl, rfl⟩ hw
    rw [storage_readHash, storage_readHash, Table.readHash_renumber, Table.readHash_renumber]
    exact answering_renumbered _ u hw
  clear := by
    rintro _ _ w w' ⟨u, rfl, rfl⟩ hw
    rw [storage_clear, storage_clear, Table.clear_renumber, Table.clear_renumber]
    exact answering_renumbered _ u.clear hw
  scan := by
    rintro _ _ w w' ⟨u, rfl, rfl⟩ hw
    rw [storage_scan, storage_scan, Table.scan_renumber, Table.scan_renumber]
    exact answering_renumbered _ u hw
  key := by
    rintro _ _ ⟨u, rfl, rfl⟩
    simp
  reaction := by
    rintro _ _ e e' ⟨u, rfl, rfl⟩ he
    exact reaction_renumbered u he
  isIgnorable := by
    rintro _ _ e e' ⟨u, rfl, rfl⟩ he
    rw [storage_isIgnorable, storage_isIgnorable, reaction_renumbered u he]

end Engine

/-! ### Fresh tables -/

namespace Plan

/-- The table of a plan as it is made in a place: without rows, ignoring duplicates, and with its
index open under a hash key. -/
def freshTable (plan : Plan) (config : Config) (placement : Placement) (id : TableId) : Table :=
  ((Table.new placement id plan.tableSpec config).setIgnoresDuplicates true).withIndex
    { key := plan.tableSpec.key, isOpen := plan.strategy = .hashKey }

variable {plan : Plan} {t : Table}

theorem create_fresh {spec : TableSpec} {w w' : Engine}
    (created : w.create spec = (.ok t, w')) : t = Table.new t.placement t.id spec w.config := by
  simp only [Engine.create] at created
  split at created
  · cases created
  · cases created
    rfl
  · cases made : w.useId.newFileTable w.nextId spec with
    | error e =>
      rw [made] at created
      cases created
    | ok file =>
      rw [made] at created
      cases created
      unfold Engine.newFileTable at made
      split at made <;> cases made
      rfl

theorem allocate_fresh {w w' : Engine}
    (allocated : plan.allocate Engine.storage w = (.ok t, w')) :
    t = plan.freshTable w.config t.placement t.id := by
  unfold allocate at allocated
  rw [storage_create] at allocated
  rcases created : w.create plan.tableSpec with ⟨e | made, w₁⟩
  · rw [created] at allocated
    cases allocated
  · have new := create_fresh created
    generalize made.placement = placement at new
    generalize made.id = id at new
    subst new
    rw [created] at allocated
    dsimp only at allocated
    split at allocated
    · next hs =>
      have key : plan.tableSpec.key = .hash := Strategy.key_eq_hash.2 hs
      have opened : ((Table.new placement id plan.tableSpec w.config).setIgnoresDuplicates
          true).openIndex = .ok (plan.freshTable w.config placement id) := by
        rw [freshTable, decide_eq_true hs]
        cases placement with
        | memory => exact congrArg (Except.map _) (if_pos key)
        | disk => exact congrArg (Except.map _) (if_pos key)
      rw [storage_ignoreDuplicates, storage_openIndex, opened] at allocated
      cases allocated
      cases placement <;> rfl
    · next hs =>
      cases allocated
      rw [freshTable, decide_eq_false hs]
      cases placement <;> rfl

/-- A table that is emptied is as it was made. -/
theorem Serves.clear_eq {config : Config} {records : List Record}
    (h : plan.Serves config t records) : t.clear = plan.freshTable config t.placement t.id := by
  -- Emptying leaves the limits, the key and the flags, and they are those of a new table.
  have isOpen : t.index.isOpen = decide (plan.strategy = .hashKey) := by
    rw [Bool.eq_iff_iff, decide_eq_true_iff]
    exact h.isOpen_iff
  have ignores := h.ignoresDuplicates
  have spec := h.spec
  have key := h.holds.key
  cases t with
  | memory t =>
    obtain ⟨-, -, -, byteLimit, rowLimit, -, -, -⟩ : MemoryTable.Holds config t records := h.holds
    obtain ⟨id, _, rows, usedBytes, dataBytes, _, _, ⟨_, unique, hashed, _⟩, _⟩ := t
    cases spec
    cases key
    cases isOpen
    cases ignores
    cases byteLimit
    cases rowLimit
    rfl
  | disk t =>
    obtain ⟨-, -, -, sizeLimit, -, -, -⟩ : FileTable.Holds config t records := h.holds
    obtain ⟨id, _, file, offsets, dataBytes, _, ⟨_, unique, hashed, _⟩, _⟩ := t
    cases spec
    cases key
    cases isOpen
    cases ignores
    cases sizeLimit
    rfl

end Plan

namespace Sink

/-- A sink whose table was emptied is, up to the number of its table, one whose table is fresh. -/
theorem Keeps.reset_sinks {s : Sink Table} {w : Engine} {rows : List Row} (h : s.Keeps w rows)
    {plan : Plan} {t : Table} (ht : s.table = some ⟨plan, some t⟩) (id : TableId) (shape : Shape) :
    (Engine.renumbering t.id id).Sinks plan (s.reset Engine.storage w).2.1
      { shape, table := some ⟨plan, some (plan.freshTable w.config t.placement id)⟩ } := by
  have serves := h.serves plan t ht
  have fresh := serves.clear_eq
  have renumbered : plan.freshTable w.config t.placement id =
      (plan.freshTable w.config t.placement t.id).renumber id := by cases t.placement <;> rfl
  have own : t.clear = t.clear.renumber t.id := by
    rw [← serves.holds.clear.2.id, Table.renumber_self]
  have after : (s.reset Engine.storage w).2.1 =
      ({ s with rowCount := 0, eliminating := true } : Sink Table).withHandle plan t.clear := by
    simp [Sink.reset, ht, serves.clear.1]
  rw [after]
  exact ⟨rfl, rfl, t.clear, _, rfl, rfl, t.clear, own, by rw [renumbered, ← fresh]⟩

/-- After any run a reset succeeds, and from then on the sink cannot be told from one with the same
plan over a fresh table in the same place, on any engine with the same configuration: whatever
operations follow, both count the same rows, have their tables in the same place and give the same
answers, but for the number of a table that is on disk already. -/
theorem reset_isolates (engine : Engine) (history : List Op) :
    let s := (run Engine.storage history {} engine).1
    let w := (run Engine.storage history {} engine).2
    let emptied := s.reset Engine.storage w
    ∀ plan t, s.table = some ⟨plan, some t⟩ →
      emptied.1 = .ok () ∧
      (∀ world made, (plan.allocate Engine.storage world).1 = .ok made →
        made = plan.freshTable world.config made.placement made.id) ∧
      ∀ id shape world, w.Frame world →
        let fresh : Sink Table :=
          { shape, table := some ⟨plan, some (plan.freshTable world.config t.placement id)⟩ }
        ∀ ops, Op.free ∉ ops →
          let left := run Engine.storage ops emptied.2.1 emptied.2.2
          let right := run Engine.storage ops fresh world
          right.1.rowCount = left.1.rowCount ∧
          right.1.eliminating = left.1.eliminating ∧
          right.1.handle?.map Table.placement = left.1.handle?.map Table.placement ∧
          ∀ op, op ≠ .free → (Engine.renumbering t.id id).Answers Failure.refused
            (step Engine.storage op left.1 left.2).1
            (step Engine.storage op right.1 right.2).1 := by
  intro s w emptied plan t ht
  have h : s.Keeps w (ledger Engine.storage history {} engine []) := (Keeps.init engine).run history
  obtain ⟨answer, world_eq, -⟩ := h.reset
  refine ⟨answer, fun world made allocated => Plan.allocate_fresh (Prod.ext allocated rfl), ?_⟩
  intro id shape world frame fresh ops unfreed left right
  have sim := Engine.renumbering_simulation t.id id
  have start : (Engine.renumbering t.id id).Sinks plan emptied.2.1 fresh := by
    have sinks := h.reset_sinks ht id shape
    rwa [← frame.config] at sinks
  have worlds : emptied.2.2.Frame world := by rwa [world_eq]
  obtain ⟨alike, frame'⟩ := sim.run start worlds unfreed
  obtain ⟨t₁, t₂, ht₁, ht₂, u, rfl, rfl⟩ := alike.tables
  have place : right.1.handle?.map Table.placement = left.1.handle?.map Table.placement := by
    simp [handle?, left, right, ht₁, ht₂]
  refine ⟨alike.rowCount, alike.eliminating, place, fun op kept => ?_⟩
  exact (sim.step alike frame' kept).answers

/-- A table that an earlier row has moved to disk takes two rows there after a reset, as a fresh
table by another number does, and the third is refused by both. -/
theorem reset_isolates_on_disk :
    let engine := oneRowEngine { diskLimit := some 26 }
    let history : List Op := [.create numbersRequest, .insert [.int 2], .insert [.int 1]]
    let later : List Op := [.insert [.int 3], .insert [.int 4]]
    let s := (run Engine.storage history {} engine).1
    let w := (run Engine.storage history {} engine).2
    let emptied := s.reset Engine.storage w
    let plan := Plan.resolve numbersRequest {}
    let fresh : Sink Table :=
      { table := some ⟨plan, some (plan.freshTable engine.config .disk ⟨7⟩)⟩ }
    let left := run Engine.storage later emptied.2.1 emptied.2.2
    let right := run Engine.storage later fresh engine
    emptied.1 = .ok () ∧ left.1.rowCount = 2 ∧ right.1.rowCount = left.1.rowCount ∧
      (step Engine.storage (.insert [.int 5]) left.1 left.2).1.isOk = false ∧
      (Engine.renumbering .first ⟨7⟩).Answers Failure.refused
        (step Engine.storage (.insert [.int 5]) left.1 left.2).1
        (step Engine.storage (.insert [.int 5]) right.1 right.2).1 := by
  intro engine history later s w emptied plan fresh left right
  have known : s.table.map (fun t => (t.plan, t.handle.isSome)) = some (plan, true) := by
    decide +kernel
  obtain ⟨t, ht⟩ := exists_handle known
  have moved : s.handle?.map (fun t => (t.id, t.placement)) = some (.first, .disk) := by
    decide +kernel
  rw [handle?, ht] at moved
  obtain ⟨id, place⟩ : t.id = .first ∧ t.placement = .disk := by simpa using moved
  obtain ⟨answer, -, isolated⟩ := reset_isolates engine history plan t ht
  obtain ⟨count, -, -, alike⟩ := isolated ⟨7⟩ {} engine ⟨by rfl, rfl⟩ later (by simp [later])
  rw [place] at count alike
  rw [id] at alike
  have two : left.1.rowCount = 2 := by decide +kernel
  have refused : (step Engine.storage (.insert [.int 5]) left.1 left.2).1.isOk = false := by
    decide +kernel
  refine ⟨answer, two, ?_, refused, ?_⟩
  · simp only [left, right, emptied, s, w]
    exact count
  · simp only [left, right, emptied, s, w]
    exact alike (.insert [.int 5]) (by simp)

end Sink

end ResultSink
