import ResultSink.Proofs.Storage.Engine

/-! The accounts of an engine over many calls. Every creation takes the next number, also where it
fails, so that no two tables made by different creations share one; a promotion takes none, and its
copy goes by the number of its source. What succeeds is counted, once and in its place. -/

namespace ResultSink

/-- Below the greatest number every number has another after it. -/
theorem TableId.toNat_next {id : TableId} (h : id.raw.toNat + 1 < 2 ^ 64) :
    id.next.raw.toNat = id.raw.toNat + 1 := by
  rw [next, if_pos h, UInt64.toNat_add, UInt64.toNat_one, Nat.mod_eq_of_lt h]

/-! ### What a write leaves alone in any file -/

namespace FileTable

theorem id_of_write {t next : FileTable} {record : Record} (h : t.write record = .ok next) :
    next.id = t.id := by
  unfold write at h
  split at h
  · cases h
  split at h
  · cases h
  cases checked : t.index.check record with
  | error e => simp [checked, Bind.bind, Except.bind] at h
  | ok _ =>
    cases added : t.index.add record ⟨t.offsets.size⟩ with
    | error e => simp [checked, added, Bind.bind, Except.bind] at h
    | ok index =>
      simp only [checked, added, Bind.bind, Except.bind] at h
      cases h
      rfl

theorem id_of_foldlM_write {records : List Record} {t last : FileTable}
    (h : records.foldlM FileTable.write t = .ok last) : last.id = t.id := by
  induction records generalizing t with
  | nil =>
    cases h
    rfl
  | cons record records ih =>
    rw [List.foldlM_cons] at h
    cases written : t.write record with
    | error e =>
      rw [written] at h
      cases h
    | ok next =>
      rw [written] at h
      exact (ih h).trans (id_of_write written)

end FileTable

namespace Engine

/-! ### One call -/

/-- The engine after a table has been created in a place. -/
def countTable (placement : Placement) (engine : Engine) : Engine :=
  match placement with
  | .memory => { engine with stats.memoryTables := engine.stats.memoryTables + 1 }
  | .disk => { engine with stats.diskTables := engine.stats.diskTables + 1 }

/-- A table is not kept in memory under a configuration: its description forbids that, or one record
of its width leaves no room there. -/
def BelongsOnDisk (config : Config) (spec : TableSpec) : Prop :=
  spec.forceOnDisk = true ∨ spec.hasBlobs = true ∨
    config.memoryLimit < spec.recordWidth + rowOverhead

theorem startsOnDisk_eq_ok {engine : Engine} {spec : TableSpec} {onDisk : Bool}
    (h : engine.startsOnDisk spec = .ok onDisk) :
    onDisk = true ↔ BelongsOnDisk engine.config spec := by
  unfold startsOnDisk at h
  by_cases required : spec.requiresDisk = true
  · rw [if_pos required] at h
    cases h
    refine ⟨fun _ => ?_, fun _ => rfl⟩
    rw [TableSpec.requiresDisk, Bool.or_eq_true] at required
    rcases required with forced | blobs
    · exact .inl forced
    · exact .inr (.inl blobs)
  · rw [if_neg required, tooWide] at h
    split at h
    · cases h
    · cases h
      rw [TableSpec.requiresDisk, Bool.or_eq_true, not_or] at required
      simp [BelongsOnDisk, required]

/-- A creation takes the number that is next. It makes one table, where the table belongs, and
counts it there; or it makes none, and counts nothing. -/
theorem create_cases (spec : TableSpec) (engine : Engine) :
    (∃ t, engine.create spec = (.ok t, engine.useId.countTable t.placement) ∧
      t.id = engine.nextId ∧ t.spec = spec ∧
      (t.placement = .disk ↔ BelongsOnDisk engine.config spec)) ∨
    ∃ e, engine.create spec = (.error e, engine.useId) ∧ (e = .overflow .sum ∨
      ∃ cause : StorageError, e = .refused (.outOfResources
        s!"cannot create on-disk table {engine.nextId.name}: {cause.message}")) := by
  cases starts : engine.useId.startsOnDisk spec with
  | error step =>
    refine .inr ⟨.overflow step, by simp only [create, starts], .inl ?_⟩
    cases step with
    | sum => rfl
    | product =>
      unfold startsOnDisk tooWide at starts
      split at starts
      · cases starts
      · split at starts <;> cases starts
  | ok onDisk =>
    have place := startsOnDisk_eq_ok starts
    cases onDisk with
    | false =>
      refine .inl ⟨.memory (engine.useId.newMemoryTable engine.nextId spec), ?_, rfl, rfl, ?_⟩
      · simp only [create, starts]
        rfl
      · refine ⟨fun h => ?_, fun h => ?_⟩
        · cases h
        · cases place.2 h
    | true =>
      cases made : engine.useId.newFileTable engine.nextId spec with
      | error e =>
        exact .inr ⟨_, by simp only [create, starts, made], .inr ⟨e, rfl⟩⟩
      | ok file =>
        have new : file = FileTable.new engine.nextId spec engine.useId.config := by
          unfold newFileTable at made
          split at made
          · cases made
            rfl
          · cases made
        refine .inl ⟨.disk file, ?_, by rw [new]; rfl, by rw [new]; rfl, ?_⟩
        · simp only [create, starts, made]
          rfl
        · exact ⟨fun _ => place.1 rfl, fun _ => rfl⟩

/-- A promotion of any table either makes a copy under the number of its source or changes
nothing. -/
theorem promote_any (source : Table) (engine : Engine) :
    (∃ copy, engine.promote source = (.ok copy, engine.countPromotion) ∧ copy.id = source.id) ∨
    ∃ e, engine.promote source = (.error e, engine) := by
  cases opened : engine.openCopy source with
  | error e => exact .inr ⟨e, by rw [promote, opened]⟩
  | ok empty =>
    cases scanned : source.scan with
    | error e => exact .inr ⟨e, by simp only [promote, opened, scanned]⟩
    | ok records =>
      have promoted : engine.promote source = engine.fillCopy empty records := by
        simp only [promote, opened, scanned]
      rw [promoted]
      cases filled : records.foldlM FileTable.write empty with
      | error e => exact .inr ⟨e, by rw [fillCopy, filled]⟩
      | ok copy =>
        have copyOf : (Table.disk empty).id = source.id := (of_openCopy opened).2.2.id
        refine .inl ⟨.disk copy, by rw [fillCopy, filled]; rfl, ?_⟩
        exact (FileTable.id_of_foldlM_write filled).trans copyOf

/-! ### Many calls -/

/-- What an engine can be asked for. The table to promote may come from anywhere. -/
inductive Task where
  | create (spec : TableSpec)
  | promote (source : Table)

def Task.isCreate : Task → Bool
  | create _ => true
  | promote _ => false

/-- A call on an engine, with the directories that exist when it is made. The machine's own is the
one without a name; where the configured one is missing, no file can be made. -/
structure Job where
  hasDirectory : Option String → Bool
  task : Task

/-- Makes a call. -/
def perform (job : Job) (engine : Engine) : Except (Failure StorageError) Table × Engine :=
  let engine := { engine with hasDirectory := job.hasDirectory }
  match job.task with
  | .create spec => engine.create spec
  | .promote source =>
    let (answer, engine) := engine.promote source
    (answer.mapError .refused, engine)

/-- A call and its answer. -/
structure Entry where
  job : Job
  answer : Except (Failure StorageError) Table

/-- The table that a creation has made. -/
def Entry.created? (entry : Entry) : Option Table :=
  if entry.job.task.isCreate then entry.answer.toOption else none

/-- The copy that a promotion has made. -/
def Entry.copy? (entry : Entry) : Option Table :=
  if entry.job.task.isCreate then none else entry.answer.toOption

/-- The engine after some calls. -/
def work (jobs : List Job) (engine : Engine) : Engine :=
  jobs.foldl (fun engine job => (perform job engine).2) engine

/-- The calls that are made on an engine one after the other, each with its answer. -/
def log : List Job → Engine → List Entry
  | [], _ => []
  | job :: jobs, engine => ⟨job, (perform job engine).1⟩ :: log jobs (perform job engine).2

/-- How many creations are among some calls, failed ones included. -/
def creations (jobs : List Job) : Nat := jobs.countP fun job => job.task.isCreate

/-- The tables made by the creations in a log. -/
def created (entries : List Entry) : List Table := entries.filterMap Entry.created?

/-- The copies made by the promotions in a log. -/
def copies (entries : List Entry) : List Table := entries.filterMap Entry.copy?

theorem creations_append (front back : List Job) :
    creations (front ++ back) = creations front + creations back := List.countP_append

theorem creations_cons (job : Job) (jobs : List Job) :
    creations (job :: jobs) = creations [job] + creations jobs := creations_append [job] jobs

/-- The log has all the calls, in order. -/
theorem map_job_log (jobs : List Job) (engine : Engine) :
    (log jobs engine).map Entry.job = jobs := by
  induction jobs generalizing engine with
  | nil => rfl
  | cons job jobs ih => exact congrArg (job :: ·) (ih (perform job engine).2)

theorem created_append (front back : List Entry) :
    created (front ++ back) = created front ++ created back := List.filterMap_append

theorem copies_append (front back : List Entry) :
    copies (front ++ back) = copies front ++ copies back := List.filterMap_append

/-- How many of some tables are in a place. -/
def countIn (placement : Placement) (tables : List Table) : Nat :=
  tables.countP fun t => t.placement = placement

/-- What the fields of an engine say of the calls made on it so far. -/
structure Accounts (entries : List Entry) (engine : Engine) : Prop where
  nextId : engine.nextId.raw.toNat = creations (entries.map Entry.job) + 1
  memoryTables : engine.stats.memoryTables = countIn .memory (created entries)
  diskTables : engine.stats.diskTables = countIn .disk (created entries)
  promotions : engine.stats.promotions = (copies entries).length
  below : ∀ t ∈ created entries, t.id.raw.toNat < engine.nextId.raw.toNat
  distinct : (created entries).Pairwise fun first second => first.id ≠ second.id

namespace Accounts

variable {entries : List Entry} {engine : Engine}

theorem start (config : Config) (hasDirectory : Option String → Bool) :
    Accounts [] { config, hasDirectory } :=
  ⟨rfl, rfl, rfl, rfl, fun _ h => (nomatch h), .nil⟩

/-- The directories of the machine are no part of the accounts. -/
theorem onMachine (h : Accounts entries engine) (hasDirectory : Option String → Bool) :
    Accounts entries { engine with hasDirectory } :=
  ⟨h.nextId, h.memoryTables, h.diskTables, h.promotions, h.below, h.distinct⟩

/-- A call that fails counts nothing. -/
theorem failed (h : Accounts entries engine) (job : Job) (e : Failure StorageError) {next : Engine}
    (stats : next.stats = engine.stats)
    (number : next.nextId.raw.toNat = engine.nextId.raw.toNat + creations [job]) :
    Accounts (entries ++ [⟨job, .error e⟩]) next := by
  have nothing : Entry.created? ⟨job, .error e⟩ = none ∧ Entry.copy? ⟨job, .error e⟩ = none := by
    constructor
    · exact ite_self none
    · exact ite_self none
  have tables : created (entries ++ [⟨job, .error e⟩]) = created entries := by
    simp [created, nothing.1]
  have moved : copies (entries ++ [⟨job, .error e⟩]) = copies entries := by
    simp [copies, nothing.2]
  refine ⟨?_, ?_, ?_, ?_, ?_, ?_⟩
  · rw [number, h.nextId, List.map_append, creations_append, Nat.add_right_comm]
    rfl
  · rw [stats, tables, h.memoryTables]
  · rw [stats, tables, h.diskTables]
  · rw [stats, moved, h.promotions]
  · rw [tables, number]
    exact fun t there => Nat.lt_add_right _ (h.below t there)
  · rw [tables]
    exact h.distinct

/-- A creation takes a number, and the table it makes is counted. -/
theorem create (h : Accounts entries engine) (hasDirectory : Option String → Bool)
    (spec : TableSpec) (few : engine.nextId.raw.toNat + 1 < 2 ^ 64) :
    Accounts (entries ++ [⟨⟨hasDirectory, .create spec⟩, (engine.create spec).1⟩])
      (engine.create spec).2 := by
  have taken : engine.nextId.next.raw.toNat = engine.nextId.raw.toNat + 1 :=
    TableId.toNat_next few
  rcases create_cases spec engine with ⟨t, made, id, -, -⟩ | ⟨e, failed, -⟩
  · rw [made]
    have tables : created (entries ++ [⟨⟨hasDirectory, .create spec⟩, .ok t⟩]) =
        created entries ++ [t] := created_append _ _
    have moved : copies (entries ++ [⟨⟨hasDirectory, .create spec⟩, .ok t⟩]) = copies entries :=
      (copies_append _ _).trans (List.append_nil _)
    have number : (engine.useId.countTable t.placement).nextId.raw.toNat =
        engine.nextId.raw.toNat + 1 := by
      cases t.placement <;> exact taken
    refine ⟨?_, ?_, ?_, ?_, ?_, ?_⟩
    · rw [number, h.nextId, List.map_append, creations_append]
      rfl
    · rw [tables, countIn, List.countP_append, ← countIn, ← h.memoryTables]
      cases place : t.placement <;> simp [countTable, useId, place]
    · rw [tables, countIn, List.countP_append, ← countIn, ← h.diskTables]
      cases place : t.placement <;> simp [countTable, useId, place]
    · rw [moved, ← h.promotions]
      cases t.placement <;> rfl
    · rw [tables, number]
      intro other there
      rcases List.mem_append.1 there with old | new
      · exact Nat.lt_succ_of_lt (h.below other old)
      · rw [List.mem_singleton.1 new, id]
        exact Nat.lt_succ_self _
    · rw [tables, List.pairwise_append]
      refine ⟨h.distinct, List.pairwise_singleton _ _, fun other old new there same => ?_⟩
      have before := h.below other old
      rw [same, List.mem_singleton.1 there, id] at before
      exact Nat.lt_irrefl _ before
  · rw [failed]
    exact h.failed ⟨hasDirectory, .create spec⟩ e rfl taken

/-- A promotion takes no number, and the copy it makes is counted. -/
theorem promote (h : Accounts entries engine) (hasDirectory : Option String → Bool)
    (source : Table) :
    Accounts (entries ++
        [⟨⟨hasDirectory, .promote source⟩, (engine.promote source).1.mapError .refused⟩])
      (engine.promote source).2 := by
  rcases promote_any source engine with ⟨copy, made, -⟩ | ⟨e, failed⟩
  · rw [made]
    change Accounts (entries ++ [⟨⟨hasDirectory, .promote source⟩, .ok copy⟩])
      engine.countPromotion
    have tables : created (entries ++ [⟨⟨hasDirectory, .promote source⟩, .ok copy⟩]) =
        created entries := (created_append _ _).trans (List.append_nil _)
    have moved : copies (entries ++ [⟨⟨hasDirectory, .promote source⟩, .ok copy⟩]) =
        copies entries ++ [copy] := copies_append _ _
    refine ⟨?_, ?_, ?_, ?_, ?_, ?_⟩
    · rw [List.map_append, creations_append]
      exact h.nextId
    · rw [tables]
      exact h.memoryTables
    · rw [tables]
      exact h.diskTables
    · rw [moved, List.length_append, ← h.promotions]
      rfl
    · rw [tables]
      exact h.below
    · rw [tables]
      exact h.distinct
  · rw [failed]
    exact h.failed ⟨hasDirectory, .promote source⟩ (.refused e) rfl rfl

theorem perform (h : Accounts entries engine) (job : Job)
    (few : creations (entries.map Entry.job) + creations [job] + 1 < 2 ^ 64) :
    Accounts (entries ++ [⟨job, (perform job engine).1⟩]) (perform job engine).2 := by
  obtain ⟨hasDirectory, task⟩ := job
  cases task with
  | create spec =>
    refine (h.onMachine hasDirectory).create hasDirectory spec ?_
    have number : engine.nextId.raw.toNat = _ := h.nextId
    rw [number]
    exact few
  | promote source => exact (h.onMachine hasDirectory).promote hasDirectory source

theorem work (h : Accounts entries engine) {jobs : List Job}
    (few : creations (entries.map Entry.job) + creations jobs + 1 < 2 ^ 64) :
    Accounts (entries ++ log jobs engine) (work jobs engine) := by
  induction jobs generalizing entries engine with
  | nil => exact (List.append_nil entries).symm ▸ h
  | cons job jobs ih =>
    rw [creations_cons, ← Nat.add_assoc] at few
    have next := h.perform job (by omega)
    have rest := ih next (by
      rw [List.map_append, creations_append]
      exact few)
    rw [List.append_assoc] at rest
    exact rest

end Accounts

/-- Calls change neither the configuration of an engine nor what it can do with it. -/
theorem config_work (jobs : List Job) (engine : Engine) :
    (work jobs engine).config = engine.config := by
  induction jobs generalizing engine with
  | nil => rfl
  | cons job jobs ih =>
    refine (ih _).trans ?_
    obtain ⟨hasDirectory, task⟩ := job
    cases task with
    | create spec => exact (create_spec spec { engine with hasDirectory }).1.config
    | promote source =>
      rcases promote_any source { engine with hasDirectory } with ⟨copy, made, -⟩ | ⟨e, failed⟩
      · exact congrArg (Engine.config ∘ Prod.snd) made
      · exact congrArg (Engine.config ∘ Prod.snd) failed

/-- What a creation answers, and the number it takes. -/
theorem perform_create {job : Job} {spec : TableSpec} (creates : job.task = .create spec)
    (engine : Engine) :
    (perform job engine).2.nextId = engine.nextId.next ∧
      (∀ t, (perform job engine).1 = .ok t → t.id = engine.nextId ∧ t.spec = spec ∧
        (t.placement = .disk ↔ BelongsOnDisk engine.config spec)) ∧
      ∀ e, (perform job engine).1 = .error e → e = .overflow .sum ∨ ∃ cause : StorageError,
        e = .refused (.outOfResources
          s!"cannot create on-disk table {engine.nextId.name}: {cause.message}") := by
  obtain ⟨hasDirectory, task⟩ := job
  obtain rfl : task = .create spec := creates
  rcases create_cases spec { engine with hasDirectory } with ⟨t, made, facts⟩ | ⟨e, failed, cause⟩
  · have performed : perform ⟨hasDirectory, .create spec⟩ engine = _ := made
    rw [performed]
    refine ⟨by cases t.placement <;> rfl, ?_, fun e failed => nomatch failed⟩
    rintro _ ⟨⟩
    exact facts
  · have performed : perform ⟨hasDirectory, .create spec⟩ engine = _ := failed
    rw [performed]
    refine ⟨rfl, fun t made => (nomatch made), ?_⟩
    rintro _ ⟨⟩
    exact cause

/-- What a promotion answers; it takes no number. -/
theorem perform_promote {job : Job} {source : Table} (promotes : job.task = .promote source)
    (engine : Engine) :
    (perform job engine).2.nextId = engine.nextId ∧
      ∀ copy, (perform job engine).1 = .ok copy → copy.id = source.id := by
  obtain ⟨hasDirectory, task⟩ := job
  obtain rfl : task = .promote source := promotes
  have performed : perform ⟨hasDirectory, .promote source⟩ engine =
      ((Engine.promote source { engine with hasDirectory }).1.mapError .refused,
        (Engine.promote source { engine with hasDirectory }).2) := rfl
  rcases promote_any source { engine with hasDirectory } with ⟨copy, made, id⟩ | ⟨e, failed⟩
  · rw [performed, made]
    refine ⟨rfl, ?_⟩
    rintro _ ⟨⟩
    exact id
  · rw [performed, failed]
    exact ⟨rfl, fun copy made => nomatch made⟩

/-- Over any calls on a new engine, in any order and with any answers, each creation takes the
number of creations so far, and the next one another also where it failed; a table it makes has that
number, and is on disk exactly where its description or its width demands that. Tables of different
creations differ in number, while a promotion takes no number and its copy has that of the source.
The counters are the numbers of tables created in either place and of copies made. -/
theorem accounts_run (config : Config) (hasDirectory : Option String → Bool) (jobs : List Job)
    (few : creations jobs < 2 ^ 64 - 1) :
    let start : Engine := { config, hasDirectory }
    let entries := log jobs start
    let last := work jobs start
    (∀ front job back, jobs = front ++ job :: back →
      let before := work front start
      let answer := (perform job before).1
      let after := (perform job before).2
      before.nextId.raw.toNat = creations front + 1 ∧
      (∀ spec, job.task = .create spec →
        after.nextId.raw.toNat = creations front + 2 ∧
        (∀ t, answer = .ok t → t.id = before.nextId ∧ t.spec = spec ∧
          (t.placement = .disk ↔ spec.forceOnDisk = true ∨ spec.hasBlobs = true ∨
            config.memoryLimit < spec.recordWidth + rowOverhead)) ∧
        ∀ e, answer = .error e → e = .overflow .sum ∨ ∃ cause : StorageError,
          e = .refused (.outOfResources
            s!"cannot create on-disk table {before.nextId.name}: {cause.message}")) ∧
      ∀ source, job.task = .promote source →
        after.nextId = before.nextId ∧ ∀ copy, answer = .ok copy → copy.id = source.id) ∧
    (created entries).Pairwise (fun first second => first.id ≠ second.id) ∧
    last.stats.memoryTables = countIn .memory (created entries) ∧
    last.stats.diskTables = countIn .disk (created entries) ∧
    last.stats.promotions = (copies entries).length := by
  intro start entries last
  have kept {front : List Job} (h : creations front + 1 < 2 ^ 64) :
      Accounts (log front start) (work front start) := by
    have none : creations ([].map Entry.job) + creations front + 1 < 2 ^ 64 := by
      rw [List.map_nil, show creations [] = 0 from rfl, Nat.zero_add]
      exact h
    exact (Accounts.start config hasDirectory).work none
  have accounts : Accounts entries last := kept (by omega)
  refine ⟨fun front job back split => ?_, accounts.distinct, accounts.memoryTables,
    accounts.diskTables, accounts.promotions⟩
  intro before answer after
  rw [split, creations_append, creations_cons] at few
  have reached : Accounts (log front start) before := kept (by omega)
  have number : before.nextId.raw.toNat = creations front + 1 := by
    rw [← map_job_log front start]
    exact reached.nextId
  have same : before.config = config := config_work front start
  refine ⟨number, fun spec creates => ?_, fun source promotes => ?_⟩
  · obtain ⟨taken, made, failed⟩ := perform_create creates before
    have one : creations [job] = 1 := by simp [creations, creates, Task.isCreate]
    refine ⟨?_, fun t h => same ▸ made t h, failed⟩
    rw [taken, TableId.toNat_next (by omega), number]
  · exact perform_promote promotes before

/-- Where no directory is there, a creation fails and its number is not given out again; a table
that is on disk already is not moved, and only what succeeds is counted. -/
theorem accounts_run_no_directory :
    let config : Config := { directory := some "spill" }
    let missing : Option String → Bool := fun _ => false
    let there : Option String → Bool := fun _ => true
    let spec : TableSpec := { name := "t", columns := 1 }
    let forced : TableSpec := { name := "t", columns := 1, forceOnDisk := true }
    let file : Table := .disk (FileTable.new ⟨7⟩ spec config)
    let held : Table := .memory (MemoryTable.new ⟨9⟩ spec config)
    let front : List Job := [⟨missing, .create forced⟩, ⟨missing, .create spec⟩,
      ⟨there, .promote file⟩]
    let jobs : List Job := front ++ ⟨there, .create forced⟩ :: [⟨there, .promote held⟩]
    let start : Engine := { config, hasDirectory := there }
    creations jobs < 2 ^ 64 - 1 ∧
    (work front start).nextId.raw.toNat = 3 ∧
    (created (log jobs start)).map Table.id = [⟨2⟩, ⟨3⟩] ∧
    (copies (log jobs start)).map Table.id = [⟨9⟩] ∧
    (work jobs start).stats.memoryTables = 1 ∧
    (work jobs start).stats.diskTables = 1 ∧
    (work jobs start).stats.promotions = 1 := by
  intro config missing there spec forced file held front jobs start
  have few : creations jobs < 2 ^ 64 - 1 := by decide
  obtain ⟨calls, -, memoryTables, diskTables, promotions⟩ := accounts_run config there jobs few
  obtain ⟨number, -⟩ := calls front ⟨there, .create forced⟩ [⟨there, .promote held⟩] rfl
  have made : (created (log jobs start)).map Table.id = [⟨2⟩, ⟨3⟩] := by rfl
  have moved : (copies (log jobs start)).map Table.id = [⟨9⟩] := by rfl
  exact ⟨few, number, made, moved, memoryTables, diskTables, promotions⟩

end Engine

end ResultSink
