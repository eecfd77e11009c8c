import ResultSink.Overflow
import ResultSink.Storage.Table

/-! The engine that creates tables and moves them to disk. It gives every table it creates a number
of its own, also where the creation fails, and counts what succeeds. -/

namespace ResultSink

/-- How many tables were created in each place, and how many were moved to disk. -/
structure EngineStats where
  memoryTables : Nat := 0
  diskTables : Nat := 0
  promotions : Nat := 0
  deriving DecidableEq

/-- An engine, on a machine where files can be made in some directories. The machine's own directory
is the one without a name, and may be missing like any other. -/
structure Engine where
  config : Config
  hasDirectory : Option String → Bool
  nextId : TableId := .first
  stats : EngineStats := {}

namespace Engine

/-- A new engine, on a machine with its own directory unless that is said to be missing. -/
def new? (hasDirectory : String → Bool) (config : Config) (hasOwn : Bool := true) :
    Except StorageError Engine :=
  match config.error? with
  | some e => .error (.badConfig e.message)
  | none => .ok { config, hasDirectory := fun directory => directory.elim hasOwn hasDirectory }

/-- Whether a file can be made for a table, in the directory that is configured. -/
def canMakeFile (engine : Engine) : Bool := engine.hasDirectory engine.config.directory

def newMemoryTable (engine : Engine) (id : TableId) (spec : TableSpec) : MemoryTable :=
  MemoryTable.new id spec engine.config

def newFileTable (engine : Engine) (id : TableId) (spec : TableSpec) :
    Except StorageError FileTable :=
  if engine.canMakeFile then .ok (FileTable.new id spec engine.config) else .error .system

/-- The engine after the next table number has been given out. -/
def useId (engine : Engine) : Engine := { engine with nextId := engine.nextId.next }

/-- Whether one record of a width leaves no room in memory. The width with its overhead has to fit
in 64 bits. -/
def tooWide (engine : Engine) (spec : TableSpec) : Except Overflow Bool :=
  if 2 ^ 64 ≤ spec.recordWidth + rowOverhead then .error .sum
  else .ok (engine.config.memoryLimit < spec.recordWidth + rowOverhead)

/-- Where a table has to start. The width is looked at only if nothing else requires the disk. -/
def startsOnDisk (engine : Engine) (spec : TableSpec) : Except Overflow Bool :=
  if spec.requiresDisk then .ok true else engine.tooWide spec

def create (spec : TableSpec) (engine : Engine) :
    Except (Failure StorageError) Table × Engine :=
  let id := engine.nextId
  let engine := engine.useId
  match engine.startsOnDisk spec with
  | .error step => (.error (.overflow step), engine)
  | .ok false =>
    (.ok (.memory (engine.newMemoryTable id spec)),
      { engine with stats.memoryTables := engine.stats.memoryTables + 1 })
  | .ok true =>
    match engine.newFileTable id spec with
    | .error e =>
      (.error (.refused (.outOfResources
        s!"cannot create on-disk table {id.name}: {e.message}")), engine)
    | .ok t =>
      (.ok (.disk t), { engine with stats.diskTables := engine.stats.diskTables + 1 })

/-- The empty table in a file that a table is to be copied to. -/
def openCopy (engine : Engine) (source : Table) : Except StorageError FileTable :=
  match source.placement with
  | .disk => .error (.notSupported s!"table {source.id.name} is already on disk")
  | .memory =>
    (engine.newFileTable source.id source.spec).map fun copy =>
      { copy with ignoresDuplicates := source.ignoresDuplicates }

/-- Fills a copy with records and counts the promotion. -/
def fillCopy (copy : FileTable) (records : List Record) (engine : Engine) :
    Except StorageError Table × Engine :=
  match records.foldlM FileTable.write copy with
  | .error e => (.error e, engine)
  | .ok copy =>
    (.ok (.disk copy), { engine with stats.promotions := engine.stats.promotions + 1 })

/-- Copies a table from memory to a file. The copy has the number, the description and the handling
of duplicates of its source, and its index is closed; the source stays as it is. -/
def promote (source : Table) (engine : Engine) : Except StorageError Table × Engine :=
  match engine.openCopy source with
  | .error e => (.error e, engine)
  | .ok copy =>
    match source.scan with
    | .error e => (.error e, engine)
    | .ok records => engine.fillCopy copy records

end Engine

end ResultSink
