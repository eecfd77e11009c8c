import ResultSink.Storage.Table

/-! Runs of a table: operations as data, what each answers, and the table after many. -/

namespace ResultSink.Table

/-- An empty table in a place, for a configuration. -/
def new (placement : Placement) (id : TableId) (spec : TableSpec) (config : Config) : Table :=
  match placement with
  | .memory => memory (MemoryTable.new id spec config)
  | .disk => disk (FileTable.new id spec config)

inductive Op where
  | write (record : Record)
  | openIndex
  | closeIndex
  | readHash (hash : UInt64)
  | setIgnoresDuplicates (ignore : Bool)
  | clear
  | scan

/-- What an operation answers when it succeeds. -/
inductive Reply where
  | done
  | records (records : List Record)

/-- A change of a table that may be refused, and then leaves it. -/
def change (answer : Except StorageError Table) (t : Table) : Except StorageError Reply × Table :=
  match answer with
  | .ok next => (.ok .done, next)
  | .error e => (.error e, t)

def step (op : Op) (t : Table) : Except StorageError Reply × Table :=
  match op with
  | .write record => change (t.write record) t
  | .openIndex => change t.openIndex t
  | .closeIndex => (.ok .done, t.closeIndex)
  | .readHash hash => ((t.readHash hash).map .records, t)
  | .setIgnoresDuplicates ignore => (.ok .done, t.setIgnoresDuplicates ignore)
  | .clear => (.ok .done, t.clear)
  | .scan => (t.scan.map .records, t)

/-- The table after a list of operations. -/
def run (ops : List Op) (t : Table) : Table := ops.foldl (fun t op => (step op t).2) t

end ResultSink.Table
