import ResultSink.Config
import ResultSink.Storage.Index

/-! A table in memory. Rows are kept in the order they were written. Room is checked before the key,
so that a full table says so also of a record it holds. -/

namespace ResultSink

/-- A table in memory. The bytes used count each record with its overhead. -/
structure MemoryTable where
  id : TableId
  spec : TableSpec
  rows : Array Record := #[]
  usedBytes : Nat := 0
  dataBytes : Nat := 0
  byteLimit : Nat
  rowLimit : Option Nat
  index : TableIndex
  ignoresDuplicates : Bool := false
  deriving DecidableEq

namespace MemoryTable

def new (id : TableId) (spec : TableSpec) (config : Config) : MemoryTable :=
  { id, spec, byteLimit := config.memoryLimit, rowLimit := config.memoryRows,
    index := { key := spec.key } }

def hasRoom (t : MemoryTable) (size : Nat) : Bool :=
  (t.rowLimit.all fun limit => t.rows.size < limit) &&
    t.usedBytes + size + rowOverhead ≤ t.byteLimit

def read (t : MemoryTable) (row : RowId) : Except StorageError Record :=
  match t.rows[row.index]? with
  | some record => .ok record
  | none => .error (.corrupted s!"dangling index entry {row.debugText}")

def write (t : MemoryTable) (record : Record) : Except StorageError MemoryTable :=
  if maxRecordSize < record.size then .error (.recordTooLarge record.size maxRecordSize)
  else if !t.hasRoom record.size then .error (.tableFull .memory t.rows.size t.dataBytes)
  else do
    t.index.check record
    let index ← t.index.add record ⟨t.rows.size⟩
    return { t with
      rows := t.rows.push record
      usedBytes := t.usedBytes + (record.size + rowOverhead)
      dataBytes := t.dataBytes + record.size
      index }

/-- The records that end with a hash, in the order they were written. -/
def readHash (t : MemoryTable) (hash : UInt64) : Except StorageError (List Record) := do
  (← t.index.rowsOf hash).mapM t.read

/-- All records, in the order they were written. -/
def scan (t : MemoryTable) : Except StorageError (List Record) := .ok t.rows.toList

/-- The table without rows; its flags and the state of its index stay. -/
def clear (t : MemoryTable) : MemoryTable :=
  { t with rows := #[], usedBytes := 0, dataBytes := 0, index := t.index.clear }

end MemoryTable

end ResultSink
