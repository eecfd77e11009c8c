import ResultSink.Config
import ResultSink.Storage.Index

/-! A table in a file. Each record is appended to the file after its length in four bytes; the
places where records begin, and the index, stay in memory. Under a unique key the table is read in
the order of its records, and otherwise in the order they were written. -/

namespace ResultSink

/-- A table in a file, given by the content of the file and the offset of each row in it. -/
structure FileTable where
  id : TableId
  spec : TableSpec
  file : ByteArray := .empty
  offsets : Array Nat := #[]
  dataBytes : Nat := 0
  sizeLimit : Option Nat
  index : TableIndex
  ignoresDuplicates : Bool := false
  deriving DecidableEq

namespace FileTable

def new (id : TableId) (spec : TableSpec) (config : Config) : FileTable :=
  { id, spec, sizeLimit := config.diskLimit, index := { key := spec.key } }

/-- The bytes of a record in the file: its length and the record. -/
def framed (record : Record) : ByteArray :=
  (littleEndian lengthWidth record.size).toByteArray ++ record

def hasRoom (t : FileTable) (size : Nat) : Bool :=
  t.sizeLimit.all fun limit => t.file.size + (lengthWidth + size) ≤ limit

/-- The record that begins at an offset of the file. -/
def readAt (t : FileTable) (offset : Nat) : Except StorageError Record :=
  let start := offset + lengthWidth
  if t.file.size < start then .error (.io "failed to fill whole buffer")
  else
    let size := ofLittleEndian (t.file.extract offset start).data.toList
    if t.file.size < start + size then
      .error (.corrupted s!"record at offset {offset} runs past end of file")
    else .ok (t.file.extract start (start + size))

@[simp] theorem size_framed (record : Record) :
    (framed record).size = lengthWidth + record.size := by
  simp [framed]

/-- A record that stands in the file after its length is read at the offset of its length. -/
theorem readAt_framed (t : FileTable) (record : Record) (before after : ByteArray)
    (hr : record.size < 2 ^ 32) (ht : t.file = before ++ (framed record ++ after)) :
    t.readAt before.size = .ok record := by
  let length := (littleEndian lengthWidth record.size).toByteArray
  have width : length.size = lengthWidth := by simp [length]
  have size : t.file.size = before.size + (lengthWidth + record.size + after.size) := by
    rw [ht, ByteArray.size_append, ByteArray.size_append, size_framed]
  have file : t.file = before ++ (length ++ (record ++ after)) := by
    rw [ht, framed, ByteArray.append_assoc]
  have front : t.file.extract before.size (before.size + lengthWidth) = length := by
    rw [file, ← width, extract_middle]
  have read : ofLittleEndian length.data.toList = record.size := by
    rw [List.data_toByteArray, ofLittleEndian_littleEndian]
    exact Nat.mod_eq_of_lt hr
  have back : t.file.extract (before.size + lengthWidth)
      (before.size + lengthWidth + record.size) = record := by
    have middle := extract_middle (before ++ length) record after
    rwa [ByteArray.size_append, width, ByteArray.append_assoc, ← file] at middle
  unfold readAt
  dsimp only
  rw [front, read, if_neg (by omega), if_neg (by omega), back]

def read (t : FileTable) (row : RowId) : Except StorageError Record :=
  match t.offsets[row.index]? with
  | some offset => t.readAt offset
  | none => .error (.corrupted s!"dangling index entry {row.debugText}")

def write (t : FileTable) (record : Record) : Except StorageError FileTable :=
  if maxRecordSize < record.size then .error (.recordTooLarge record.size maxRecordSize)
  else if !t.hasRoom record.size then .error (.tableFull .disk t.offsets.size t.dataBytes)
  else do
    t.index.check record
    let index ← t.index.add record ⟨t.offsets.size⟩
    return { t with
      file := t.file ++ framed record
      offsets := t.offsets.push t.file.size
      dataBytes := t.dataBytes + record.size
      index }

/-- The records that end with a hash, in the order they were written. -/
def readHash (t : FileTable) (hash : UInt64) : Except StorageError (List Record) := do
  (← t.index.rowsOf hash).mapM t.read

/-- The rows in the order in which the table is read. -/
def scanOrder (t : FileTable) : List RowId :=
  match t.index.keyOrder? with
  | some rows => rows
  | none => (List.range t.offsets.size).map RowId.mk

/-- All records, in the order in which the table is read. -/
def scan (t : FileTable) : Except StorageError (List Record) := t.scanOrder.mapM t.read

/-- The table without rows, its file empty; its flags and the state of its index stay. -/
def clear (t : FileTable) : FileTable :=
  { t with file := .empty, offsets := #[], dataBytes := 0, index := t.index.clear }

end FileTable

end ResultSink
