import ResultSink.Storage.FileTable
import ResultSink.Storage.MemoryTable

/-! Tables in either place, under one set of operations. -/

namespace ResultSink

inductive Table where
  | memory (t : MemoryTable)
  | disk (t : FileTable)
  deriving DecidableEq

namespace Table

def id : Table → TableId
  | memory t => t.id
  | disk t => t.id

def spec : Table → TableSpec
  | memory t => t.spec
  | disk t => t.spec

def placement : Table → Placement
  | memory _ => .memory
  | disk _ => .disk

def index : Table → TableIndex
  | memory t => t.index
  | disk t => t.index

def rowCount : Table → Nat
  | memory t => t.rows.size
  | disk t => t.offsets.size

def dataBytes : Table → Nat
  | memory t => t.dataBytes
  | disk t => t.dataBytes

def ignoresDuplicates : Table → Bool
  | memory t => t.ignoresDuplicates
  | disk t => t.ignoresDuplicates

def setIgnoresDuplicates (ignore : Bool) : Table → Table
  | memory t => memory { t with ignoresDuplicates := ignore }
  | disk t => disk { t with ignoresDuplicates := ignore }

def withIndex (index : TableIndex) : Table → Table
  | memory t => memory { t with index }
  | disk t => disk { t with index }

def write (record : Record) : Table → Except StorageError Table
  | memory t => (t.write record).map memory
  | disk t => (t.write record).map disk

def openIndex (t : Table) : Except StorageError Table :=
  t.index.openLookups.map t.withIndex

def closeIndex (t : Table) : Table := t.withIndex t.index.close

/-- The records that end with a hash, in the order they were written. -/
def readHash (hash : UInt64) : Table → Except StorageError (List Record)
  | memory t => t.readHash hash
  | disk t => t.readHash hash

/-- All records, in the order in which the table is read. -/
def scan : Table → Except StorageError (List Record)
  | memory t => t.scan
  | disk t => t.scan

def clear : Table → Table
  | memory t => memory t.clear
  | disk t => disk t.clear

def reaction (t : Table) (e : StorageError) : Reaction := Reaction.of t.ignoresDuplicates e

end Table

end ResultSink
