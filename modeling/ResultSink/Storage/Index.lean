import ResultSink.Ids
import ResultSink.Record.HashColumn

/-! The index of a table. Under a unique key it maps each record to its row, in the order of the
records; under a hash key it maps each hash to the rows that carry it, in the order they were
written. Only the part that the key asks for is ever filled. -/

namespace ResultSink

/-- The index of a table with a key. Lookups by hash are answered only while it is open. -/
structure TableIndex where
  key : Key
  unique : List (Record × RowId) := []
  hashed : List (UInt64 × List RowId) := []
  isOpen : Bool := false
  deriving DecidableEq

/-- The entries with one more, put in front of the first whose record is not before it. -/
def insertByRecord (record : Record) (row : RowId) :
    List (Record × RowId) → List (Record × RowId)
  | [] => [(record, row)]
  | entry :: entries =>
    match compareBytes record entry.1 with
    | .gt => entry :: insertByRecord record row entries
    | .eq => (record, row) :: entries
    | .lt => (record, row) :: entry :: entries

/-- The entries with a row added behind the rows of its hash. -/
def insertByHash (hash : UInt64) (row : RowId) :
    List (UInt64 × List RowId) → List (UInt64 × List RowId)
  | [] => [(hash, [row])]
  | entry :: entries =>
    if entry.1 = hash then (hash, entry.2 ++ [row]) :: entries
    else entry :: insertByHash hash row entries

/-- Only the rows of the one hash change, by the new row at their end. -/
theorem lookup_insertByHash (hash other : UInt64) (row : RowId)
    (entries : List (UInt64 × List RowId)) :
    ((insertByHash hash row entries).lookup other).getD [] =
      if other = hash then (entries.lookup hash).getD [] ++ [row]
      else (entries.lookup other).getD [] := by
  induction entries with
  | nil =>
    by_cases h : other = hash
    · simp [insertByHash, h]
    · have test : (other == hash) = false := beq_eq_false_iff_ne.2 h
      simp [insertByHash, List.lookup_cons, h, test]
  | cons entry entries ih =>
    obtain ⟨key, rows⟩ := entry
    by_cases hk : key = hash
    · subst hk
      by_cases h : other = key
      · simp [insertByHash, h]
      · have test : (other == key) = false := beq_eq_false_iff_ne.2 h
        simp [insertByHash, List.lookup_cons, h, test]
    · by_cases ho : other = key
      · subst ho
        simp [insertByHash, hk]
      · have test : (other == key) = false := beq_eq_false_iff_ne.2 ho
        have skip : (hash == key) = false := beq_eq_false_iff_ne.2 (Ne.symm hk)
        simp only [insertByHash, if_neg hk, List.lookup_cons, test, skip]
        exact ih

namespace TableIndex

def holds (index : TableIndex) (record : Record) : Bool :=
  index.unique.any fun entry => entry.1 = record

/-- Refuses a record that the unique key holds already, and one that lacks its hash. -/
def check (index : TableIndex) (record : Record) : Except StorageError Unit :=
  match index.key with
  | .none => .ok ()
  | .unique => if index.holds record then .error .duplicateKey else .ok ()
  | .hash => (Record.splitHash record).map fun _ => ()

/-- The index with the row of a record that has been checked. -/
def add (index : TableIndex) (record : Record) (row : RowId) : Except StorageError TableIndex :=
  match index.key with
  | .none => .ok index
  | .unique => .ok { index with unique := insertByRecord record row index.unique }
  | .hash =>
    (Record.splitHash record).map fun (_, hash) =>
      { index with hashed := insertByHash hash row index.hashed }

/-- Opens the index for lookups, which only a hash key has. -/
def openLookups (index : TableIndex) : Except StorageError TableIndex :=
  if index.key = .hash then .ok { index with isOpen := true }
  else .error (.notSupported "index_init on a table without a hash index")

def close (index : TableIndex) : TableIndex := { index with isOpen := false }

def rowsOf (index : TableIndex) (hash : UInt64) : Except StorageError (List RowId) :=
  if index.isOpen then .ok ((index.hashed.lookup hash).getD []) else .error .indexNotOpen

/-- The rows in the order of their records, under a unique key. -/
def keyOrder? (index : TableIndex) : Option (List RowId) :=
  if index.key = .unique then some (index.unique.map Prod.snd) else none

/-- The index without entries, open or closed as before. -/
def clear (index : TableIndex) : TableIndex := { index with unique := [], hashed := [] }

end TableIndex

end ResultSink
