/-! What a table is asked to be: its key, where it may be kept, and how wide its records are. -/

namespace ResultSink

/-- How a table tells duplicates: not at all, by a unique key over the whole record, or by an index
over a hash at the end of the record, which is not unique. -/
inductive Key where
  | none
  | unique
  | hash
  deriving DecidableEq

/-- The records of the table end with a hash. -/
def Key.hasHash : Key → Bool
  | .hash => true
  | _ => false

inductive Placement where
  | memory
  | disk
  deriving DecidableEq

def Placement.name : Placement → String
  | .memory => "in-memory"
  | .disk => "on-disk"

structure TableSpec where
  name : String
  key : Key := .none
  columns : Nat
  recordWidth : Nat := 0
  hasBlobs : Bool := false
  forceOnDisk : Bool := false
  deriving DecidableEq

/-- The table is never kept in memory. -/
def TableSpec.requiresDisk (spec : TableSpec) : Bool :=
  spec.forceOnDisk || spec.hasBlobs

end ResultSink
