import ResultSink.ErrorCode
import ResultSink.Storage.Spec

/-! Errors of the storage, their texts and codes, and how a caller has to react to one. -/

namespace ResultSink

inductive StorageError where
  | duplicateKey
  | tableFull (placement : Placement) (rows bytes : Nat)
  | recordTooLarge (size limit : Nat)
  | indexNotOpen
  | outOfResources (what : String)
  | corrupted (what : String)
  | notSupported (what : String)
  | badConfig (reason : String)
  | io (what : String)
  deriving DecidableEq

namespace StorageError

/-- A failure that the operating system reports in words of its own. -/
def system : StorageError := .io "<os>"

def message : StorageError → String
  | duplicateKey => "duplicate key"
  | tableFull placement rows bytes =>
    s!"{placement.name} table is full: {rows} rows, {bytes} bytes"
  | recordTooLarge size limit => s!"record too large: {size} bytes (max: {limit})"
  | indexNotOpen => "index not initialized"
  | outOfResources what => s!"out of resources: {what}"
  | corrupted what => s!"corrupted table data: {what}"
  | notSupported what => s!"operation not supported: {what}"
  | badConfig reason => s!"configuration error: {reason}"
  | io what => s!"I/O error: {what}"

def code : StorageError → ErrorCode
  | duplicateKey => .keyExists
  | tableFull .disk _ _ => .diskFull
  | tableFull .memory _ _ => .tableFull
  | recordTooLarge _ _ => .recordTooLarge
  | indexNotOpen => .indexNotInitialized
  | outOfResources _ => .outOfResources
  | corrupted _ => .corruption
  | notSupported _ => .notSupported
  | badConfig _ => .invalidArgument
  | io _ => .io

end StorageError

/-- How a caller has to react to an error: take it as an expected outcome, move the table to a
larger place, or give up. -/
inductive Reaction where
  | ignorable
  | capacityExceeded
  | other
  deriving DecidableEq

/-- The reaction to an error, given whether duplicates are being ignored. -/
def Reaction.of (ignoresDuplicates : Bool) : StorageError → Reaction
  | .duplicateKey => if ignoresDuplicates then .ignorable else .other
  | .tableFull _ _ _ => .capacityExceeded
  | _ => .other

end ResultSink
