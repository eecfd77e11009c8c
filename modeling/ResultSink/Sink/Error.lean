import ResultSink.Overflow
import ResultSink.Record.Decode
import ResultSink.Storage.Error

/-! Errors of a result sink. A rejected duplicate is none of them. -/

namespace ResultSink

/-- Why an operation of a sink failed. -/
inductive SinkError where
  | projection (column reason : String)
  | allocation (table : String) (source : StorageError)
  | storage (table : String) (source : StorageError)
  | invalidState (what : String)
  | decode (source : CodecError)
  deriving DecidableEq

namespace SinkError

def message : SinkError → String
  | projection column reason => s!"cannot store value in column '{column}': {reason}"
  | allocation table source => s!"cannot allocate result table '{table}': {source.message}"
  | storage table source => s!"storage failure on result table '{table}': {source.message}"
  | invalidState what => s!"invalid sink state: {what}"
  | decode source => s!"corrupt result record: {source.message}"

/-- The error of the storage behind an error, if there is one. -/
def source? : SinkError → Option StorageError
  | allocation _ source | storage _ source => some source
  | _ => none

/-- Only a value that cannot be stored leaves the run of rows intact. -/
def isFatal : SinkError → Bool
  | projection _ _ => false
  | _ => true

def code : SinkError → ErrorCode
  | projection _ _ => .typeMismatch
  | allocation _ source | storage _ source => source.code
  | invalidState _ => .invalidState
  | decode _ => .corruption

/-- An operation that needs a table came before one was provisioned. -/
def noTable : SinkError := invalidState "no result table provisioned"

/-- A table was to be provisioned while there is one. -/
def alreadyProvisioned (name : String) : SinkError :=
  invalidState s!"result table for '{name}' is already provisioned"

/-- A table was to be instantiated while it is. -/
def alreadyInstantiated (name : String) : SinkError :=
  invalidState s!"result table '{name}' is already instantiated"

/-- An operation that needs the storage of a table came before it was instantiated. -/
def notInstantiated (name : String) : SinkError :=
  invalidState s!"result table '{name}' is not instantiated"

/-- Elimination was to be switched off under a unique key. -/
def keyCannotBeDisabled : SinkError :=
  invalidState "a unique key cannot be disabled for part of the rows"

end SinkError

end ResultSink
