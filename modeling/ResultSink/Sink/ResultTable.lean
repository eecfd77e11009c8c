import ResultSink.Sink.Plan
import ResultSink.Storage.Interface

/-! Result tables: a plan and, once it is instantiated, a table of the storage. Moving a result to
disk replaces the table as a whole, and only when the new one is complete. -/

namespace ResultSink

structure ResultTable (τ : Type) where
  plan : Plan
  handle : Option τ := none

/-- What became of a row that was handed over. -/
inductive InsertOutcome where
  | inserted
  | duplicateRejected
  deriving DecidableEq

variable {ω τ : Type}

namespace Plan

/-- A failure of the storage, which ends the run of rows. -/
def fatal (plan : Plan) (e : StorageError) : SinkError := .storage plan.name e

/-- Makes the table of a plan in the storage. Duplicates are ignored, and the index of a hash key is
opened; a table whose index does not open is dropped. -/
def allocate (storage : Storage ω τ) (plan : Plan) (w : ω) : Except (Failure SinkError) τ × ω :=
  match storage.create plan.tableSpec w with
  | (.error e, w) => (.error (e.map (.allocation plan.name)), w)
  | (.ok t, w) =>
    let t := storage.ignoreDuplicates t
    if plan.strategy = .hashKey then
      match storage.openIndex t w with
      | (.ok (), t, w) => (.ok t, w)
      | (.error e, _, w) => (.error (.refused (.allocation plan.name e)), w)
    else (.ok t, w)

/-- Whether a payload is among records that end with a hash. A record too short for one is an error,
unless the payload was found before it. -/
def isAmong (payload : Record) : List Record → Except StorageError Bool
  | [] => .ok false
  | record :: records =>
    match Record.splitHash record with
    | .error e => .error e
    | .ok (found, _) => if found = payload then .ok true else isAmong payload records

/-- Whether a payload is stored, by a look-up of its hash. The bytes decide, and not the hash. -/
def contains (storage : Storage ω τ) (payload : Record) (hash : UInt64) (t : τ) (w : ω) :
    Except StorageError Bool × τ × ω :=
  match storage.readHash hash t w with
  | (.error e, t, w) => (.error e, t, w)
  | (.ok records, t, w) => (isAmong payload records, t, w)

/-- Moves a table to disk and, under a hash key, opens the index of the new table. The table that
comes back is the new one on success and else the old one. -/
def promote (storage : Storage ω τ) (t : τ) (w : ω) : Except StorageError Unit × τ × ω :=
  match storage.promote t w with
  | (.error e, t, w) => (.error e, t, w)
  | (.ok moved, t, w) =>
    if (storage.spec moved).key.hasHash then
      match storage.openIndex moved w with
      | (.ok (), moved, w) => (.ok (), moved, w)
      | (.error e, _, w) => (.error e, t, w)
    else (.ok (), moved, w)

/-- Writes a record again after a move. -/
def retry (storage : Storage ω τ) (plan : Plan) (record : Record) (t : τ) (w : ω) :
    Except SinkError InsertOutcome × τ × ω :=
  match storage.write record t w with
  | (.ok (), t, w) => (.ok .inserted, t, w)
  | (.error e, t, w) =>
    if storage.isIgnorable t e then (.ok .duplicateRejected, t, w)
    else (.error (plan.fatal e), t, w)

/-- Writes a record. A table that is full is moved to disk once, and the record written again. -/
def store (storage : Storage ω τ) (plan : Plan) (record : Record) (t : τ) (w : ω) :
    Except SinkError InsertOutcome × τ × ω :=
  match storage.write record t w with
  | (.ok (), t, w) => (.ok .inserted, t, w)
  | (.error e, t, w) =>
    match storage.reaction t e with
    | .ignorable => (.ok .duplicateRejected, t, w)
    | .other => (.error (plan.fatal e), t, w)
    | .capacityExceeded =>
      match promote storage t w with
      | (.error e, t, w) => (.error (plan.fatal e), t, w)
      | (.ok (), t, w) => retry storage plan record t w

/-- Stores a payload unless it is a duplicate. Under a hash key it is looked up first, if
`eliminating` says so. -/
def insert (storage : Storage ω τ) (plan : Plan) (eliminating : Bool) (payload : Record) (t : τ)
    (w : ω) : Except SinkError InsertOutcome × τ × ω :=
  if plan.strategy = .hashKey ∧ eliminating then
    match contains storage payload (Record.hash payload) t w with
    | (.error e, t, w) => (.error (plan.fatal e), t, w)
    | (.ok true, t, w) => (.ok .duplicateRejected, t, w)
    | (.ok false, t, w) => store storage plan (plan.recordOf payload) t w
  else store storage plan (plan.recordOf payload) t w

def readRecord (plan : Plan) (record : Record) : Except SinkError Row :=
  if plan.strategy = .hashKey then
    match Record.splitHash record with
    | .error e => .error (plan.fatal e)
    | .ok (payload, _) => (Row.decode payload).mapError .decode
  else (Row.decode record).mapError .decode

/-- All rows, in the order in which the table is read. -/
def rows (storage : Storage ω τ) (plan : Plan) (t : τ) (w : ω) :
    Except SinkError (List Row) × τ × ω :=
  match storage.scan t w with
  | (.error e, t, w) => (.error (plan.fatal e), t, w)
  | (.ok records, t, w) => (records.mapM plan.readRecord, t, w)

def clear (storage : Storage ω τ) (plan : Plan) (t : τ) (w : ω) : Except SinkError Unit × τ × ω :=
  match storage.clear t w with
  | (.error e, t, w) => (.error (plan.fatal e), t, w)
  | (.ok (), t, w) => (.ok (), t, w)

end Plan

end ResultSink
