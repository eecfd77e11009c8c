import ResultSink.Storage.Interface

/-! A storage that fails on demand. A plan of faults says which calls fail, counted by the kind of
call from the first on, and what they answer instead; a call that a fault replaces has no effect. -/

namespace ResultSink

/-- The kinds of call that a fault can replace. -/
inductive CallKind where
  | create
  | promote
  | write
  | openIndex
  | readHash
  | clear
  | scan
  deriving DecidableEq

/-- What a replaced call answers: an error, or records that it did not read. -/
inductive FaultAnswer where
  | error (e : StorageError)
  | records (rs : List Record)

/-- A fault at one call of a kind, or at all of them. -/
structure Fault where
  kind : CallKind
  number : Option Nat
  answer : FaultAnswer

/-- An engine with a plan of faults and the calls made so far. -/
structure FaultyEngine where
  engine : Engine
  plan : List Fault
  calls : List CallKind := []

namespace FaultyEngine

def count (w : FaultyEngine) (kind : CallKind) : Nat := w.calls.count kind

/-- Notes a call and finds the first fault that replaces it. -/
def meet (kind : CallKind) (w : FaultyEngine) : Option FaultAnswer × FaultyEngine :=
  let w := { w with calls := kind :: w.calls }
  let fault := w.plan.find? fun f => f.kind = kind ∧ f.number.all (· = w.count kind)
  (fault.map Fault.answer, w)

/-- The call of an engine's storage in the world of faults. -/
def lift {α : Type} (call : TableCall Engine Table α) : TableCall FaultyEngine Table α :=
  fun t w =>
    let (answer, t, engine) := call t w.engine
    (answer, t, { w with engine })

/-- A call that answers nothing but success, unless a fault replaces it. -/
def guarded (kind : CallKind) (call : TableCall Engine Table Unit) :
    TableCall FaultyEngine Table Unit := fun t w =>
  match meet kind w with
  | (some (.error e), w) => (.error e, t, w)
  | (_, w) => lift call t w

/-- A call that answers records, unless a fault replaces it. -/
def guardedRecords (kind : CallKind) (call : TableCall Engine Table (List Record)) :
    TableCall FaultyEngine Table (List Record) := fun t w =>
  match meet kind w with
  | (some (.error e), w) => (.error e, t, w)
  | (some (.records rs), w) => (.ok rs, t, w)
  | (none, w) => lift call t w

def create (spec : TableSpec) (w : FaultyEngine) :
    Except (Failure StorageError) Table × FaultyEngine :=
  match meet .create w with
  | (some (.error e), w) => (.error (.refused e), w)
  | (_, w) =>
    let (answer, engine) := w.engine.create spec
    (answer, { w with engine })

def scan : TableCall FaultyEngine Table (List Record) :=
  guardedRecords .scan Engine.storage.scan

/-- Promotes a table, unless a fault replaces the call. The source is read by a scan, which a fault
can replace in its turn; the writes to the copy are not calls. -/
def promote : TableCall FaultyEngine Table Table := fun t w =>
  match meet .promote w with
  | (some (.error e), w) => (.error e, t, w)
  | (_, w) =>
    match w.engine.openCopy t with
    | .error e => (.error e, t, w)
    | .ok copy =>
      match scan t w with
      | (.error e, t, w) => (.error e, t, w)
      | (.ok records, t, w) =>
        let (answer, engine) := w.engine.fillCopy copy records
        (answer, t, { w with engine })

def storage : Storage FaultyEngine Table :=
  { create, promote, scan
    write := fun record => guarded .write (Engine.storage.write record)
    openIndex := guarded .openIndex Engine.storage.openIndex
    readHash := fun hash => guardedRecords .readHash (Engine.storage.readHash hash)
    clear := guarded .clear Engine.storage.clear
    ignoreDuplicates := Engine.storage.ignoreDuplicates
    spec := Engine.storage.spec
    placement := Engine.storage.placement
    reaction := Engine.storage.reaction
    isIgnorable := Engine.storage.isIgnorable }

end FaultyEngine

end ResultSink
