import ResultSink.Sink.ResultTable

/-! The sink of a query expression with set operations. It takes the rows of the expression, stores
them in a result table and keeps them free of duplicates; one sink serves every execution of its
expression. An operation may fail, and then says what it leaves of the sink and the storage. -/

namespace ResultSink

/-- A sink. The row count is of the rows stored since the table was provisioned or emptied;
`eliminating` tells whether rows are looked up under a hash key. -/
structure Sink (τ : Type) where
  shape : Shape := {}
  table : Option (ResultTable τ) := none
  rowCount : Nat := 0
  eliminating : Bool := true

namespace Sink

variable {ω τ : Type}

/-- The answer of an operation, with the sink and the storage's world after it. -/
abbrev Answer (ω τ ε α : Type) := Except ε α × Sink τ × ω

def prepare (shape : Shape) (s : Sink τ) : Sink τ := { s with shape }

def strategy? (s : Sink τ) : Option Strategy := s.table.map fun t => t.plan.strategy

/-- The storage's table, once there is one. -/
def handle? (s : Sink τ) : Option τ := s.table.bind fun t => t.handle

/-- The sink with its table instantiated. -/
def withHandle (s : Sink τ) (plan : Plan) (t : τ) : Sink τ :=
  { s with table := some { plan, handle := some t } }

/-- Provisions a table, and instantiates it if the request says so. -/
def create (storage : Storage ω τ) (request : TableRequest) (s : Sink τ) (w : ω) :
    Answer ω τ (Failure SinkError) Unit :=
  match s.table with
  | some _ => (.error (.refused (.alreadyProvisioned request.name)), s, w)
  | none =>
    let plan := Plan.resolve request s.shape
    let fresh : Sink τ := { shape := s.shape, table := some { plan } }
    if plan.instantiate then
      match plan.allocate storage w with
      | (.ok t, w) => (.ok (), fresh.withHandle plan t, w)
      | (.error e, w) => (.error e, s, w)
    else (.ok (), fresh, w)

/-- Instantiates a table that was provisioned without. -/
def instantiate (storage : Storage ω τ) (s : Sink τ) (w : ω) :
    Answer ω τ (Failure SinkError) Unit :=
  match s.table with
  | none => (.error (.refused .noTable), s, w)
  | some ⟨plan, some _⟩ => (.error (.refused (.alreadyInstantiated plan.name)), s, w)
  | some ⟨plan, none⟩ =>
    match plan.allocate storage w with
    | (.ok t, w) => (.ok (), s.withHandle plan t, w)
    | (.error e, w) => (.error e, s, w)

/-- Drops the table, so that another can be provisioned. -/
def free (s : Sink τ) : Sink τ := { shape := s.shape }

/-- Stores one row. The row is projected first, so that a value that does not fit is told apart
from a table that is not there. -/
def insert (storage : Storage ω τ) (row : Row) (s : Sink τ) (w : ω) :
    Answer ω τ (Failure SinkError) InsertOutcome :=
  match s.table with
  | none => (.error (.refused .noTable), s, w)
  | some ⟨plan, handle⟩ =>
    match plan.project row with
    | .error e => (.error e, s, w)
    | .ok payload =>
      match handle with
      | none => (.error (.refused (.notInstantiated plan.name)), s, w)
      | some t =>
        match plan.insert storage s.eliminating payload t w with
        | (.error e, t, w) => (.error (.refused e), s.withHandle plan t, w)
        | (.ok .duplicateRejected, t, w) => (.ok .duplicateRejected, s.withHandle plan t, w)
        | (.ok .inserted, t, w) =>
          (.ok .inserted, { s.withHandle plan t with rowCount := s.rowCount + 1 }, w)

/-- Switches the elimination of duplicates on or off for the rows that follow. A unique key cannot
be switched off. -/
def setEliminating (on : Bool) (s : Sink τ) : Except SinkError Unit × Sink τ :=
  if !on && s.strategy? = some .uniqueKey then (.error .keyCannotBeDisabled, s)
  else (.ok (), { s with eliminating := on })

/-- Empties the table and starts over, elimination switched on. -/
def reset (storage : Storage ω τ) (s : Sink τ) (w : ω) : Answer ω τ SinkError Unit :=
  let s := { s with rowCount := 0, eliminating := true }
  match s.table with
  | some ⟨plan, some t⟩ =>
    match plan.clear storage t w with
    | (answer, t, w) => (answer, s.withHandle plan t, w)
  | _ => (.ok (), s, w)

/-- Resets the sink and lets go of any error. -/
def cleanup (storage : Storage ω τ) (s : Sink τ) (w : ω) : Sink τ × ω :=
  let (_, s, w) := s.reset storage w
  (s, w)

/-- All stored rows, in the order in which the table is read. -/
def rows (storage : Storage ω τ) (s : Sink τ) (w : ω) : Answer ω τ SinkError (List Row) :=
  match s.table with
  | none => (.error .noTable, s, w)
  | some ⟨plan, none⟩ => (.error (.notInstantiated plan.name), s, w)
  | some ⟨plan, some t⟩ =>
    match plan.rows storage t w with
    | (answer, t, w) => (answer, s.withHandle plan t, w)

end Sink

end ResultSink
