import ResultSink.Config
import ResultSink.Record.HashColumn
import ResultSink.Sink.Column
import ResultSink.Sink.Error
import ResultSink.Sink.Strategy
import ResultSink.Value.Cast

/-! The plan of a result table: its stored columns, where their values stand in an incoming row, and
how duplicates are told. A plan is resolved once, and a row is projected by it onto the record that
is stored. -/

namespace ResultSink

/-- The bytes of the column count that starts a record. -/
def recordHeaderWidth : Nat := 4

/-- Choices for the creation of a result table. -/
structure Options where
  forceOnDisk : Bool := false
  keyLimit : Nat := defaultKeyLimit
  deriving DecidableEq

def Options.ofConfig (config : Config) : Options := { keyLimit := config.keyLimit }

/-- How many columns hold large objects, and the estimated width of a record without its hash. -/
structure Sizing where
  blobs : Nat
  recordWidth : Nat
  deriving DecidableEq

def Sizing.of (columns : List Column) : Sizing where
  blobs := columns.countP fun c => c.dataType.isBlob
  recordWidth := columns.foldr (fun c width => c.dataType.encodedWidth + width) recordHeaderWidth

structure TableRequest where
  columns : List Column
  distinct : Bool
  options : Options := {}
  name : String
  bitsAsLong : Bool := false
  instantiate : Bool := true
  deriving DecidableEq

/-- A resolved request. Each stored column comes with its position in an incoming row. -/
structure Plan where
  name : String
  stored : List (Nat × Column)
  sourceWidth : Nat
  instantiate : Bool
  forceOnDisk : Bool
  strategy : Strategy
  deriving DecidableEq

namespace Plan

/-- The stored columns of a select list with their positions. -/
def storedColumns (bitsAsLong : Bool) (columns : List Column) : List (Nat × Column) :=
  (columns.zipIdx.filter fun c => !c.1.isHidden).map fun c => (c.2, c.1.stored bitsAsLong)

/-- The strategy for stored columns: a unique key covers no large object and no record wider than
its limit, and the hash key takes its place there. -/
def chooseStrategy (sizing : Sizing) (distinct : Bool) (shape : Shape) (options : Options) :
    Strategy :=
  let chosen := Strategy.select distinct shape
  if chosen = .uniqueKey ∧ (0 < sizing.blobs ∨ options.keyLimit < sizing.recordWidth) then .hashKey
  else chosen

/-- The plan of a request in an expression of a shape. -/
def resolve (request : TableRequest) (shape : Shape) : Plan :=
  let stored := storedColumns request.bitsAsLong request.columns
  { name := request.name
    stored
    sourceWidth := request.columns.length
    instantiate := request.instantiate
    forceOnDisk := request.options.forceOnDisk
    strategy := chooseStrategy (Sizing.of (stored.map Prod.snd)) request.distinct shape
      request.options }

def columns (plan : Plan) : List Column := plan.stored.map Prod.snd

def sizing (plan : Plan) : Sizing := Sizing.of plan.columns

/-- What the storage is asked for. A record under a hash key is wider by its hash. -/
def tableSpec (plan : Plan) : TableSpec where
  name := plan.name
  key := plan.strategy.key
  columns := plan.stored.length
  recordWidth := plan.sizing.recordWidth + if plan.strategy.key.hasHash then hashWidth else 0
  hasBlobs := 0 < plan.sizing.blobs
  forceOnDisk := plan.forceOnDisk

/-- The value of one stored column, cast to the column's type. -/
def projectColumn (row : Row) (position : Nat) (column : Column) :
    Except (Failure SinkError) Value :=
  match (row[position]?.getD .null).cast column.dataType with
  | .error e => .error (e.map fun e => .projection column.name e.message)
  | .ok v =>
    if v.isNull && !column.nullable then
      .error (.refused (.projection column.name "column cannot be null"))
    else .ok v

/-- The values that are stored of an incoming row. -/
def projectValues (plan : Plan) (row : Row) : Except (Failure SinkError) Row :=
  if row.length ≠ plan.sourceWidth then
    .error (.refused (.projection "*" s!"expected {plan.sourceWidth} values, got {row.length}"))
  else plan.stored.mapM fun c => projectColumn row c.1 c.2

/-- The payload that is stored of an incoming row. -/
def project (plan : Plan) (row : Row) : Except (Failure SinkError) Record :=
  (plan.projectValues row).map Row.encode

/-- The record of a payload: under a hash key, with its hash behind it. -/
def recordOf (plan : Plan) (payload : Record) : Record :=
  if plan.strategy = .hashKey then Record.appendHash payload (Record.hash payload) else payload

end Plan

end ResultSink
