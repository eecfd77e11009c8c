import ResultSink.Json.Fields
import ResultSink.Json.Reader

/-! Identifiers of tables and of the rows of a table. In JSON either is a number of 64 bits. -/

namespace ResultSink

/-- The number of a table, in 64 bits. -/
structure TableId where
  raw : UInt64
  deriving DecidableEq

namespace TableId

def first : TableId := ⟨1⟩

/-- The number after this one; the greatest number is its own successor. -/
def next (id : TableId) : TableId :=
  if id.raw.toNat + 1 < 2 ^ 64 then ⟨id.raw + 1⟩ else id

/-- The name of a table that has no other. -/
def name (id : TableId) : String := s!"#tmp{id.raw.toNat}"

def debugText (id : TableId) : String := s!"TableId({id.raw.toNat})"

def order (a b : TableId) : Ordering := compare a.raw.toNat b.raw.toNat

def json (id : TableId) : Json := .whole id.raw.toNat

def read? (s : String) : Option TableId :=
  (Json.read? s >>= Json.natBelow? (2 ^ 64)).map fun n => ⟨UInt64.ofNat n⟩

end TableId

/-- The position of a row in its table, counted from zero. -/
structure RowId where
  index : Nat
  deriving DecidableEq

namespace RowId

def debugText (id : RowId) : String := s!"RowId({id.index})"

def order (a b : RowId) : Ordering := compare a.index b.index

def json (id : RowId) : Json := .whole id.index

def read? (s : String) : Option RowId :=
  (Json.read? s >>= Json.natBelow? (2 ^ 64)).map RowId.mk

end RowId

end ResultSink
