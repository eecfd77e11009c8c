import ResultSink.Value.Order

/-! Rows of values. -/

namespace ResultSink

/-- A row: its values in column order. -/
abbrev Row := List Value

namespace Row

def nulls (columns : Nat) : Row := List.replicate columns .null

def text (r : Row) : String :=
  "(" ++ String.intercalate ", " (r.map Value.text) ++ ")"

/-- Rows are equal if they have the same length and equal values. -/
def equals : Row → Row → Bool
  | [], [] => true
  | a :: r, b :: s => a.equals b && equals r s
  | _, _ => false

/-- The order of rows: by the first pair of values that differ, and a shorter row before the rows
it begins. -/
def order (r s : Row) : Ordering := List.compareLex Value.order r s

/-- The bytes that a hasher is fed for a row: its length and then its values. -/
def hashed (r : Row) : List UInt8 :=
  littleEndian 8 r.length ++ r.flatMap Value.hashed

end Row

end ResultSink
