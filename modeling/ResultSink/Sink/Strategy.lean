import ResultSink.Storage.Spec

/-! How a result is kept free of duplicates. -/

namespace ResultSink

/-- The facts about a query expression that bear on duplicates. -/
structure Shape where
  recursive : Bool := false
  mixed : Bool := false
  deriving DecidableEq

/-- Every row is kept; or a unique key of the table rejects duplicates; or each row is looked up by
a hidden hash before it is written. -/
inductive Strategy where
  | keepAll
  | uniqueKey
  | hashKey
  deriving DecidableEq

namespace Strategy

/-- The strategy for an expression. A unique key may return rows in key order, which a recursive
expression cannot take, and cannot be switched off for the ALL branches of a mixed one. -/
def select (distinct : Bool) (shape : Shape) : Strategy :=
  if !distinct then keepAll
  else if shape.recursive || shape.mixed then hashKey
  else uniqueKey

def key : Strategy → Key
  | keepAll => .none
  | uniqueKey => .unique
  | hashKey => .hash

/-- Whether rows are kept free of duplicates at all. -/
def eliminates : Strategy → Bool
  | keepAll => false
  | _ => true

def name : Strategy → String
  | keepAll => "none"
  | uniqueKey => "unique key"
  | hashKey => "hash key"

end Strategy

end ResultSink
