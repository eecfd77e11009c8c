/-! The types a column of a result can have, their names in SQL, and the width of an encoded value
as the storage estimates it. -/

namespace ResultSink

/-- The width assumed for the content of a value whose length is not declared. -/
def variableWidthEstimate : Nat := 255

inductive DataType where
  | boolean
  | tinyInt
  | smallInt
  | int
  | bigInt
  | float
  | double
  | decimal (precision scale : Option UInt8)
  | char (length : Option UInt32)
  | varchar (length : Option UInt32)
  | text
  | blob
  | date
  | time
  | timestamp
  | bit (width : UInt8)
  deriving DecidableEq

namespace DataType

/-- Large objects are kept out of native keys and out of memory. -/
def isBlob : DataType → Bool
  | text | blob => true
  | _ => false

def isBit : DataType → Bool
  | bit _ => true
  | _ => false

/-- The estimated width in bytes of an encoded value, its tag included. -/
def encodedWidth : DataType → Nat
  | boolean | tinyInt => 2
  | smallInt => 3
  | int | float | date => 5
  | bigInt | double | time | timestamp | bit _ => 9
  | decimal _ _ => 18
  | char (some n) | varchar (some n) => 5 + n.toNat
  | char none | varchar none | text | blob => 5 + variableWidthEstimate

/-- A type name followed by its argument, if it has one. -/
def withArgument (name : String) : Option Nat → String
  | some n => s!"{name}({n})"
  | none => name

/-- The name of the type in SQL. -/
def name : DataType → String
  | boolean => "BOOLEAN"
  | tinyInt => "TINYINT"
  | smallInt => "SMALLINT"
  | int => "INT"
  | bigInt => "BIGINT"
  | float => "FLOAT"
  | double => "DOUBLE"
  | decimal (some p) (some s) => s!"DECIMAL({p.toNat}, {s.toNat})"
  | decimal (some p) none => s!"DECIMAL({p.toNat})"
  | decimal none _ => "DECIMAL"
  | char n => withArgument "CHAR" (n.map UInt32.toNat)
  | varchar n => withArgument "VARCHAR" (n.map UInt32.toNat)
  | text => "TEXT"
  | blob => "BLOB"
  | date => "DATE"
  | time => "TIME"
  | timestamp => "TIMESTAMP"
  | bit w => s!"BIT({w.toNat})"

end DataType

end ResultSink
