import ResultSink.DataType.Json

/-! Columns of a select list. -/

namespace ResultSink

/-- A column. A hidden one is computed and not stored. -/
structure Column where
  name : String
  dataType : DataType
  nullable : Bool := true
  isHidden : Bool := false
  deriving DecidableEq

namespace Column

def hide (c : Column) : Column := { c with isHidden := true }

/-- The column as it is stored: a bit field becomes a 64-bit integer if `bitsAsLong` says so. -/
def stored (bitsAsLong : Bool) (c : Column) : Column :=
  if bitsAsLong && c.dataType.isBit then { c with dataType := .bigInt } else c

/-- The JSON form of a column. -/
def json (c : Column) : Json :=
  .ofFields [("name", .text c.name), ("data_type", c.dataType.json), ("nullable", .bool c.nullable),
    ("hidden", .bool c.isHidden)]

/-- The column of a JSON form, in which no field is left out. -/
def ofJson? (j : Json) : Option Column := do
  match ← j.fields? false ["name", "data_type", "nullable", "hidden"] with
  | [some name, some dataType, some nullable, some isHidden] =>
    return {
      name := ← name.text?
      dataType := ← DataType.ofJson? dataType
      nullable := ← nullable.bool?
      isHidden := ← isHidden.bool? }
  | _ => none

def read? (s : String) : Option Column := Json.read? s >>= ofJson?

end Column

end ResultSink
