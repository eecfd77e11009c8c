import ResultSink.DataType.Basic
import ResultSink.Json.Fields
import ResultSink.Json.Reader

/-! The JSON form of data types. A type without arguments is a string; one with arguments is an
object whose only key is the name of the type. -/

namespace ResultSink.DataType

/-- The types without arguments, by the names they have in JSON. -/
def plainNames : List (String × DataType) :=
  [("Boolean", boolean), ("TinyInt", tinyInt), ("SmallInt", smallInt), ("Int", int),
    ("BigInt", bigInt), ("Float", float), ("Double", double), ("Text", text), ("Blob", blob),
    ("Date", date), ("Time", time), ("Timestamp", timestamp)]

def json : DataType → Json
  | boolean => .text "Boolean"
  | tinyInt => .text "TinyInt"
  | smallInt => .text "SmallInt"
  | int => .text "Int"
  | bigInt => .text "BigInt"
  | float => .text "Float"
  | double => .text "Double"
  | decimal precision scale =>
    .ofFields [("Decimal", .ofFields [("precision", .ofNat? (precision.map UInt8.toNat)),
      ("scale", .ofNat? (scale.map UInt8.toNat))])]
  | char n => .ofFields [("Char", .ofNat? (n.map UInt32.toNat))]
  | varchar n => .ofFields [("Varchar", .ofNat? (n.map UInt32.toNat))]
  | text => .text "Text"
  | blob => .text "Blob"
  | date => .text "Date"
  | time => .text "Time"
  | timestamp => .text "Timestamp"
  | bit w => .ofFields [("Bit", .whole w.toNat)]

def byte? (j : Json) : Option UInt8 := (j.natBelow? (2 ^ 8)).map UInt8.ofNat

def length? (j : Json) : Option (Option UInt32) :=
  j.nullable? fun j => (j.natBelow? (2 ^ 32)).map UInt32.ofNat

/-- The arguments of a decimal type. A missing argument of an object is null. -/
def decimalOfJson? (j : Json) : Option DataType := do
  match ← j.fields? false ["precision", "scale"] with
  | [precision, scale] =>
    let precision ← (precision.getD .null).nullable? byte?
    let scale ← (scale.getD .null).nullable? byte?
    return .decimal precision scale
  | _ => none

/-- The type of a name and what stands with it. -/
def ofMember? (name : String) (content : Json) : Option DataType :=
  match name with
  | "Decimal" => decimalOfJson? content
  | "Char" => (length? content).map char
  | "Varchar" => (length? content).map varchar
  | "Bit" => (byte? content).map bit
  | _ =>
    match content with
    | .null => plainNames.lookup name
    | _ => none

/-- The type of a JSON form. A type without arguments may also stand as a key with null. -/
def ofJson? : Json → Option DataType
  | .string (some name) => plainNames.lookup name
  | .object [(some name, content)] => ofMember? name content
  | _ => none

def read? (s : String) : Option DataType := Json.read? s >>= ofJson?

end ResultSink.DataType
