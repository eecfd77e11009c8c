import ResultSink.Json.Fields
import ResultSink.Json.Reader
import ResultSink.Limits

/-! The configuration of temporary tables: how much a table may hold in memory and on disk, where
its file goes, and how wide a native unique key may be. -/

namespace ResultSink

/-- Limits of temporary tables. Where a limit is absent, there is none; where the directory is
absent, it is the system's own. -/
structure Config where
  memoryLimit : Nat := defaultMemoryLimit
  memoryRows : Option Nat := none
  diskLimit : Option Nat := none
  directory : Option String := none
  keyLimit : Nat := defaultKeyLimit
  deriving DecidableEq

inductive ConfigError where
  | memoryLimit
  | noRows
  | keyLimit
  | emptyDirectory
  deriving DecidableEq

def ConfigError.message : ConfigError → String
  | memoryLimit => s!"max_heap_table_size must be at least {minMemoryLimit} bytes"
  | noRows => "max_heap_rows must be greater than 0"
  | keyLimit => s!"max_unique_key_length must be at least {hashWidth} bytes"
  | emptyDirectory => "tmp_dir must not be empty"

namespace Config

/-- A small configuration, in which a table soon outgrows memory. -/
def small : Config := { memoryLimit := minMemoryLimit, memoryRows := some 64 }

/-- The first setting that is out of bounds, if there is one. -/
def error? (c : Config) : Option ConfigError :=
  if c.memoryLimit < minMemoryLimit then some .memoryLimit
  else if c.memoryRows = some 0 then some .noRows
  else if c.keyLimit < hashWidth then some .keyLimit
  else if c.directory = some "" then some .emptyDirectory
  else none

def json (c : Config) : Json :=
  .ofFields [("max_heap_table_size", .whole c.memoryLimit),
    ("max_heap_rows", .ofNat? c.memoryRows),
    ("max_disk_table_size", .ofNat? c.diskLimit),
    ("tmp_dir", (c.directory.map Json.text).getD .null),
    ("max_unique_key_length", .whole c.keyLimit)]

def word? (j : Json) : Option Nat := j.natBelow? (2 ^ 64)

/-- What a field holds, or its default if it is left out. -/
def field? {α : Type} (default : α) (read : Json → Option α) : Option Json → Option α
  | some j => read j
  | none => some default

/-- The configuration of a JSON form. A field that is left out has its default, and an array may
leave out its last fields. -/
def ofJson? (j : Json) : Option Config := do
  match ← j.fields? true ["max_heap_table_size", "max_heap_rows", "max_disk_table_size", "tmp_dir",
      "max_unique_key_length"] with
  | [memoryLimit, memoryRows, diskLimit, directory, keyLimit] =>
    return {
      memoryLimit := ← field? defaultMemoryLimit word? memoryLimit
      memoryRows := ← field? none (Json.nullable? word?) memoryRows
      diskLimit := ← field? none (Json.nullable? word?) diskLimit
      directory := ← field? none (Json.nullable? Json.text?) directory
      keyLimit := ← field? defaultKeyLimit word? keyLimit }
  | _ => none

def read? (s : String) : Option Config := Json.read? s >>= ofJson?

end Config

end ResultSink
