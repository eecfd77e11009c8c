/-! Stable codes of errors: a name, a number, and the category that the number's high byte gives. -/

namespace ResultSink

inductive ErrorCode where
  | unknown
  | internal
  | notSupported
  | invalidArgument
  | invalidState
  | io
  | diskFull
  | corruption
  | keyExists
  | recordTooLarge
  | tableFull
  | indexNotInitialized
  | outOfResources
  | typeMismatch
  | executionFailed
  deriving DecidableEq

namespace ErrorCode

/-- All codes in the order of their numbers. -/
def all : List ErrorCode :=
  [unknown, internal, notSupported, invalidArgument, invalidState, io, diskFull, corruption,
    keyExists, recordTooLarge, tableFull, indexNotInitialized, outOfResources, typeMismatch,
    executionFailed]

def number : ErrorCode → Nat
  | unknown => 0x0000
  | internal => 0x0001
  | notSupported => 0x0002
  | invalidArgument => 0x0003
  | invalidState => 0x0004
  | io => 0x0100
  | diskFull => 0x0103
  | corruption => 0x0104
  | keyExists => 0x0204
  | recordTooLarge => 0x0206
  | tableFull => 0x0207
  | indexNotInitialized => 0x0208
  | outOfResources => 0x0209
  | typeMismatch => 0x0603
  | executionFailed => 0x0605

def name : ErrorCode → String
  | unknown => "Unknown"
  | internal => "Internal"
  | notSupported => "NotSupported"
  | invalidArgument => "InvalidArgument"
  | invalidState => "InvalidState"
  | io => "Io"
  | diskFull => "DiskFull"
  | corruption => "Corruption"
  | keyExists => "KeyExists"
  | recordTooLarge => "RecordTooLarge"
  | tableFull => "TableFull"
  | indexNotInitialized => "IndexNotInitialized"
  | outOfResources => "OutOfResources"
  | typeMismatch => "TypeMismatch"
  | executionFailed => "ExecutionFailed"

def ofName? (name : String) : Option ErrorCode :=
  all.find? fun code => code.name = name

/-- The category of a code, by the high byte of its number. -/
def category (code : ErrorCode) : String :=
  match code.number / 256 with
  | 0 => "General"
  | 1 => "I/O"
  | 2 => "Storage"
  | 6 => "Query"
  | _ => "Unknown"

end ErrorCode

end ResultSink
