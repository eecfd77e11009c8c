/-! The sizes that bound tables and records. -/

namespace ResultSink

/-- The default capacity in bytes of a table in memory, 16 MiB. -/
def defaultMemoryLimit : Nat := 16 * 1024 * 1024

/-- The least capacity in bytes that a table in memory may be given, 16 KiB. -/
def minMemoryLimit : Nat := 16 * 1024

/-- The bytes charged for a row in memory besides its record. -/
def rowOverhead : Nat := 16

/-- The bytes of the hash at the end of a record under a hash key. -/
def hashWidth : Nat := 8

/-- The bytes of the length in front of a record in a file. -/
def lengthWidth : Nat := 4

/-- The greatest size of a record in bytes, 64 MiB. -/
def maxRecordSize : Nat := 64 * 1024 * 1024

/-- The default greatest width in bytes of a native unique key. -/
def defaultKeyLimit : Nat := 3072

end ResultSink
