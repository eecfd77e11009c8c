import ResultSink.Floating.Basic
import ResultSink.Int128

/-! SQL values and what each counts as when read as a truth value. -/

namespace ResultSink

/-- A value of a row. A decimal is `unscaled / 10 ^ scale`; dates count days, and times and
timestamps count microseconds. -/
inductive Value where
  | null
  | boolean (b : Bool)
  | tinyInt (n : Int8)
  | smallInt (n : Int16)
  | int (n : Int32)
  | bigInt (n : Int64)
  | float (x : Single)
  | double (x : Double)
  | decimal (unscaled : Int128) (scale : UInt8)
  | string (s : String)
  | bytes (b : ByteArray)
  | date (days : Int32)
  | time (micros : Int64)
  | timestamp (micros : Int64)
  | bit (bits : UInt64)
  deriving DecidableEq

inductive Kind where
  | null
  | boolean
  | tinyInt
  | smallInt
  | int
  | bigInt
  | float
  | double
  | decimal
  | string
  | bytes
  | date
  | time
  | timestamp
  | bit
  deriving DecidableEq

def Kind.index : Kind → Nat
  | null => 0
  | boolean => 1
  | tinyInt => 2
  | smallInt => 3
  | int => 4
  | bigInt => 5
  | float => 6
  | double => 7
  | decimal => 8
  | string => 9
  | bytes => 10
  | date => 11
  | time => 12
  | timestamp => 13
  | bit => 14

def Kind.ofIndex? : Nat → Option Kind
  | 0 => some null
  | 1 => some boolean
  | 2 => some tinyInt
  | 3 => some smallInt
  | 4 => some int
  | 5 => some bigInt
  | 6 => some float
  | 7 => some double
  | 8 => some decimal
  | 9 => some string
  | 10 => some bytes
  | 11 => some date
  | 12 => some time
  | 13 => some timestamp
  | 14 => some bit
  | _ => none

@[simp] theorem Kind.ofIndex?_index (k : Kind) : Kind.ofIndex? k.index = some k := by
  cases k <;> rfl

theorem Kind.index_of_ofIndex? {n : Nat} {k : Kind} (h : Kind.ofIndex? n = some k) :
    k.index = n := by
  unfold Kind.ofIndex? at h
  split at h <;> first | (cases h; rfl) | cases h

namespace Value

def kind : Value → Kind
  | null => .null
  | boolean _ => .boolean
  | tinyInt _ => .tinyInt
  | smallInt _ => .smallInt
  | int _ => .int
  | bigInt _ => .bigInt
  | float _ => .float
  | double _ => .double
  | decimal _ _ => .decimal
  | string _ => .string
  | bytes _ => .bytes
  | date _ => .date
  | time _ => .time
  | timestamp _ => .timestamp
  | bit _ => .bit

def isNull : Value → Bool
  | null => true
  | _ => false

/-- Zero, the empty text and the empty byte string are false, and so is NULL; dates and times are
true. -/
def isTruthy : Value → Bool
  | null => false
  | boolean b => b
  | tinyInt n => n.toInt ≠ 0
  | smallInt n => n.toInt ≠ 0
  | int n => n.toInt ≠ 0
  | bigInt n => n.toInt ≠ 0
  | float x => !x.isZero
  | double x => !x.isZero
  | decimal n _ => n.toInt ≠ 0
  | string s => !s.isEmpty
  | bytes b => b.size ≠ 0
  | bit n => n.toNat ≠ 0
  | date _ | time _ | timestamp _ => true

/-- The truth value, absent for NULL. -/
def toBool? : Value → Option Bool
  | null => none
  | v => some v.isTruthy

end Value

end ResultSink
