import ResultSink.Bytes

/-! Whole numbers of 128 bits with a sign: the integers from -2^127 to 2^127 - 1. -/

namespace ResultSink

/-- An integer that fits in 128 bits with a sign. -/
structure Int128 where
  toInt : Int
  lower : -2 ^ 127 ≤ toInt := by decide
  upper : toInt < 2 ^ 127 := by decide
  deriving DecidableEq

namespace Int128

@[ext] theorem ext {a b : Int128} (h : a.toInt = b.toInt) : a = b := by
  cases a; cases b; simp_all

def ofInt? (n : Int) : Option Int128 :=
  if h : -2 ^ 127 ≤ n ∧ n < 2 ^ 127 then some ⟨n, h.1, h.2⟩ else none

@[simp] theorem ofInt?_toInt (n : Int128) : ofInt? n.toInt = some n := by
  rw [ofInt?, dif_pos ⟨n.lower, n.upper⟩]

theorem ofInt?_eq_some_iff {n : Int} {a : Int128} : ofInt? n = some a ↔ a.toInt = n := by
  constructor
  · intro h
    unfold ofInt? at h
    split at h
    · cases h; rfl
    · cases h
  · rintro rfl
    exact ofInt?_toInt a

def clamp (n : Int) : Int128 :=
  if h : n < -2 ^ 127 then ⟨-2 ^ 127, by decide, by decide⟩
  else if h' : 2 ^ 127 ≤ n then ⟨2 ^ 127 - 1, by decide, by decide⟩
  else ⟨n, by omega, by omega⟩

/-- Sixteen bytes in two's complement, least significant first. -/
def bytes (n : Int128) : List UInt8 :=
  littleEndian 16 (n.toInt % 2 ^ 128).toNat

theorem toNat_complement_lt (n : Int128) : (n.toInt % 2 ^ 128).toNat < 256 ^ 16 := by
  omega

/-- The integer whose two's complement is a number below `2 ^ 128`; a greater number is taken
modulo `2 ^ 128`. -/
def ofComplement (n : Nat) : Int128 :=
  if h : n % 2 ^ 128 < 2 ^ 127 then ⟨(n % 2 ^ 128 : Nat), by omega, by omega⟩
  else ⟨(n % 2 ^ 128 : Nat) - 2 ^ 128, by omega, by omega⟩

/-- The integer of a complement has that complement. -/
theorem toNat_ofComplement (n : Nat) : ((ofComplement n).toInt % 2 ^ 128).toNat = n % 2 ^ 128 := by
  unfold ofComplement
  split <;> simp only [] <;> omega

/-- Sixteen bytes read back, with any byte behind them. -/
theorem ofComplement_add (n : Int128) (b : Nat) :
    ofComplement ((n.toInt % 2 ^ 128).toNat + 2 ^ 128 * b) = n := by
  have hl := n.lower
  have hu := n.upper
  apply Int128.ext
  unfold ofComplement
  split <;> simp only [] <;> omega

/-- Sixteen bytes and one more are the bytes of one number. -/
theorem bytes_append (n : Int128) (b : UInt8) :
    n.bytes ++ [b] = littleEndian 17 ((n.toInt % 2 ^ 128).toNat + 2 ^ 128 * b.toNat) := by
  have whole : ofLittleEndian (n.bytes ++ [b]) =
      (n.toInt % 2 ^ 128).toNat + 2 ^ 128 * b.toNat := by
    rw [ofLittleEndian_append, bytes, ofLittleEndian_littleEndian,
      Nat.mod_eq_of_lt n.toNat_complement_lt, length_littleEndian]
    rfl
  have back := littleEndian_ofLittleEndian (n.bytes ++ [b])
  rw [whole] at back
  rw [← back]
  simp [bytes]

end Int128

end ResultSink
