import ResultSink.Instances

/-! Bytes of numbers: the little-endian and big-endian forms of a natural number in a fixed number
of bytes, how they read back, and hexadecimal text. -/

namespace ResultSink

/-- The `width` low bytes of a number, least significant first. -/
def littleEndian : Nat → Nat → List UInt8
  | 0, _ => []
  | width + 1, n => UInt8.ofNat n :: littleEndian width (n / 256)

/-- The number whose bytes, least significant first, are given. -/
def ofLittleEndian : List UInt8 → Nat
  | [] => 0
  | b :: rest => b.toNat + 256 * ofLittleEndian rest

/-- The `width` low bytes of a number, most significant first. -/
def bigEndian (width n : Nat) : List UInt8 :=
  (littleEndian width n).reverse

/-- The number whose bytes, most significant first, are given. -/
def ofBigEndian (bytes : List UInt8) : Nat :=
  ofLittleEndian bytes.reverse

@[simp] theorem length_littleEndian (width n : Nat) : (littleEndian width n).length = width := by
  induction width generalizing n with
  | zero => rfl
  | succ width ih => simp [littleEndian, ih]

@[simp] theorem length_bigEndian (width n : Nat) : (bigEndian width n).length = width := by
  simp [bigEndian]

/-- Reading back gives the number modulo the range of its bytes. -/
theorem ofLittleEndian_littleEndian (width n : Nat) :
    ofLittleEndian (littleEndian width n) = n % 256 ^ width := by
  induction width generalizing n with
  | zero => simp [littleEndian, ofLittleEndian, Nat.mod_one]
  | succ width ih =>
    have step : n % 256 ^ (width + 1) = n % 256 + 256 * (n / 256 % 256 ^ width) := by
      rw [Nat.pow_succ', Nat.mod_mul]
    rw [littleEndian, ofLittleEndian, ih, UInt8.toNat_ofNat', step]

/-- As many bytes as a number was read from give those bytes again. -/
theorem littleEndian_ofLittleEndian (bytes : List UInt8) :
    littleEndian bytes.length (ofLittleEndian bytes) = bytes := by
  induction bytes with
  | nil => rfl
  | cons b rest ih =>
    have hb : b.toNat < 256 := b.toNat_lt
    rw [List.length_cons, ofLittleEndian, littleEndian, Nat.add_mul_div_left _ _ (by decide),
      Nat.div_eq_of_lt hb, Nat.zero_add, ih]
    congr 1
    apply UInt8.toNat_inj.mp
    rw [UInt8.toNat_ofNat']
    omega

theorem ofLittleEndian_lt (bytes : List UInt8) : ofLittleEndian bytes < 256 ^ bytes.length := by
  induction bytes with
  | nil => decide
  | cons b rest ih =>
    have hb : b.toNat < 256 := b.toNat_lt
    rw [ofLittleEndian, List.length_cons, Nat.pow_succ]
    omega

theorem littleEndian_inj {width m n : Nat} (hm : m < 256 ^ width) (hn : n < 256 ^ width) :
    littleEndian width m = littleEndian width n ↔ m = n := by
  refine ⟨fun same => ?_, fun same => by rw [same]⟩
  have read := congrArg ofLittleEndian same
  rwa [ofLittleEndian_littleEndian, ofLittleEndian_littleEndian, Nat.mod_eq_of_lt hm,
    Nat.mod_eq_of_lt hn] at read

theorem ofLittleEndian_append (front rest : List UInt8) :
    ofLittleEndian (front ++ rest) =
      ofLittleEndian front + 256 ^ front.length * ofLittleEndian rest := by
  induction front with
  | nil => simp [ofLittleEndian]
  | cons b front ih =>
    rw [List.cons_append, ofLittleEndian, ofLittleEndian, ih, List.length_cons, Nat.pow_succ,
      Nat.mul_add, ← Nat.mul_assoc, Nat.mul_comm (256 ^ front.length) 256, Nat.add_assoc]

theorem ofBigEndian_bigEndian (width n : Nat) :
    ofBigEndian (bigEndian width n) = n % 256 ^ width := by
  simp [ofBigEndian, bigEndian, ofLittleEndian_littleEndian]

/-- The order of two byte strings from a position on: byte by byte, and the one that ends first
comes first. At most `fuel` bytes are looked at. -/
def compareBytesFrom (a b : ByteArray) : Nat → Nat → Ordering
  | 0, _ => compare a.size b.size
  | fuel + 1, i =>
    if h : i < a.size then
      if h' : i < b.size then
        (compare a[i].toNat b[i].toNat).then (compareBytesFrom a b fuel (i + 1))
      else .gt
    else compare a.size b.size

def compareBytes (a b : ByteArray) : Ordering :=
  compareBytesFrom a b (min a.size b.size) 0

/-- From a position on, the order is the lexicographic one of what is left. -/
theorem compareBytesFrom_eq (a b : ByteArray) (fuel i : Nat) (hf : fuel + i = min a.size b.size) :
    compareBytesFrom a b fuel i =
      List.compareLex (fun x y => compare x.toNat y.toNat)
        (a.data.toList.drop i) (b.data.toList.drop i) := by
  have ended (bytes : ByteArray) {j : Nat} (h : bytes.size ≤ j) : bytes.data.toList.drop j = [] :=
    List.drop_eq_nil_of_le h
  have next (bytes : ByteArray) {j : Nat} (h : j < bytes.size) :
      bytes.data.toList.drop j = bytes[j] :: bytes.data.toList.drop (j + 1) :=
    List.drop_eq_getElem_cons h
  induction fuel generalizing i with
  | zero =>
    rw [compareBytesFrom]
    rcases Nat.lt_trichotomy a.size b.size with h | h | h
    · rw [ended a (by omega), next b (by omega), Nat.compare_eq_lt.2 h]
      rfl
    · rw [ended a (by omega), ended b (by omega), Nat.compare_eq_eq.2 h]
      rfl
    · rw [next a (by omega), ended b (by omega), Nat.compare_eq_gt.2 h]
      rfl
  | succ fuel ih =>
    have h : i < a.size := by omega
    have h' : i < b.size := by omega
    rw [compareBytesFrom, dif_pos h, dif_pos h', ih (i + 1) (by omega), next a h, next b h',
      List.compareLex_cons_cons]

/-- Byte strings are ordered as the lists of their bytes are. -/
theorem compareBytes_eq (a b : ByteArray) :
    compareBytes a b =
      List.compareLex (fun x y => compare x.toNat y.toNat) a.data.toList b.data.toList := by
  rw [compareBytes, compareBytesFrom_eq a b _ _ (Nat.add_zero _)]
  rfl

theorem eq_of_compareLex_eq {xs ys : List UInt8}
    (h : List.compareLex (fun x y => compare x.toNat y.toNat) xs ys = .eq) : xs = ys := by
  induction xs generalizing ys with
  | nil => exact (List.compareLex_nil_left_eq_eq.1 h).symm
  | cons x xs ih =>
    cases ys with
    | nil => cases h
    | cons y ys =>
      rw [List.compareLex_cons_cons, Ordering.then_eq_eq] at h
      rw [UInt8.toNat_inj.1 (Nat.compare_eq_eq.1 h.1), ih h.2]

theorem compareBytes_self (a : ByteArray) : compareBytes a a = .eq := by
  rw [compareBytes_eq]
  induction a.data.toList with
  | nil => rfl
  | cons x xs ih =>
    rw [List.compareLex_cons_cons, ih, Nat.compare_eq_eq.2 rfl]
    rfl

/-- Only equal byte strings share a place in the order. -/
theorem compareBytes_eq_eq_iff {a b : ByteArray} : compareBytes a b = .eq ↔ a = b := by
  constructor
  · intro h
    rw [compareBytes_eq] at h
    exact ByteArray.ext (Array.toList_inj.1 (eq_of_compareLex_eq h))
  · rintro rfl
    exact compareBytes_self a

@[simp] theorem toByteArray_toList (a : ByteArray) : a.data.toList.toByteArray = a :=
  ByteArray.ext (by simp)

/-- Bytes that stand between others are found there. -/
theorem extract_middle (a b c : ByteArray) :
    (a ++ (b ++ c)).extract a.size (a.size + b.size) = b := by
  have shifted := ByteArray.extract_append_size_add (a := a) (b := b ++ c) (i := 0) (j := b.size)
  rw [Nat.add_zero] at shifted
  rw [shifted, ByteArray.extract_append_eq_left rfl]

theorem extract_append_extract_size (a : ByteArray) {n : Nat} (h : n ≤ a.size) :
    a.extract 0 n ++ a.extract n a.size = a := by
  rw [← ByteArray.extract_eq_extract_append_extract n (Nat.zero_le n) h,
    ByteArray.extract_zero_size]

/-- The two lower-case hexadecimal digits of a byte, high half first. -/
def hexPair (b : UInt8) : List Char :=
  [Nat.digitChar (b.toNat / 16), Nat.digitChar (b.toNat % 16)]

/-- Bytes as lower-case hexadecimal text, two digits a byte. -/
def hexText (bytes : List UInt8) : String :=
  String.ofList (bytes.flatMap hexPair)

/-- The value of a hexadecimal digit in either case. -/
def hexDigit? (c : Char) : Option Nat :=
  if '0' ≤ c ∧ c ≤ '9' then some (c.toNat - '0'.toNat)
  else if 'a' ≤ c ∧ c ≤ 'f' then some (c.toNat - 'a'.toNat + 10)
  else if 'A' ≤ c ∧ c ≤ 'F' then some (c.toNat - 'A'.toNat + 10)
  else none

end ResultSink
