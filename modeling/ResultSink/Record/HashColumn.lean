import ResultSink.Bytes
import ResultSink.Limits
import ResultSink.Record.Encode
import ResultSink.SipHash
import ResultSink.Storage.Error

/-! The hidden hash at the end of a record: eight bytes, least significant first, after the payload.
The key of the hash is fixed, so that a record keeps its hash when its table moves. -/

namespace ResultSink.Record

def hash (payload : Record) : UInt64 :=
  SipHash.hash 0x517cc1b727220a95 0x0fc94dc6e6eb8a5f payload

def appendHash (payload : Record) (h : UInt64) : Record :=
  payload ++ (littleEndian hashWidth h.toNat).toByteArray

/-- The payload and the hash of a record that ends with one. -/
def splitHash (record : Record) : Except StorageError (Record × UInt64) :=
  if record.size < hashWidth then
    .error (.corrupted s!"record of {record.size} bytes has no hash column")
  else
    let cut := record.size - hashWidth
    .ok (record.extract 0 cut,
      UInt64.ofNat (ofLittleEndian (record.extract cut record.size).data.toList))

@[simp] theorem size_appendHash (payload : Record) (h : UInt64) :
    (appendHash payload h).size = payload.size + hashWidth := by
  simp [appendHash]

/-- A record with a hash splits into what it was made of. -/
theorem splitHash_appendHash (payload : Record) (h : UInt64) :
    splitHash (appendHash payload h) = .ok (payload, h) := by
  have size : (littleEndian hashWidth h.toNat).toByteArray.size = hashWidth := by simp
  have word : h.toNat % 256 ^ hashWidth = h.toNat := Nat.mod_eq_of_lt h.toNat_lt
  unfold splitHash
  rw [if_neg (by simp)]
  dsimp only
  rw [size_appendHash, Nat.add_sub_cancel, appendHash, ByteArray.extract_append_eq_left rfl,
    ByteArray.extract_append_eq_right rfl (by rw [size]), List.data_toByteArray,
    ofLittleEndian_littleEndian, word, UInt64.ofNat_toNat]

/-- A record that splits is its payload with its hash behind it. -/
theorem appendHash_of_splitHash {record payload : Record} {h : UInt64}
    (hs : splitHash record = .ok (payload, h)) : appendHash payload h = record := by
  unfold splitHash at hs
  split at hs
  · cases hs
  · next wide =>
    cases hs
    have size : (record.extract (record.size - hashWidth) record.size).size = hashWidth := by
      rw [ByteArray.size_extract]
      omega
    have length : (record.extract (record.size - hashWidth) record.size).data.toList.length =
        hashWidth := size
    have word := ofLittleEndian_lt
      (record.extract (record.size - hashWidth) record.size).data.toList
    have back := littleEndian_ofLittleEndian
      (record.extract (record.size - hashWidth) record.size).data.toList
    rw [length] at word back
    rw [appendHash, UInt64.toNat_ofNat_of_lt' word, back, toByteArray_toList]
    exact extract_append_extract_size record (Nat.sub_le _ _)

end ResultSink.Record
