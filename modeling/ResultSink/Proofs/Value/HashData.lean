import ResultSink.Proofs.Value.Numbers
import ResultSink.Proofs.Value.Equality
import ResultSink.Row

/-! What a hasher is fed. Every value ends where the next begins: numbers have the width of their
kind, a text is closed by a byte that no text contains, and a byte string says its length. So values
and rows feed a hasher the same bytes only if they are the same. -/

namespace ResultSink

variable {rest rest' : List UInt8}

theorem littleEndian_append_inj {width m n : ℕ} (hm : m < 256 ^ width) (hn : n < 256 ^ width)
    (h : littleEndian width m ++ rest = littleEndian width n ++ rest') : m = n ∧ rest = rest' := by
  obtain ⟨front, back⟩ := List.append_inj h (by simp)
  exact ⟨(littleEndian_inj hm hn).1 front, back⟩

theorem word_append_inj {width w : ℕ} {m n : BitVec w} (bound : 2 ^ w ≤ 256 ^ width)
    (h : littleEndian width m.toNat ++ rest = littleEndian width n.toNat ++ rest') :
    m = n ∧ rest = rest' :=
  (littleEndian_append_inj (m.isLt.trans_le bound) (n.isLt.trans_le bound) h).imp_left
    BitVec.eq_of_toNat_eq

/-- A list that is closed by an element it does not contain ends there. -/
theorem closed_append_inj {α : Type} [DecidableEq α] {mark : α} {xs ys zs ws : List α}
    (hx : mark ∉ xs) (hy : mark ∉ ys) (h : xs ++ mark :: zs = ys ++ mark :: ws) :
    xs = ys ∧ zs = ws := by
  -- What follows may hold the element again, so `List.append_cons_inj_of_notMem` does not apply.
  have place := congrArg (List.idxOf mark) h
  rw [List.idxOf_append_of_notMem hx, List.idxOf_append_of_notMem hy, List.idxOf_cons_self,
    List.idxOf_cons_self] at place
  exact (List.append_inj h place).imp_right fun closed => (List.cons.inj closed).2

/-- The byte 255 stands in no encoding of a character. -/
theorem ne_255_of_mem_utf8EncodeChar {c : Char} {b : UInt8} (h : b ∈ String.utf8EncodeChar c) :
    b ≠ 255 := by
  have small {n : ℕ} (h : n < 255) : UInt8.ofNat n ≠ 255 := by
    intro same
    have number := congrArg UInt8.toNat same
    rw [UInt8.toNat_ofNat', Nat.mod_eq_of_lt (by omega)] at number
    exact absurd number h.ne
  unfold String.utf8EncodeChar at h
  dsimp only at h
  split_ifs at h <;> simp only [List.mem_cons, List.not_mem_nil, or_false] at h
  · rw [h]
    exact small (by omega)
  · rcases h with rfl | rfl <;> exact small (by omega)
  · rcases h with rfl | rfl | rfl <;> exact small (by omega)
  · rcases h with rfl | rfl | rfl | rfl <;> exact small (by omega)

theorem not_mem_toUTF8 (s : String) : 255 ∉ s.toUTF8.data.toList := by
  obtain ⟨chars, rfl⟩ := s.exists_eq_ofList
  rw [String.toUTF8_eq_toByteArray, String.toByteArray_ofList, List.utf8Encode,
    List.data_toByteArray, List.mem_flatMap]
  rintro ⟨c, -, inside⟩
  exact ne_255_of_mem_utf8EncodeChar inside rfl

theorem Floating.eq_of_word {f : Format} {x y : Floating f} (h : x.word = y.word) : x = y := by
  cases x
  cases y
  exact congrArg mk h

namespace Value

variable {a b : Value}

/-- The length of a byte string fits in eight bytes. -/
def Addressable : Value → Prop
  | bytes b => b.size < 2 ^ 64
  | _ => True

/-- The content of a value ends where it is known to end by its kind. -/
theorem Alike.hashedContent_append_inj (h : Alike a b) (ha : a.Addressable) (hb : b.Addressable)
    (same : a.hashedContent ++ rest = b.hashedContent ++ rest') : a = b ∧ rest = rest' := by
  cases h with
  | null => exact ⟨rfl, same⟩
  | boolean p q =>
    obtain ⟨marks, back⟩ := List.cons.inj same
    cases p <;> cases q <;> first | exact ⟨rfl, back⟩ | cases marks
  | tinyInt =>
    exact (word_append_inj (by decide) same).imp_left fun words =>
      congrArg _ (Int8.toBitVec_inj.1 words)
  | smallInt =>
    exact (word_append_inj (by decide) same).imp_left fun words =>
      congrArg _ (Int16.toBitVec_inj.1 words)
  | int | date =>
    exact (word_append_inj (by decide) same).imp_left fun words =>
      congrArg _ (Int32.toBitVec_inj.1 words)
  | bigInt | time | timestamp =>
    exact (word_append_inj (by decide) same).imp_left fun words =>
      congrArg _ (Int64.toBitVec_inj.1 words)
  | bit =>
    exact (word_append_inj (by decide) same).imp_left fun words =>
      congrArg _ (UInt64.toBitVec_inj.1 words)
  | float | double =>
    exact (word_append_inj (by decide) same).imp_left fun words =>
      congrArg _ (Floating.eq_of_word words)
  | decimal m n scale scale' =>
    rw [hashedContent, hashedContent, List.append_assoc, List.append_assoc] at same
    obtain ⟨numbers, scales⟩ := List.append_inj same (by simp [Int128.bytes])
    obtain ⟨rfl, back⟩ := List.cons.inj scales
    exact ⟨by rw [Int128.bytes_inj numbers], back⟩
  | string s t =>
    rw [hashedContent, hashedContent, List.append_assoc, List.append_assoc] at same
    exact (closed_append_inj (not_mem_toUTF8 s) (not_mem_toUTF8 t) same).imp_left fun texts =>
      congrArg _ (String.toByteArray_inj.1 (ByteArray.ext (Array.toList_inj.1 texts)))
  | bytes b c =>
    rw [hashedContent, hashedContent, List.append_assoc, List.append_assoc] at same
    obtain ⟨sizes, contents⟩ := littleEndian_append_inj ha hb same
    obtain ⟨strings, back⟩ := List.append_inj contents sizes
    exact ⟨congrArg _ (ByteArray.ext (Array.toList_inj.1 strings)), back⟩

/-- The kind of a value stands before its content. -/
theorem alike_of_hashed (same : a.hashed ++ rest = b.hashed ++ rest') :
    Alike a b ∧ a.hashedContent ++ rest = b.hashedContent ++ rest' := by
  rw [hashed, hashed, List.append_assoc, List.append_assoc] at same
  have small (k : Kind) : k.index < 256 ^ 8 := by cases k <;> decide
  obtain ⟨indices, contents⟩ := littleEndian_append_inj (small a.kind) (small b.kind) same
  have kinds := congrArg Kind.ofIndex? indices
  rw [Kind.ofIndex?_index, Kind.ofIndex?_index] at kinds
  exact ⟨alike_iff.2 (Option.some.inj kinds), contents⟩

theorem hashed_append_inj (ha : a.Addressable) (hb : b.Addressable)
    (same : a.hashed ++ rest = b.hashed ++ rest') : a = b ∧ rest = rest' :=
  (alike_of_hashed same).1.hashedContent_append_inj ha hb (alike_of_hashed same).2

/-- Values feed a hasher the same bytes only if they are the same. -/
theorem hashed_eq_iff : a.hashed = b.hashed ↔ a = b := by
  refine ⟨fun same => ?_, fun same => by rw [same]⟩
  obtain ⟨alike, contents⟩ := alike_of_hashed (congrArg (· ++ []) same)
  have ends := @Alike.hashedContent_append_inj [] [] a b alike
  cases alike with
  | bytes b c =>
    -- Alone, a byte string of any length is what stands behind the eight bytes.
    rw [List.append_nil, List.append_nil] at contents
    have strings := (List.append_inj contents (by simp)).2
    exact congrArg _ (ByteArray.ext (Array.toList_inj.1 strings))
  | _ => exact (ends trivial trivial contents).1

end Value

namespace Row

/-- The lengths in a row fit in eight bytes. -/
structure Addressable (r : Row) : Prop where
  columns : r.length < 2 ^ 64
  values : ∀ v ∈ r, v.Addressable

theorem eq_of_flatMap_hashed {r s : Row} (hr : ∀ v ∈ r, v.Addressable)
    (hs : ∀ v ∈ s, v.Addressable) (length : r.length = s.length)
    (same : r.flatMap Value.hashed = s.flatMap Value.hashed) : r = s := by
  induction r generalizing s with
  | nil => exact (List.length_eq_zero_iff.1 length.symm).symm
  | cons a r ih =>
    cases s with
    | nil => cases length
    | cons b s =>
      rw [List.forall_mem_cons] at hr hs
      rw [List.flatMap_cons, List.flatMap_cons] at same
      obtain ⟨rfl, tails⟩ := Value.hashed_append_inj hr.1 hs.1 same
      rw [ih hr.2 hs.2 (Nat.succ.inj length) tails]

/-- Rows feed a hasher the same bytes only if they are the same. -/
theorem hashed_eq_iff {r s : Row} (hr : r.Addressable) (hs : s.Addressable) :
    r.hashed = s.hashed ↔ r = s := by
  refine ⟨fun same => ?_, fun same => by rw [same]⟩
  obtain ⟨length, values⟩ := littleEndian_append_inj hr.columns hs.columns same
  exact eq_of_flatMap_hashed hr.values hs.values length values

end Row

end ResultSink
