import ResultSink.Proofs.Floating.Whole
import ResultSink.Proofs.Record.RoundTrip
import ResultSink.Proofs.Value.Types

/-! Equality and records. Values of one type that compare equal are written alike: a zero loses its
sign, and a word that is no number equals nothing. Only decimals do not compare by what is written
of them, so two that differ may count as equal. -/

namespace ResultSink

namespace Floating

variable {f : Format} {x y : Floating f}

/-- A word is its magnitude under its sign. -/
theorem toNat_word (x : Floating f) :
    x.word.toNat = (if x.isNegative then f.signWeight else 0) + x.magnitude := by
  have bound : x.word.toNat < 2 * f.signWeight := f.two_pow_width ▸ x.word.isLt
  rw [isNegative, magnitude]
  by_cases above : f.signWeight ≤ x.word.toNat
  · rw [Nat.mod_eq_sub_mod above, Nat.mod_eq_of_lt (by omega)]
    simp only [above, decide_true, if_true]
    omega
  · rw [Nat.mod_eq_of_lt (by omega)]
    simp [above]

theorem eq_of_magnitude (sign : x.isNegative = y.isNegative) (size : x.magnitude = y.magnitude) :
    x = y := by
  have words : x.word = y.word := by
    apply BitVec.eq_of_toNat_eq
    rw [toNat_word, toNat_word, sign, size]
  cases x
  cases y
  exact congrArg mk words

/-- Only zero is the same under both signs. -/
theorem signed_inj {s t : Bool} {m n : Nat} (h : signed s m = signed t n) :
    m = n ∧ (m = 0 ∨ s = t) := by
  cases s with
  | false =>
    cases t with
    | false => exact ⟨Int.ofNat.inj h, .inr rfl⟩
    | true =>
      have opposite : (m : Int) = -n := h
      omega
  | true =>
    cases t with
    | false =>
      have opposite : -(m : Int) = n := h
      omega
    | true => exact ⟨Int.ofNat.inj (Int.neg_inj.1 h), .inr rfl⟩

/-- Equal numbers share their place in the order, and neither word is no number. -/
theorem equals_iff : x.equals y = true ↔ x.isNaN = false ∧ y.isNaN = false ∧ x.place = y.place := by
  unfold equals order?
  cases x.isNaN <;> cases y.isNaN <;> simp

/-- Numbers that are equal share their canonical word. -/
theorem canonical_eq_of_equals (h : x.equals y = true) : x.canonical = y.canonical := by
  obtain ⟨number, number', places⟩ := equals_iff.1 h
  obtain ⟨size, zero | sign⟩ := signed_inj places
  · have zero' : y.magnitude = 0 := size ▸ zero
    simp [canonical, number, number', isZero, zero, zero']
  · rw [eq_of_magnitude sign size]

end Floating

theorem Int128.bytes_inj {m n : Int128} (h : m.bytes = n.bytes) : m = n := by
  have words := (littleEndian_inj m.toNat_complement_lt n.toNat_complement_lt).1 h
  rw [← ofComplement_add m 0, ← ofComplement_add n 0, words]

namespace Value

/-- Decimals of one scale that differ, although the doubles they are rounded to compare equal. -/
inductive Blurred : Value → Value → Prop
  | decimals {m n : Int128} {scale : UInt8} : m ≠ n →
      near ((Floating.ofInt m.toInt).div (powerOfTen scale.toNat))
        ((Floating.ofInt n.toInt).div (powerOfTen scale.toNat)) = true →
      Blurred (.decimal m scale) (.decimal n scale)

variable {v v' a b : Value} {target : DataType}

/-- Values of one type that compare equal share their canonical form, or are blurred decimals. -/
theorem HasType.canonical_eq_or_blurred (ha : a.HasType target) (hb : b.HasType target)
    (same : a.equals b = true) : a.canonical = b.canonical ∨ Blurred a b := by
  cases ha with
  | float x =>
    cases hb with
    | float y => exact .inl (congrArg Value.float (Floating.canonical_eq_of_equals same))
  | double x =>
    cases hb with
    | double y => exact .inl (congrArg Value.double (Floating.canonical_eq_of_equals same))
  | @decimal m precision scale =>
    cases hb with
    | @decimal n =>
      by_cases h : m = n
      · exact .inl (by rw [h])
      · exact .inr (.decimals h same)
  | _ =>
    -- Values of the other types compare by their content.
    cases hb
    simp only [equals, decide_eq_true_eq] at same
    exact .inl (by rw [same])

theorem null_or_hasType_of_cast (h : v.cast target = .ok a) : a = .null ∨ a.HasType target := by
  cases present : v.isNull with
  | true => exact .inl ((cast_eq_null_iff h).2 (eq_null_iff.2 present))
  | false => exact .inr (hasType_of_cast present h)

theorem null_equals_iff : Value.null.equals a = true ↔ a = .null := by
  cases a <;> simp [equals]

theorem equals_null_iff : a.equals .null = true ↔ a = .null := by
  cases a <;> simp [equals]

/-- What a column of a type can hold shares its canonical form with what it equals, but for blurred
decimals. -/
theorem canonical_eq_or_blurred (ha : a = .null ∨ a.HasType target)
    (hb : b = .null ∨ b.HasType target) (same : a.equals b = true) :
    a.canonical = b.canonical ∨ Blurred a b := by
  rcases ha with rfl | typed
  · rw [null_equals_iff.1 same]
    exact .inl rfl
  · rcases hb with rfl | typed'
    · rw [equals_null_iff.1 same]
      exact .inl rfl
    · exact typed.canonical_eq_or_blurred typed' same

/-- Blurred decimals are written in different bytes. -/
theorem Blurred.encode_ne (h : Blurred a b) : a.encode ≠ b.encode := by
  obtain ⟨differ, -⟩ := h
  intro same
  have contents := (List.cons.inj same).2
  exact differ (Int128.bytes_inj (List.append_cancel_right contents))

/-- Only a decimal type has blurred values. -/
theorem Blurred.target_eq (h : Blurred a b) (ha : a = .null ∨ a.HasType target) :
    ∃ precision scale, target = .decimal precision scale := by
  obtain ⟨-, -⟩ := h
  rcases ha with none | typed
  · cases none
  · cases typed
    exact ⟨_, _, rfl⟩

/-- Equal values of one type are written alike exactly if they are not blurred. -/
theorem encode_eq_iff_of_equals (ha : a = .null ∨ a.HasType target)
    (hb : b = .null ∨ b.HasType target) (same : a.equals b = true) :
    a.encode = b.encode ↔ ¬Blurred a b := by
  refine ⟨fun alike blurred => blurred.encode_ne alike, fun clear => ?_⟩
  have forms := (canonical_eq_or_blurred ha hb same).resolve_right clear
  rw [← a.encode_canonical, forms, b.encode_canonical]

end Value

/-- Rows that differ in one value share their record exactly if the two values are written alike. -/
theorem Row.encode_cons_eq_iff {a b : Value} (front back : Row) :
    Row.encode (front ++ a :: back) = Row.encode (front ++ b :: back) ↔ a.encode = b.encode := by
  have length : (front ++ a :: back).length = (front ++ b :: back).length := by simp
  constructor
  · intro same
    have bytes := congrArg (fun record : Record => record.data.toList) same
    simp only [Row.encode, List.data_toByteArray, length, List.flatMap_append,
      List.flatMap_cons] at bytes
    exact List.append_cancel_right (List.append_cancel_left (List.append_cancel_left bytes))
  · intro same
    rw [Row.encode, Row.encode, length, List.flatMap_append, List.flatMap_append,
      List.flatMap_cons, List.flatMap_cons, same]

end ResultSink
