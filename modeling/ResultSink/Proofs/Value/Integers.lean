import ResultSink.Proofs.Value.WholeText

/-! Values that stand for whole numbers: truth values, integers, dates, times and bit fields. A cast
of one of them to a type of whole numbers finds the value of the type that stands for the same
number, and is refused if the type's range leaves the number out. It does not matter then what kind
the number was held in, or which other casts it went through before. -/

namespace ResultSink

/-! ### Words of a width -/

section

variable {n : Int}

/-- A number in the range of a word type is held in the one word that stands for it. -/
theorem narrowed_eq_some_iff {α : Type} {range : Prop} [Decidable range] (ofInt : Int → α)
    (toInt : α → Int) {a : α} (back : ∀ a, ofInt (toInt a) = a)
    (held : range → toInt (ofInt n) = n) (inside : toInt a = n → range) :
    (if range then some (ofInt n) else none) = some a ↔ toInt a = n := by
  constructor
  · intro h
    split at h
    · next fits =>
      cases h
      exact held fits
    · cases h
  · intro same
    rw [if_pos (inside same), ← same, back]

theorem int8?_eq_some_iff {i : Int8} : int8? n = some i ↔ i.toInt = n := by
  apply narrowed_eq_some_iff Int8.ofInt Int8.toInt Int8.ofInt_toInt
  · exact fun fits => Int8.toInt_ofInt_of_le fits.1 fits.2
  · rintro rfl
    exact ⟨i.le_toInt, i.toInt_lt⟩

theorem int16?_eq_some_iff {i : Int16} : int16? n = some i ↔ i.toInt = n := by
  apply narrowed_eq_some_iff Int16.ofInt Int16.toInt Int16.ofInt_toInt
  · exact fun fits => Int16.toInt_ofInt_of_le fits.1 fits.2
  · rintro rfl
    exact ⟨i.le_toInt, i.toInt_lt⟩

theorem int32?_eq_some_iff {i : Int32} : int32? n = some i ↔ i.toInt = n := by
  apply narrowed_eq_some_iff Int32.ofInt Int32.toInt Int32.ofInt_toInt
  · exact fun fits => Int32.toInt_ofInt_of_le fits.1 fits.2
  · rintro rfl
    exact ⟨i.le_toInt, i.toInt_lt⟩

theorem uint64?_eq_some_iff {b : UInt64} : uint64? n = some b ↔ (b.toNat : Int) = n := by
  have back (b : UInt64) : UInt64.ofNat (b.toNat : Int).toNat = b := by simp
  apply narrowed_eq_some_iff (fun n => UInt64.ofNat n.toNat) (fun b => (b.toNat : Int)) back
  · intro fits
    rw [UInt64.toNat_ofNat']
    omega
  · rintro rfl
    have bound := b.toNat_lt
    constructor <;> omega

end

/-! ### Whole numbers as values -/

/-- The whole number that a value stands for. Texts, decimals and floating-point numbers are not
held as whole numbers. -/
def Value.whole? : Value → Option Int
  | .boolean b => some (if b then 1 else 0)
  | .tinyInt n => some n.toInt
  | .smallInt n => some n.toInt
  | .int n => some n.toInt
  | .bigInt n => some n.toInt
  | .date d => some d.toInt
  | .time t => some t.toInt
  | .timestamp t => some t.toInt
  | .bit b => some b.toNat
  | .null | .float _ | .double _ | .decimal _ _ | .string _ | .bytes _ => none

namespace DataType

/-- The least whole number of a type, and the number behind its greatest. -/
def range? : DataType → Option (Int × Int)
  | tinyInt => some (-2 ^ 7, 2 ^ 7)
  | smallInt => some (-2 ^ 15, 2 ^ 15)
  | int | date => some (-2 ^ 31, 2 ^ 31)
  | bigInt | time | timestamp => some (-2 ^ 63, 2 ^ 63)
  | bit width => some (0, 2 ^ min width.toNat 64)
  | boolean | float | double | decimal _ _ | char _ | varchar _ | text | blob => none

/-- The value of a type that stands for a whole number, if the type has one. -/
def ofWhole? (n : Int) : DataType → Option Value
  | tinyInt => (int8? n).map .tinyInt
  | smallInt => (int16? n).map .smallInt
  | int => (int32? n).map .int
  | bigInt => (int64? n).map .bigInt
  | date => (int32? n).map .date
  | time => (int64? n).map .time
  | timestamp => (int64? n).map .timestamp
  | bit width =>
    (uint64? n).bind fun b => if b.toNat < 2 ^ width.toNat then some (.bit b) else none
  | boolean | float | double | decimal _ _ | char _ | varchar _ | text | blob => none

variable {target : DataType} {n low high : Int} {w : Value}

theorem ofWhole?_bit {width : UInt8} :
    (bit width).ofWhole? n = some w ↔
      ∃ b : UInt64, b.toNat < 2 ^ width.toNat ∧ uint64? n = some b ∧ w = .bit b := by
  rw [ofWhole?]
  cases uint64? n with
  | none => simp
  | some b =>
    rw [Option.bind_some]
    split
    · next fits => simp [fits, eq_comm]
    · next wide => simp [wide]

/-- The value of a type for a number is told by its type and its number. -/
theorem ofWhole?_eq_some_iff (range : target.range? = some (low, high)) :
    target.ofWhole? n = some w ↔ w.HasType target ∧ w.whole? = some n := by
  constructor
  · intro h
    cases target with
    | tinyInt =>
      obtain ⟨i, found, rfl⟩ := Option.map_eq_some_iff.1 h
      exact ⟨.tinyInt i, congrArg some (int8?_eq_some_iff.1 found)⟩
    | smallInt =>
      obtain ⟨i, found, rfl⟩ := Option.map_eq_some_iff.1 h
      exact ⟨.smallInt i, congrArg some (int16?_eq_some_iff.1 found)⟩
    | int =>
      obtain ⟨i, found, rfl⟩ := Option.map_eq_some_iff.1 h
      exact ⟨.int i, congrArg some (int32?_eq_some_iff.1 found)⟩
    | bigInt =>
      obtain ⟨i, found, rfl⟩ := Option.map_eq_some_iff.1 h
      exact ⟨.bigInt i, congrArg some (int64?_eq_some_iff.1 found)⟩
    | date =>
      obtain ⟨d, found, rfl⟩ := Option.map_eq_some_iff.1 h
      exact ⟨.date d, congrArg some (int32?_eq_some_iff.1 found)⟩
    | time =>
      obtain ⟨t, found, rfl⟩ := Option.map_eq_some_iff.1 h
      exact ⟨.time t, congrArg some (int64?_eq_some_iff.1 found)⟩
    | timestamp =>
      obtain ⟨t, found, rfl⟩ := Option.map_eq_some_iff.1 h
      exact ⟨.timestamp t, congrArg some (int64?_eq_some_iff.1 found)⟩
    | bit width =>
      obtain ⟨b, fits, found, rfl⟩ := ofWhole?_bit.1 h
      exact ⟨.bit fits, congrArg some (uint64?_eq_some_iff.1 found)⟩
    | _ => cases range
  · rintro ⟨typed, denotes⟩
    cases typed with
    | tinyInt i => simp [ofWhole?, int8?_eq_some_iff.2 (Option.some.inj denotes)]
    | smallInt i => simp [ofWhole?, int16?_eq_some_iff.2 (Option.some.inj denotes)]
    | int i => simp [ofWhole?, int32?_eq_some_iff.2 (Option.some.inj denotes)]
    | bigInt i => simp [ofWhole?, int64?_eq_some_iff.2 (Option.some.inj denotes)]
    | date d => simp [ofWhole?, int32?_eq_some_iff.2 (Option.some.inj denotes)]
    | time t => simp [ofWhole?, int64?_eq_some_iff.2 (Option.some.inj denotes)]
    | timestamp t => simp [ofWhole?, int64?_eq_some_iff.2 (Option.some.inj denotes)]
    | @bit b width fits =>
      exact ofWhole?_bit.2 ⟨b, fits, uint64?_eq_some_iff.2 (Option.some.inj denotes), rfl⟩
    | _ => cases range

/-- A bit field holds the numbers below both powers of two, that of its width and that of a word. -/
theorem exists_ofWhole?_bit {width : UInt8} :
    (∃ w, (bit width).ofWhole? n = some w) ↔ 0 ≤ n ∧ n < 2 ^ min width.toNat 64 := by
  constructor
  · rintro ⟨w, h⟩
    obtain ⟨b, fits, found, rfl⟩ := ofWhole?_bit.1 h
    obtain rfl := uint64?_eq_some_iff.1 found
    refine ⟨Int.natCast_nonneg _, ?_⟩
    have bound : b.toNat < 2 ^ min width.toNat 64 := by
      rcases Nat.le_total width.toNat 64 with narrow | wide
      · rw [Nat.min_eq_left narrow]
        exact fits
      · rw [Nat.min_eq_right wide]
        exact b.toNat_lt
    exact_mod_cast bound
  · rintro ⟨positive, below⟩
    obtain ⟨m, rfl⟩ := Int.eq_ofNat_of_zero_le positive
    have small : m < 2 ^ min width.toNat 64 := by exact_mod_cast below
    have narrow : m < 2 ^ width.toNat :=
      Nat.lt_of_lt_of_le small (Nat.pow_le_pow_right (by decide) (Nat.min_le_left _ _))
    have word : m < 2 ^ 64 :=
      Nat.lt_of_lt_of_le small (Nat.pow_le_pow_right (by decide) (Nat.min_le_right _ _))
    have number : (UInt64.ofNat m).toNat = m := by
      rw [UInt64.toNat_ofNat', Nat.mod_eq_of_lt word]
    refine ⟨.bit (UInt64.ofNat m), (ofWhole?_eq_some_iff rfl).2 ⟨.bit ?_, ?_⟩⟩
    · rw [number]
      exact narrow
    · rw [Value.whole?, number]

/-- A type has a value for the numbers in its range, and for no others. -/
theorem exists_ofWhole?_iff (range : target.range? = some (low, high)) :
    (∃ w, target.ofWhole? n = some w) ↔ low ≤ n ∧ n < high := by
  cases target with
  | tinyInt | smallInt | int | bigInt | date | time | timestamp =>
    cases range
    simp [ofWhole?, int8?, int16?, int32?, int64?]
  | bit width =>
    cases range
    exact exists_ofWhole?_bit
  | _ => cases range

/-- All but the bit fields have values for numbers of 64 bits with a sign only. -/
theorem exists_int64_of_ofWhole? (range : target.range? = some (low, high))
    (signed : target.isBit = false) (found : target.ofWhole? n = some w) :
    ∃ i : Int64, i.toInt = n := by
  obtain ⟨lower, upper⟩ := (exists_ofWhole?_iff range).1 ⟨w, found⟩
  refine ⟨Int64.ofInt n, ?_⟩
  cases target with
  | tinyInt | smallInt | int | bigInt | date | time | timestamp =>
    cases range
    apply Int64.toInt_ofInt_of_le <;> omega
  | bit width => cases signed
  | _ => cases range

end DataType

/-! ### Casts of whole numbers -/

namespace Value

variable {v w : Value} {n low high : Int} {target : DataType}

/-- A cast answers with a value that is found, and is refused if there is none. -/
def Answers (answer : CastResult) (found : Option Value) : Prop :=
  found.elim (Refused answer) fun w => answer = .ok w

theorem Answers.ok {found : Option Value} (h : found = some w) : Answers (.ok w) found := by
  rw [h]
  rfl

theorem Answers.eq_ok_iff {answer : CastResult} {found : Option Value} (h : Answers answer found) :
    answer = .ok w ↔ found = some w := by
  cases found with
  | none =>
    obtain ⟨e, refused⟩ := h
    simp [refused]
  | some a =>
    have given : answer = .ok a := h
    simp [given]

theorem Answers.refused_iff {answer : CastResult} {found : Option Value}
    (h : Answers answer found) : Refused answer ↔ ¬∃ w, answer = .ok w := by
  cases found with
  | none =>
    obtain ⟨e, refused⟩ := h
    simp [Refused, refused]
  | some a =>
    have given : answer = .ok a := h
    simp [Refused, given]

theorem Answers.agree {a b : CastResult} {found : Option Value} (ha : Answers a found)
    (hb : Answers b found) : Agree a b := by
  cases found with
  | none => exact .inl ⟨ha, hb⟩
  | some w => exact .inr ⟨w, ha, hb⟩

theorem isNull_of_whole? (whole : v.whole? = some n) : v.isNull = false := by
  cases v with
  | null => cases whole
  | _ => rfl

/-- All but the bit fields stand for numbers of 64 bits with a sign, and are read as them. -/
theorem exists_toInt64? (whole : v.whole? = some n) (signed : v.kind ≠ .bit) :
    ∃ i : Int64, i.toInt = n ∧ v.toInt64? = .ok (some i) := by
  cases v with
  | boolean b =>
    cases whole
    cases b <;> exact ⟨_, rfl, rfl⟩
  | tinyInt i =>
    cases whole
    exact ⟨_, i.toInt_toInt64, rfl⟩
  | smallInt i =>
    cases whole
    exact ⟨_, i.toInt_toInt64, rfl⟩
  | int i | date i =>
    cases whole
    exact ⟨_, i.toInt_toInt64, rfl⟩
  | bigInt i | time i | timestamp i =>
    cases whole
    exact ⟨i, rfl, rfl⟩
  | bit b => exact absurd rfl signed
  | _ => cases whole

/-- A whole number is read as itself, if 64 bits with a sign hold it. -/
theorem toInt64?_of_whole? (whole : v.whole? = some n) : v.toInt64? = .ok (int64? n) := by
  by_cases signed : v.kind = .bit
  · cases v with
    | bit b =>
      cases whole
      rfl
    | _ => cases signed
  · obtain ⟨i, same, read⟩ := exists_toInt64? whole signed
    rw [read, int64?_eq_some_iff.2 same]

/-- A 64-bit integer that is narrowed answers with what the target has for the number. Where 64 bits
do not hold the number, neither does the target. -/
theorem castWhole_answers {name : String} {narrow : Int64 → Option Value}
    (range : target.range? = some (low, high)) (signed : target.isBit = false)
    (narrowed : ∀ i, narrow i = target.ofWhole? i.toInt) (whole : v.whole? = some n) :
    Answers (v.castWhole name narrow) (target.ofWhole? n) := by
  unfold castWhole
  rw [toInt64?_of_whole? whole]
  cases read : int64? n with
  | none =>
    have missing : target.ofWhole? n = none := by
      rw [Option.eq_none_iff_forall_ne_some]
      intro w found
      obtain ⟨i, same⟩ := DataType.exists_int64_of_ofWhole? range signed found
      rw [int64?_eq_some_iff.2 same] at read
      cases read
    rw [missing]
    exact ⟨_, rfl⟩
  | some i =>
    dsimp only
    rw [narrowed, int64?_eq_some_iff.1 read]
    cases target.ofWhole? n with
    | none => exact ⟨_, rfl⟩
    | some w => rfl

/-- A value of 64 bits is what its type has for its number. -/
theorem map_int64?_toInt (wrap : Int64 → Value) (i : Int64) :
    some (wrap i) = (int64? i.toInt).map wrap := by
  rw [int64?_eq_some_iff.2 rfl, Option.map_some]

/-- A bit field of a width is a word below the power of two. -/
theorem bit_fits_iff {width : UInt8} {b : UInt64} :
    (64 ≤ width.toNat ∨ b.toNat < 2 ^ width.toNat) ↔ b.toNat < 2 ^ width.toNat := by
  refine or_iff_right_of_imp fun wide => ?_
  exact Nat.lt_of_lt_of_le b.toNat_lt (Nat.pow_le_pow_right (by decide) wide)

/-- A bit field takes the number as a word without a sign, and then its width is looked at. -/
theorem castBit_answers {width : UInt8} (whole : v.whole? = some n) :
    Answers (v.castBit width) ((DataType.bit width).ofWhole? n) := by
  unfold castBit DataType.ofWhole?
  simp only [bit_fits_iff]
  cases v with
  | bit b =>
    cases whole
    rw [uint64?_eq_some_iff.2 rfl, Option.bind_some]
    dsimp only
    split
    · rfl
    · exact ⟨_, rfl⟩
  | boolean i | tinyInt i | smallInt i | int i | bigInt i | date i | time i | timestamp i =>
    obtain ⟨word, rfl, read⟩ := exists_toInt64? whole nofun
    dsimp only
    rw [read, Except.map, Option.bind_some]
    cases uint64? word.toInt with
    | none => exact ⟨_, rfl⟩
    | some b =>
      rw [Option.bind_some]
      dsimp only
      split
      · rfl
      · exact ⟨_, rfl⟩
  | _ => cases whole

/-- A cast of a whole number to a type of whole numbers answers with the value of the type that
stands for it. -/
theorem cast_answers (whole : v.whole? = some n) (range : target.range? = some (low, high)) :
    Answers (v.cast target) (target.ofWhole? n) := by
  unfold cast
  rw [isNull_of_whole? whole, if_neg Bool.false_ne_true]
  cases target with
  | tinyInt => exact castWhole_answers range rfl (fun _ => rfl) whole
  | smallInt => exact castWhole_answers range rfl (fun _ => rfl) whole
  | int => exact castWhole_answers range rfl (fun _ => rfl) whole
  | bigInt => exact castWhole_answers range rfl (map_int64?_toInt .bigInt) whole
  | date =>
    cases v with
    | date d => exact .ok ((DataType.ofWhole?_eq_some_iff range).2 ⟨.date d, whole⟩)
    | _ => exact castWhole_answers range rfl (fun _ => rfl) whole
  | time =>
    cases v with
    | time t => exact .ok ((DataType.ofWhole?_eq_some_iff range).2 ⟨.time t, whole⟩)
    | _ => exact castWhole_answers range rfl (map_int64?_toInt .time) whole
  | timestamp =>
    cases v with
    | timestamp t => exact .ok ((DataType.ofWhole?_eq_some_iff range).2 ⟨.timestamp t, whole⟩)
    | _ => exact castWhole_answers range rfl (map_int64?_toInt .timestamp) whole
  | bit width => exact castBit_answers whole
  | _ => cases range

/-- A whole number is cast to the one value of the target that stands for it. The cast succeeds
exactly if the number is in the target's range and is refused if it is not; and a cast made before,
to any other such type, does not change the answer. -/
theorem whole_cast_exact (whole : v.whole? = some n) (range : target.range? = some (low, high)) :
    (∀ w, v.cast target = .ok w ↔ w.HasType target ∧ w.whole? = some n) ∧
      ((∃ w, v.cast target = .ok w) ↔ low ≤ n ∧ n < high) ∧
      (Refused (v.cast target) ↔ ¬(low ≤ n ∧ n < high)) ∧
      ∀ u other, v.cast target = .ok u → other.range?.isSome = true →
        Agree (u.cast other) (v.cast other) := by
  have answers := cast_answers whole range
  have typed (w : Value) : v.cast target = .ok w ↔ w.HasType target ∧ w.whole? = some n :=
    answers.eq_ok_iff.trans (DataType.ofWhole?_eq_some_iff range)
  have succeeds : (∃ w, v.cast target = .ok w) ↔ low ≤ n ∧ n < high := by
    rw [← DataType.exists_ofWhole?_iff range]
    exact exists_congr fun w => answers.eq_ok_iff
  refine ⟨typed, succeeds, ?_, fun u other cast ranged => ?_⟩
  · rw [← succeeds]
    exact answers.refused_iff
  · obtain ⟨⟨low', high'⟩, range'⟩ := Option.isSome_iff_exists.1 ranged
    have same : u.whole? = some n := ((typed u).1 cast).2
    exact (cast_answers same range').agree (cast_answers whole range')

/-- The greatest word is a bit field of any width from 64 on, and no signed integer. A word below it
that is one comes back from there, by way of a time. -/
theorem whole_cast_exact_words :
    let greatest := bit 18446744073709551615
    let half := bit 9223372036854775807
    greatest.whole? = some 18446744073709551615 ∧ half.whole? = some 9223372036854775807 ∧
      Refused (greatest.cast .bigInt) ∧ (∃ w, greatest.cast (.bit 200) = .ok w) ∧
      half.cast .timestamp = .ok (timestamp 9223372036854775807) ∧
      Agree ((timestamp 9223372036854775807).cast (.bit 63)) (half.cast (.bit 63)) := by
  intro greatest half
  have number : greatest.whole? = some 18446744073709551615 := by decide
  have number' : half.whole? = some 9223372036854775807 := by decide
  have cast : half.cast .timestamp = .ok (timestamp 9223372036854775807) := by decide
  have long : DataType.bigInt.range? = some (-2 ^ 63, 2 ^ 63) := rfl
  have word : (DataType.bit 200).range? = some (0, 2 ^ 64) := rfl
  have instant : DataType.timestamp.range? = some (-2 ^ 63, 2 ^ 63) := rfl
  obtain ⟨-, -, refused, -⟩ := whole_cast_exact number long
  obtain ⟨-, wide, -⟩ := whole_cast_exact number word
  obtain ⟨-, -, -, again⟩ := whole_cast_exact number' instant
  exact ⟨number, number', refused.2 (by decide), wide.2 (by decide), cast, again _ _ cast rfl⟩

end Value

end ResultSink
