import ResultSink.Value.Cast

/-! Values of a type. `HasType` lists, type by type, what a value has to look like: its kind, and
the limits that the type declares. A cast gives NULL or a value of its target, and it leaves a value
that has the target's type as it is. -/

namespace ResultSink

theorem orRefuse_map_eq_ok {α β : Type} {e : CastError} {found : Option α} {f : α → β} {b : β}
    (h : (orRefuse e found).map f = .ok b) : ∃ a, found = some a ∧ f a = b := by
  cases found with
  | none => cases h
  | some a => exact ⟨a, rfl, Except.ok.inj h⟩

theorem int8?_toInt (n : Int8) : int8? n.toInt = some n := by
  rw [int8?, if_pos ⟨n.le_toInt, n.toInt_lt⟩, Int8.ofInt_toInt]

theorem int16?_toInt (n : Int16) : int16? n.toInt = some n := by
  rw [int16?, if_pos ⟨n.le_toInt, n.toInt_lt⟩, Int16.ofInt_toInt]

theorem int32?_toInt (n : Int32) : int32? n.toInt = some n := by
  rw [int32?, if_pos ⟨n.le_toInt, n.toInt_lt⟩, Int32.ofInt_toInt]

namespace Value

/-- A value has a type: it is of the type's kind and within the limits that the type declares. -/
inductive HasType : Value → DataType → Prop
  | boolean (b : Bool) : HasType (.boolean b) .boolean
  | tinyInt (n : Int8) : HasType (.tinyInt n) .tinyInt
  | smallInt (n : Int16) : HasType (.smallInt n) .smallInt
  | int (n : Int32) : HasType (.int n) .int
  | bigInt (n : Int64) : HasType (.bigInt n) .bigInt
  | float (x : Single) : HasType (.float x) .float
  | double (x : Double) : HasType (.double x) .double
  | decimal {n : Int128} {precision scale : Option UInt8} :
      (scale.getD 0).toNat ≤ maxDecimalScale →
      (∀ digits ∈ precision, n.toInt.natAbs < 10 ^ digits.toNat) →
      HasType (.decimal n (scale.getD 0)) (.decimal precision scale)
  | char {s : String} {length : Option UInt32} : (∀ limit ∈ length, s.length ≤ limit.toNat) →
      HasType (.string s) (.char length)
  | varchar {s : String} {length : Option UInt32} : (∀ limit ∈ length, s.length ≤ limit.toNat) →
      HasType (.string s) (.varchar length)
  | text (s : String) : HasType (.string s) .text
  | blob (b : ByteArray) : HasType (.bytes b) .blob
  | date (d : Int32) : HasType (.date d) .date
  | time (t : Int64) : HasType (.time t) .time
  | timestamp (t : Int64) : HasType (.timestamp t) .timestamp
  | bit {b : UInt64} {width : UInt8} : b.toNat < 2 ^ width.toNat → HasType (.bit b) (.bit width)

variable {v w : Value}

theorem HasType.not_null {target : DataType} (h : v.HasType target) : v.isNull = false := by
  cases h <;> rfl

/-! ### What a cast gives -/

theorem castWhole_eq_ok {α : Type} {target : String} (narrow : Int64 → Option α) (f : α → Value)
    (h : v.castWhole target (fun n => (narrow n).map f) = .ok w) : ∃ a, w = f a := by
  unfold castWhole at h
  split at h
  · cases h
  · cases h
  · next n _ =>
    dsimp only at h
    cases narrowed : narrow n with
    | none =>
      rw [narrowed] at h
      cases h
    | some a =>
      rw [narrowed] at h
      exact ⟨a, (Except.ok.inj h).symm⟩

theorem castFloat_eq_ok (h : v.castFloat = .ok w) : ∃ x, w = .float x := by
  unfold castFloat at h
  split at h
  · cases h
  · split at h
    · cases h
    · cases h
      exact ⟨_, rfl⟩

theorem fitsPrecision_iff {n : Int128} {precision : Option UInt8} :
    fitsPrecision n precision = true ↔
      ∀ digits ∈ precision, n.toInt.natAbs < 10 ^ digits.toNat := by
  cases precision <;> simp [fitsPrecision]

theorem castDecimal_eq_ok {precision : Option UInt8} {scale : UInt8}
    (h : v.castDecimal precision scale = .ok w) :
    ∃ n, w = .decimal n scale ∧ scale.toNat ≤ maxDecimalScale ∧
      ∀ digits ∈ precision, n.toInt.natAbs < 10 ^ digits.toNat := by
  unfold castDecimal at h
  split at h
  · cases h
  · next small =>
    split at h
    · cases h
    · cases h
    · next n unscaled =>
      split at h
      · next fits =>
        cases h
        exact ⟨n, rfl, Nat.le_of_not_lt small, fitsPrecision_iff.1 fits⟩
      · cases h

theorem castText_eq_ok {target : DataType} {length : Option UInt32}
    (h : v.castText target length = .ok w) :
    w = .string v.text ∧ ∀ limit ∈ length, v.text.length ≤ limit.toNat := by
  unfold castText at h
  split at h
  · next n =>
    split at h
    · cases h
    · next short =>
      cases h
      refine ⟨rfl, fun limit hl => ?_⟩
      cases hl
      exact Nat.le_of_not_lt short
  · cases h
    exact ⟨rfl, fun limit none => nomatch none⟩

theorem castBit_eq_ok {width : UInt8} (h : v.castBit width = .ok w) :
    ∃ b : UInt64, w = .bit b ∧ b.toNat < 2 ^ width.toNat := by
  unfold castBit at h
  dsimp only at h
  split at h
  · cases h
  · cases h
  · next b bits =>
    split at h
    · next fits =>
      cases h
      refine ⟨b, rfl, ?_⟩
      rcases fits with wide | small
      · exact Nat.lt_of_lt_of_le b.toNat_lt (Nat.pow_le_pow_right (by decide) wide)
      · exact small
    · cases h

/-- A cast of a value that is not NULL gives a value of its target. -/
theorem hasType_of_cast {target : DataType} (present : v.isNull = false)
    (h : v.cast target = .ok w) : w.HasType target := by
  unfold cast at h
  rw [present, if_neg Bool.false_ne_true] at h
  cases target with
  | boolean =>
    dsimp only at h
    split at h
    · next s =>
      obtain ⟨b, -, rfl⟩ := orRefuse_map_eq_ok h
      exact .boolean b
    · cases h
      exact .boolean _
  | tinyInt =>
    obtain ⟨n, rfl⟩ := castWhole_eq_ok (fun n => int8? n.toInt) .tinyInt h
    exact .tinyInt n
  | smallInt =>
    obtain ⟨n, rfl⟩ := castWhole_eq_ok (fun n => int16? n.toInt) .smallInt h
    exact .smallInt n
  | int =>
    obtain ⟨n, rfl⟩ := castWhole_eq_ok (fun n => int32? n.toInt) .int h
    exact .int n
  | bigInt =>
    obtain ⟨n, rfl⟩ := castWhole_eq_ok some .bigInt h
    exact .bigInt n
  | float =>
    obtain ⟨x, rfl⟩ := castFloat_eq_ok h
    exact .float x
  | double =>
    obtain ⟨x, -, rfl⟩ := orRefuse_map_eq_ok h
    exact .double x
  | decimal precision scale =>
    obtain ⟨n, rfl, small, fits⟩ := castDecimal_eq_ok h
    exact .decimal small fits
  | char length =>
    obtain ⟨rfl, fits⟩ := castText_eq_ok h
    exact .char fits
  | varchar length =>
    obtain ⟨rfl, fits⟩ := castText_eq_ok h
    exact .varchar fits
  | text =>
    cases h
    exact .text v.text
  | blob =>
    dsimp only at h
    split at h
    · cases h
      exact .blob _
    · cases h
      exact .blob _
    · cases h
  | date =>
    dsimp only at h
    split at h
    · cases h
      exact .date _
    · obtain ⟨d, rfl⟩ := castWhole_eq_ok (fun n => int32? n.toInt) .date h
      exact .date d
  | time =>
    dsimp only at h
    split at h
    · cases h
      exact .time _
    · obtain ⟨t, rfl⟩ := castWhole_eq_ok some .time h
      exact .time t
  | timestamp =>
    dsimp only at h
    split at h
    · cases h
      exact .timestamp _
    · obtain ⟨t, rfl⟩ := castWhole_eq_ok some .timestamp h
      exact .timestamp t
  | bit width =>
    obtain ⟨b, rfl, fits⟩ := castBit_eq_ok h
    exact .bit fits

/-! ### Casts of values that have the type -/

theorem castDecimal_decimal {n : Int128} {precision : Option UInt8} {scale : UInt8}
    (small : scale.toNat ≤ maxDecimalScale)
    (fits : ∀ digits ∈ precision, n.toInt.natAbs < 10 ^ digits.toNat) :
    (Value.decimal n scale).castDecimal precision scale = .ok (.decimal n scale) := by
  have unscaled : (Value.decimal n scale).unscaledAt scale.toNat = .ok (some n) := by
    simp [unscaledAt]
  rw [castDecimal, if_neg (Nat.not_lt_of_le small), unscaled]
  dsimp only
  rw [if_pos (fitsPrecision_iff.2 fits)]

theorem castText_string {s : String} {target : DataType} {length : Option UInt32}
    (fits : ∀ limit ∈ length, s.length ≤ limit.toNat) :
    (Value.string s).castText target length = .ok (.string s) := by
  cases length with
  | none => rfl
  | some limit => exact if_neg (Nat.not_lt_of_le (fits limit rfl))

/-- A value that has a type is left as it is by a cast to it. Floating-point numbers of 32 bits,
which a cast takes through 64 bits, are not spoken of. -/
theorem HasType.cast_eq {target : DataType} (h : v.HasType target) (notFloat : target ≠ .float) :
    v.cast target = .ok v := by
  cases h with
  | float => exact absurd rfl notFloat
  | boolean b => rfl
  | tinyInt n => simp [cast, isNull, castWhole, toInt64?, Int8.toInt_toInt64, int8?_toInt, orRefuse]
  | smallInt n =>
    simp [cast, isNull, castWhole, toInt64?, Int16.toInt_toInt64, int16?_toInt, orRefuse]
  | int n => simp [cast, isNull, castWhole, toInt64?, Int32.toInt_toInt64, int32?_toInt, orRefuse]
  | bigInt n => rfl
  | double x => rfl
  | decimal small fits => exact castDecimal_decimal small fits
  | char fits => exact castText_string fits
  | varchar fits => exact castText_string fits
  | text s => rfl
  | blob b => rfl
  | date d => rfl
  | time t => rfl
  | timestamp t => rfl
  | bit small => simp [cast, isNull, castBit, small]

/-! ### Casts that are made twice -/

theorem eq_null_iff : v = .null ↔ v.isNull = true := by
  cases v <;> simp [isNull]

theorem cast_null (target : DataType) : Value.null.cast target = .ok .null := rfl

/-- Nothing but NULL becomes NULL. -/
theorem cast_eq_null_iff {target : DataType} (h : v.cast target = .ok w) :
    w = .null ↔ v = .null := by
  constructor
  · intro null
    subst null
    cases present : v.isNull with
    | true => exact eq_null_iff.2 present
    | false =>
      have typed := hasType_of_cast present h
      cases typed.not_null
  · rintro rfl
    exact (Except.ok.inj h).symm

/-- A cast takes the values onto those of its target: NULL alone becomes NULL, whatever else comes
out has the target's type, and cast again it comes out as it is. -/
theorem cast_retracts {target : DataType} (h : v.cast target = .ok w) :
    (w = .null ↔ v = .null) ∧ (v ≠ .null → w.HasType target) ∧
      (target ≠ .float → w.cast target = .ok w) := by
  have typed : v ≠ .null → w.HasType target := by
    intro some
    apply hasType_of_cast _ h
    rw [Bool.eq_false_iff]
    exact fun null => some (eq_null_iff.2 null)
  refine ⟨cast_eq_null_iff h, typed, fun notFloat => ?_⟩
  by_cases null : v = .null
  · rw [(cast_eq_null_iff h).2 null, cast_null]
  · exact (typed null).cast_eq notFloat

/-- A decimal that is rounded to one place has four digits there, and is not rounded again. -/
theorem cast_retracts_decimal :
    let w : Value := .decimal { toInt := 1235 } 1
    (Value.decimal { toInt := 1234567 } 4).cast (.decimal (some 4) (some 1)) = .ok w ∧
      w ≠ .null ∧ w.HasType (.decimal (some 4) (some 1)) ∧
      w.cast (.decimal (some 4) (some 1)) = .ok w := by
  intro w
  have cast : (Value.decimal { toInt := 1234567 } 4).cast (.decimal (some 4) (some 1)) = .ok w := by
    rfl
  obtain ⟨null, typed, again⟩ := cast_retracts cast
  exact ⟨cast, fun absent => (nomatch null.1 absent), typed (by decide), again (by decide)⟩

end Value

end ResultSink
