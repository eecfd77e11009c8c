import ResultSink.Proofs.Value.Integers

/-! Values that come back from their texts. A whole number is written in digits, and the reader
takes the digits for the number they were written for, over all 64 bits; so truth values, whole
numbers, dates and times pass through every type of texts that takes their text. -/

namespace ResultSink

namespace Text

/-! ### Texts without blanks -/

/-- No character from `!` to `~` is blank. -/
theorem isBlank_of_visible {c : Char} (low : 0x21 ≤ c.toNat) (high : c.toNat ≤ 0x7e) :
    isBlank c = false := by
  simp only [isBlank, blankRanges, List.any_cons, List.any_nil, Bool.or_false,
    Bool.or_eq_false_iff, Bool.and_eq_false_iff, decide_eq_false_iff_not]
  omega

theorem isBlank_of_isDigit {c : Char} (h : c.isDigit = true) : isBlank c = false := by
  have range : 48 ≤ c.toNat ∧ c.toNat ≤ 57 := by
    simpa [Char.isDigit, UInt32.le_iff_toNat_le] using h
  apply isBlank_of_visible
  · omega
  · omega

theorem dropWhile_isBlank {cs : List Char} (h : ∀ c ∈ cs, isBlank c = false) :
    cs.dropWhile isBlank = cs := by
  cases cs with
  | nil => rfl
  | cons c cs =>
    apply List.dropWhile_cons_of_neg
    simp [h c List.mem_cons_self]

theorem trim_eq_self {cs : List Char} (h : ∀ c ∈ cs, isBlank c = false) : trim cs = cs := by
  have back : ∀ c ∈ cs.reverse, isBlank c = false := fun c hc => h c (List.mem_reverse.1 hc)
  rw [trim, dropWhile_isBlank h, dropWhile_isBlank back, List.reverse_reverse]

/-- A whole number is written with a sign and digits, and no blanks. -/
theorem isBlank_of_mem_ofInt {n : Int} {c : Char} (hc : c ∈ (ofInt n).toList) :
    isBlank c = false := by
  have digits : ∀ d ∈ Nat.toDigits 10 n.natAbs, isBlank d = false := fun d hd =>
    isBlank_of_isDigit (Nat.isDigit_of_mem_toDigits (by decide) (by decide) hd)
  rw [toList_ofInt] at hc
  split at hc
  · rcases List.mem_cons.1 hc with rfl | digit
    · rfl
    · exact digits c digit
  · exact digits c hc

end Text

/-- A whole number is read back from its text, which has no blanks to lose. -/
theorem readWhole?_ofInt (n : Int) : readWhole? (Text.ofInt n) = some n := by
  rw [readWhole?, Text.trim_eq_self fun _ => Text.isBlank_of_mem_ofInt, Text.readInt?_ofInt]

/-! ### Types -/

/-- The type of the values of a kind, for the kinds of truth values, whole numbers, dates and
times. -/
def Kind.plainType? : Kind → Option DataType
  | boolean => some .boolean
  | tinyInt => some .tinyInt
  | smallInt => some .smallInt
  | int => some .int
  | bigInt => some .bigInt
  | date => some .date
  | time => some .time
  | timestamp => some .timestamp
  | null | float | double | decimal | string | bytes | bit => none

/-- A type holds texts, of any length or up to a number of characters. -/
inductive DataType.HoldsTexts : DataType → Option UInt32 → Prop
  | text : HoldsTexts .text none
  | char (limit : Option UInt32) : HoldsTexts (.char limit) limit
  | varchar (limit : Option UInt32) : HoldsTexts (.varchar limit) limit

namespace Value

variable {v : Value} {target through : DataType} {limit : Option UInt32}

theorem isNull_of_plainType? (own : v.kind.plainType? = some target) : v.isNull = false := by
  cases v with
  | null => cases own
  | _ => rfl

/-! ### Into a text -/

/-- A value becomes its text in a type of texts, and is refused if its text is too long. -/
theorem cast_holdsTexts (present : v.isNull = false) (texts : through.HoldsTexts limit) :
    v.cast through = if ∃ most ∈ limit, most.toNat < v.text.length then
      .error (.refused (.tooLong through)) else .ok (.string v.text) := by
  have shown : ¬v.isNull = true := by simp [present]
  cases texts with
  | text =>
    rw [cast, if_neg shown, if_neg (by simp)]
  | char limit | varchar limit =>
    rw [cast, if_neg shown]
    cases limit with
    | none => simp [castText]
    | some most => simp [castText]

/-! ### And back -/

/-- The text of a 64-bit integer stands for that integer, the least and the greatest included. -/
theorem toInt64?_ofInt (i : Int64) : (string (Text.ofInt i.toInt)).toInt64? = .ok (some i) := by
  have narrow : int64? i.toInt = some i := int64?_eq_some_iff.2 rfl
  rw [toInt64?, readWhole?_ofInt, Option.bind_some, narrow]

/-- The text of a whole number is narrowed like the number. -/
theorem castWhole_ofInt {name : String} {narrow : Int64 → Option Value} {i : Int64}
    (held : narrow i = some v) : (string (Text.ofInt i.toInt)).castWhole name narrow = .ok v := by
  rw [castWhole, toInt64?_ofInt]
  dsimp only
  rw [held]
  rfl

/-- The text of a whole number is read as the value that a type has for the number. -/
theorem cast_ofInt {i : Int64} (held : target.ofWhole? i.toInt = some v)
    (signed : target.isBit = false) : (string (Text.ofInt i.toInt)).cast target = .ok v := by
  unfold cast
  rw [if_neg (by simp [isNull])]
  cases target with
  | tinyInt | smallInt | int | date => exact castWhole_ofInt held
  | bigInt => exact castWhole_ofInt ((map_int64?_toInt .bigInt i).trans held)
  | time => exact castWhole_ofInt ((map_int64?_toInt .time i).trans held)
  | timestamp => exact castWhole_ofInt ((map_int64?_toInt .timestamp i).trans held)
  | bit width => cases signed
  | _ => cases held

/-- A value that is written as the whole number it stands for is read back by its own type. -/
theorem cast_text_of_whole? {n low high : Int} (whole : v.whole? = some n)
    (written : v.text = Text.ofInt n) (typed : v.HasType target)
    (range : target.range? = some (low, high)) (signed : target.isBit = false) :
    (string v.text).cast target = .ok v := by
  have plain : v.kind ≠ .bit := by
    intro bits
    cases typed with
    | bit => cases signed
    | _ => cases bits
  obtain ⟨i, rfl, -⟩ := exists_toInt64? whole plain
  rw [written]
  exact cast_ofInt ((DataType.ofWhole?_eq_some_iff range).2 ⟨typed, whole⟩) signed

/-- A truth value, whole number, date or time is read back from its text. -/
theorem cast_text (own : v.kind.plainType? = some target) :
    (string v.text).cast target = .ok v := by
  cases v with
  | boolean b =>
    cases own
    cases b with
    | false => decide +kernel
    | true => decide +kernel
  | tinyInt n =>
    cases own
    exact cast_text_of_whole? rfl rfl (.tinyInt n) rfl rfl
  | smallInt n =>
    cases own
    exact cast_text_of_whole? rfl rfl (.smallInt n) rfl rfl
  | int n =>
    cases own
    exact cast_text_of_whole? rfl rfl (.int n) rfl rfl
  | bigInt n =>
    cases own
    exact cast_text_of_whole? rfl rfl (.bigInt n) rfl rfl
  | date n =>
    cases own
    exact cast_text_of_whole? rfl rfl (.date n) rfl rfl
  | time n =>
    cases own
    exact cast_text_of_whole? rfl rfl (.time n) rfl rfl
  | timestamp n =>
    cases own
    exact cast_text_of_whole? rfl rfl (.timestamp n) rfl rfl
  | _ => cases own

/-- Truth values, whole numbers, dates and times survive a round trip through text. A type of texts
takes the text of such a value if it is not longer than the type allows, and the text read by the
value's own type is the value; a longer text is refused. -/
theorem text_round_trip (own : v.kind.plainType? = some target)
    (texts : through.HoldsTexts limit) :
    ((∀ most ∈ limit, v.text.length ≤ most.toNat) →
      v.cast through = .ok (.string v.text) ∧ (string v.text).cast target = .ok v) ∧
    ((∃ most ∈ limit, most.toNat < v.text.length) →
      v.cast through = .error (.refused (.tooLong through))) := by
  have written := cast_holdsTexts (isNull_of_plainType? own) texts
  constructor
  · intro short
    have fits : ¬∃ most ∈ limit, most.toNat < v.text.length := by
      rintro ⟨most, there, long⟩
      exact absurd (short most there) (Nat.not_le_of_lt long)
    rw [if_neg fits] at written
    exact ⟨written, cast_text own⟩
  · intro long
    rw [written, if_pos long]

/-- The least 64-bit integer has a text of twenty characters. -/
theorem text_round_trip_least :
    let least := bigInt (-9223372036854775808)
    least.cast (.varchar (some 20)) = .ok (.string "-9223372036854775808") ∧
      (string "-9223372036854775808").cast .bigInt = .ok least ∧
      least.cast (.char (some 19)) = .error (.refused (.tooLong (.char (some 19)))) := by
  intro least
  have written : least.text = "-9223372036854775808" := by decide +kernel
  have length : "-9223372036854775808".length = 20 := by decide +kernel
  obtain ⟨taken, -⟩ := text_round_trip (v := least) rfl (.varchar (some 20))
  obtain ⟨-, refused⟩ := text_round_trip (v := least) rfl (.char (some 19))
  rw [written, length] at taken refused
  obtain ⟨there, back⟩ := taken (by simp)
  exact ⟨there, back, refused (by simp)⟩

end Value

end ResultSink
