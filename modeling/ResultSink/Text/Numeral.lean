/-! Numerals: how whole numbers are written and read, and the grammar of numerals that may have a
point, an exponent, or name no number. -/

namespace ResultSink.Text

/-- A whole number in decimal digits, with `-` in front if it is negative. -/
def ofInt (n : Int) : String :=
  toString n

/-- A number in decimal digits, filled with zeros on the left up to `width` characters. -/
def padded (width n : Nat) : String :=
  let digits := Nat.toDigits 10 n
  String.ofList (List.replicate (width - digits.length) '0' ++ digits)

def binary (n : Nat) : String :=
  String.ofList (Nat.toDigits 2 n)

/-- Reads one or more decimal digits and nothing else. -/
def readNat? (cs : List Char) : Option Nat :=
  if cs.isEmpty then none
  else if cs.all Char.isDigit then some (Nat.ofDigitChars 10 cs 0)
  else none

/-- Reads decimal digits after at most one sign. -/
def readInt? : List Char → Option Int
  | '-' :: cs => (readNat? cs).map fun (n : Nat) => -(n : Int)
  | '+' :: cs => (readNat? cs).map fun (n : Nat) => (n : Int)
  | cs => (readNat? cs).map fun (n : Nat) => (n : Int)

theorem readNat?_toDigits (n : Nat) : readNat? (Nat.toDigits 10 n) = some n := by
  have nonempty : (Nat.toDigits 10 n).isEmpty = false := by
    have positive := Nat.length_toDigits_pos (b := 10) (n := n)
    cases hd : Nat.toDigits 10 n with
    | nil => rw [hd] at positive; cases positive
    | cons => rfl
  have digits : (Nat.toDigits 10 n).all Char.isDigit = true :=
    List.all_eq_true.2 fun c hc => Nat.isDigit_of_mem_toDigits (by decide) (by decide) hc
  simp [readNat?, nonempty, digits, Nat.ofDigitChars_ten_toDigits]

theorem toList_ofInt (n : Int) :
    (ofInt n).toList =
      if n < 0 then '-' :: Nat.toDigits 10 n.natAbs else Nat.toDigits 10 n.natAbs := by
  cases n with
  | ofNat n =>
    have text : ofInt (Int.ofNat n) = toString n := rfl
    rw [text, Nat.toString_eq_ofList_toDigits, String.toList_ofList]
    simp
  | negSucc n =>
    have text : ofInt (Int.negSucc n) = "-" ++ toString (n + 1) := rfl
    rw [text, Nat.toString_eq_ofList_toDigits, String.toList_append, String.toList_ofList]
    simp [Int.negSucc_lt_zero]

/-- A whole number is read back from its text. -/
theorem readInt?_ofInt (n : Int) : readInt? (ofInt n).toList = some n := by
  rw [toList_ofInt]
  split
  · next negative =>
    have size : -(n.natAbs : Int) = n := by
      rw [Int.ofNat_natAbs_of_nonpos (Int.le_of_lt negative), Int.neg_neg]
    rw [readInt?, readNat?_toDigits, Option.map_some, size]
  · next positive =>
    have first : ∀ c ∈ Nat.toDigits 10 n.natAbs, c ≠ '-' ∧ c ≠ '+' := by
      intro c hc
      have digit := Nat.isDigit_of_mem_toDigits (by decide) (by decide) hc
      constructor <;> rintro rfl <;> exact absurd digit (by decide)
    have back := readNat?_toDigits n.natAbs
    unfold readInt?
    split
    · next cs hd => exact absurd rfl (first '-' (by rw [hd]; exact List.mem_cons_self)).1
    · next cs hd => exact absurd rfl (first '+' (by rw [hd]; exact List.mem_cons_self)).2
    · rw [back, Option.map_some, Int.natAbs_of_nonneg (Int.not_lt.1 positive)]

/-- What a numeral denotes: no number, an infinity, or `digits` times a power of ten. -/
inductive Numeral where
  | nan
  | infinite (negative : Bool)
  | finite (negative : Bool) (digits : Nat) (exponent : Int)
  deriving DecidableEq

/-- The words, in any case, that stand for an infinity. -/
def infinityWords : List (List Char) :=
  ["inf".toList, "infinity".toList]

/-- Reads the exponent that may end a numeral: nothing, or `e` and a whole number. -/
def readExponent? : List Char → Option Int
  | [] => some 0
  | c :: cs => if c = 'e' ∨ c = 'E' then readInt? cs else none

/-- Reads the unsigned part of a numeral: digits with an optional point and exponent. -/
def readMagnitude? (cs : List Char) : Option (Nat × Int) :=
  let whole := cs.takeWhile Char.isDigit
  let rest := cs.dropWhile Char.isDigit
  let (fraction, rest) : List Char × List Char :=
    match rest with
    | '.' :: rest => (rest.takeWhile Char.isDigit, rest.dropWhile Char.isDigit)
    | rest => ([], rest)
  if whole.isEmpty && fraction.isEmpty then none
  else (readExponent? rest).map fun e =>
    (Nat.ofDigitChars 10 (whole ++ fraction) 0, e - fraction.length)

/-- Reads an unsigned numeral, words for an infinity and for no number included. -/
def readUnsigned? (negative : Bool) (cs : List Char) : Option Numeral :=
  let word := cs.map Char.toLower
  if word = "nan".toList then some .nan
  else if infinityWords.contains word then some (.infinite negative)
  else (readMagnitude? cs).map fun (digits, exponent) => .finite negative digits exponent

/-- Reads a numeral after at most one sign. -/
def readNumeral? : List Char → Option Numeral
  | '-' :: cs => readUnsigned? true cs
  | '+' :: cs => readUnsigned? false cs
  | cs => readUnsigned? false cs

end ResultSink.Text
