import ResultSink.Proofs.Value.Integers
import ResultSink.Proofs.Floating.Difference
import ResultSink.Proofs.Value.HashData

/-! Equality and hashes. A hasher is fed the same bytes only by values that are the same, while
equality also joins values that differ: the two zeros, decimals, and values of two kinds whose
numbers are near. Where equality is by content alone it is an equivalence that hashes agree with;
everywhere else values that are equal feed a hasher different bytes, and nearness is not
transitive. -/

namespace ResultSink

namespace Floating

variable {f : Format} {x y z : Floating f}

theorem equals_comm (x y : Floating f) : y.equals x = x.equals y := by
  rw [Bool.eq_iff_iff, equals_iff, equals_iff]
  exact ⟨fun ⟨hy, hx, same⟩ => ⟨hx, hy, same.symm⟩, fun ⟨hx, hy, same⟩ => ⟨hy, hx, same.symm⟩⟩

theorem equals_self (x : Floating f) : x.equals x = !x.isNaN := by
  rw [Bool.eq_iff_iff, equals_iff]
  cases x.isNaN <;> simp

theorem equals_trans (first : x.equals y = true) (second : y.equals z = true) :
    x.equals z = true := by
  obtain ⟨hx, -, same⟩ := equals_iff.1 first
  obtain ⟨-, hz, same'⟩ := equals_iff.1 second
  exact equals_iff.2 ⟨hx, hz, same.trans same'⟩

end Floating

/-- The kinds whose values are equal only if they are the same. -/
def Kind.isPlain : Kind → Bool
  | float | double | decimal => false
  | _ => true

/-- The kinds with values that stand for a number: texts can be numerals. -/
def Kind.mayCount : Kind → Bool
  | string => true
  | k => k.isNumber

namespace Value

variable {a b c : Value} {k : Kind} {m n : ℤ}

/-! ### Equality both ways -/

theorem equalsByNumber_comm (a b : Value) : b.equalsByNumber a = a.equalsByNumber b := by
  unfold equalsByNumber
  cases a.toDouble? <;> cases b.toDouble? <;> first | rfl | exact near_comm _ _

theorem equalsByNumber_of_isSome {x y : Double} (hx : a.toDouble? = some x)
    (hy : b.toDouble? = some y) : a.equalsByNumber b = near x y := by
  rw [equalsByNumber, hx, hy]

theorem equalsByNumber_of_none (h : a.toDouble? = none ∨ b.toDouble? = none) :
    a.equalsByNumber b = false := by
  unfold equalsByNumber
  rcases h with none | none
  · rw [none]
  · rw [none]
    cases a.toDouble? <;> rfl

/-- Values of two kinds are equal by their numbers. -/
theorem equals_of_not_alike (h : ¬Alike a b) : a.equals b = a.equalsByNumber b := by
  unfold equals
  split
  case h_2 => exact (equalsByNumber_of_none (.inl rfl)).symm
  case h_3 => exact (equalsByNumber_of_none (.inr rfl)).symm
  all_goals first | rfl | exact absurd (by constructor) h

/-- Within a plain kind only the same values are equal. -/
theorem Alike.equals_iff_eq (h : Alike a b) (plain : a.kind.isPlain = true) :
    a.equals b = true ↔ a = b := by
  cases h with
  | float | double | decimal => cases plain
  | null => exact iff_of_true rfl rfl
  | _ => simp [equals]

theorem equals_comm (a b : Value) : b.equals a = a.equals b := by
  by_cases alike : Alike a b
  · cases plain : a.kind.isPlain with
    | true =>
      have plain' : b.kind.isPlain = true := alike_iff.1 alike ▸ plain
      rw [Bool.eq_iff_iff, alike.equals_iff_eq plain, alike.symm.equals_iff_eq plain', eq_comm]
    | false =>
      cases alike with
      | float x y => exact x.equals_comm y
      | double x y => exact x.equals_comm y
      | decimal m n scale scale' =>
        exact equalsByNumber_comm (.decimal m scale) (.decimal n scale')
      | _ => cases plain
  · have alike' : ¬Alike b a := fun h => alike h.symm
    rw [equals_of_not_alike alike, equals_of_not_alike alike', equalsByNumber_comm]

/-- Only a word that denotes no number differs from itself. -/
theorem equals_self (a : Value) : a.equals a = !a.isNaN := by
  cases a with
  | float x => exact x.equals_self
  | double x => exact x.equals_self
  | decimal n scale => exact (near_self _).trans (isFinite_decimal n scale)
  | null => rfl
  | _ => simp [equals, isNaN]

/-! ### Kinds that hashes agree with -/

/-- The zero of a kind with numbers. -/
def zero : Kind → Value
  | .boolean => boolean false
  | .tinyInt => tinyInt 0
  | .smallInt => smallInt 0
  | .int => int 0
  | .bigInt => bigInt 0
  | .float => float .zero
  | .double => double .zero
  | .decimal => decimal { toInt := 0 } 0
  | .string => string "0"
  | .bit => bit 0
  | .null | .bytes | .date | .time | .timestamp => null

theorem kind_zero (h : k.mayCount = true) : (zero k).kind = k := by
  cases k <;> first | rfl | cases h

theorem toDouble?_zero (h : k.mayCount = true) :
    (zero k).toDouble? = some Floating.zero := by
  cases k <;> first | decide | cases h

theorem toDouble?_of_not_mayCount (h : a.kind.mayCount = false) : a.toDouble? = none := by
  cases a <;> first | rfl | cases h

/-- Two kinds agree with hashes exactly if no equal values of them differ: a plain kind with itself,
and kinds of which one has no numbers. -/
theorem equal_hashed_iff (j k : Kind) :
    (∀ a b : Value, a.kind = j → b.kind = k → a.equals b = true → a.hashed = b.hashed) ↔
      if j = k then j.isPlain = true else ¬(j.mayCount = true ∧ k.mayCount = true) := by
  split
  · next same =>
    subst same
    constructor
    · intro agree
      -- The zeros of two signs, and of two scales.
      by_contra other
      cases j with
      | float =>
        have hashes := agree (float .zero) (float (.ofMagnitude true 0)) rfl rfl (by decide)
        exact absurd hashes (by decide)
      | double =>
        have hashes := agree (double .zero) (double (.ofMagnitude true 0)) rfl rfl (by decide)
        exact absurd hashes (by decide)
      | decimal =>
        have hashes := agree (decimal { toInt := 0 } 0) (decimal { toInt := 0 } 1) rfl rfl
          (by decide)
        exact absurd hashes (by decide)
      | _ => exact other rfl
    · rintro plain a b rfl kind same
      exact hashed_eq_iff.2 (((alike_iff.2 kind.symm).equals_iff_eq plain).1 same)
  · next differ =>
    constructor
    · rintro agree ⟨hj, hk⟩
      have apart : ¬Alike (zero j) (zero k) := by
        rw [alike_iff, kind_zero hj, kind_zero hk]
        exact differ
      have equal : (zero j).equals (zero k) = true := by
        rw [equals_of_not_alike apart, equalsByNumber_of_isSome (toDouble?_zero hj)
          (toDouble?_zero hk)]
        decide
      have same := hashed_eq_iff.1 (agree _ _ (kind_zero hj) (kind_zero hk) equal)
      exact apart (alike_iff.2 (congrArg kind same))
    · rintro lacks a b rfl rfl same
      have apart : ¬Alike a b := fun alike => differ (alike_iff.1 alike)
      have missing : a.toDouble? = none ∨ b.toDouble? = none := by
        rw [not_and_or, Bool.not_eq_true, Bool.not_eq_true] at lacks
        exact lacks.imp toDouble?_of_not_mayCount toDouble?_of_not_mayCount
      rw [equals_of_not_alike apart, equalsByNumber_of_none missing] at same
      cases same

/-! ### Transitivity -/

/-- Equality within a kind is transitive, but for decimals: small ones are near in a chain. -/
theorem equals_trans_iff (k : Kind) :
    (∀ a b c : Value, a.kind = k → b.kind = k → c.kind = k → a.equals b = true →
      b.equals c = true → a.equals c = true) ↔ k ≠ .decimal := by
  constructor
  · rintro chain rfl
    have near := chain (decimal { toInt := 0 } 16) (decimal { toInt := 2 } 16)
      (decimal { toInt := 4 } 16) rfl rfl rfl (by decide +kernel) (by decide +kernel)
    exact absurd near (by decide +kernel)
  · rintro other a b c rfl kind kind' first second
    have ab := alike_iff.2 kind.symm
    have bc := alike_iff.2 (kind.trans kind'.symm)
    cases plain : a.kind.isPlain with
    | true =>
      rw [(ab.equals_iff_eq plain).1 first]
      exact second
    | false =>
      cases ab with
      | float x y =>
        cases bc with
        | float _ z => exact Floating.equals_trans first second
      | double x y =>
        cases bc with
        | double _ z => exact Floating.equals_trans first second
      | decimal => exact absurd rfl other
      | _ => cases plain

theorem toDouble?_of_whole? (ha : a.kind.isNumber = true) (whole : a.whole? = some m) :
    a.toDouble? = some (Floating.ofInt m) := by
  cases a with
  | boolean | tinyInt | smallInt | int | bigInt | bit =>
    cases whole
    rfl
  | float | double | decimal => cases whole
  | _ => cases ha

/-- Whole numbers of any kinds are equal if they are the same number, as long as doubles hold
them. -/
theorem equals_of_whole? (ha : a.kind.isNumber = true) (hb : b.kind.isNumber = true)
    (whole : a.whole? = some m) (whole' : b.whole? = some n) (small : m.natAbs < 2 ^ 53)
    (small' : n.natAbs < 2 ^ 53) : a.equals b = decide (m = n) := by
  by_cases alike : Alike a b
  · cases alike with
    | boolean p q =>
      cases whole
      cases whole'
      cases p <;> cases q <;> rfl
    | tinyInt | smallInt | int | bigInt | bit =>
      cases whole
      cases whole'
      simp only [equals, Int8.toInt_inj, Int16.toInt_inj, Int32.toInt_inj, Int64.toInt_inj,
        Nat.cast_inj, UInt64.toNat_inj]
    | float | double | decimal => cases whole
    | _ => cases ha
  · rw [equals_of_not_alike alike, equalsByNumber_of_isSome (toDouble?_of_whole? ha whole)
      (toDouble?_of_whole? hb whole'), near_ofInt small small']

end Value

/-! ### Rows -/

namespace Row

theorem equals_comm (r s : Row) : s.equals r = r.equals s := by
  induction r generalizing s with
  | nil => cases s <;> rfl
  | cons a r ih =>
    cases s with
    | nil => rfl
    | cons b s => rw [equals, equals, a.equals_comm, ih]

/-- Rows of plain columns are equal only if they are the same. -/
theorem equals_iff_eq {kinds : List Kind} {r s : Row} (plain : ∀ k ∈ kinds, k.isPlain = true)
    (hr : List.Forall₂ (fun k v => v = .null ∨ v.kind = k) kinds r)
    (hs : List.Forall₂ (fun k v => v = .null ∨ v.kind = k) kinds s) :
    r.equals s = true ↔ r = s := by
  induction hr generalizing s with
  | nil =>
    cases hs
    exact iff_of_true rfl rfl
  | @cons k a kinds r ha _ ih =>
    cases hs with
    | @cons _ b _ s hb rest' =>
      rw [List.forall_mem_cons] at plain
      have values : a.equals b = true ↔ a = b := by
        rcases ha with rfl | rfl
        · exact Value.null_equals_iff.trans eq_comm
        · rcases hb with rfl | kind
          · exact Value.equals_null_iff
          · exact (Value.alike_iff.2 kind.symm).equals_iff_eq plain.1
      rw [equals, Bool.and_eq_true, values, ih plain.2 rest', List.cons.injEq]

end Row

namespace Value

/-- Equality and hashes of values and rows. Equality is the same both ways, and only words without
a number differ from themselves. Only values, and rows, that are the same feed a hasher the same
bytes; so a kind agrees with hashes if its equal values are the same, and two kinds do if one of
them has no numbers. Equality is transitive within every kind but decimals, between whole numbers
that doubles hold, and between rows of plain columns, where it is the same as identity. -/
theorem equality_laws (a b : Value) (j k : Kind) (r s : Row) :
    b.equals a = a.equals b ∧
    a.equals a = !a.isNaN ∧
    (a.hashed = b.hashed ↔ a = b) ∧
    ((∀ a b : Value, a.kind = j → b.kind = k → a.equals b = true → a.hashed = b.hashed) ↔
      if j = k then j.isPlain = true else ¬(j.mayCount = true ∧ k.mayCount = true)) ∧
    ((∀ a b c : Value, a.kind = k → b.kind = k → c.kind = k → a.equals b = true →
      b.equals c = true → a.equals c = true) ↔ k ≠ .decimal) ∧
    (∀ m n : ℤ, a.kind.isNumber = true → b.kind.isNumber = true → a.whole? = some m →
      b.whole? = some n → m.natAbs < 2 ^ 53 → n.natAbs < 2 ^ 53 →
      a.equals b = decide (m = n)) ∧
    s.equals r = r.equals s ∧
    (r.Addressable → s.Addressable → (r.hashed = s.hashed ↔ r = s)) ∧
    ∀ kinds : List Kind, (∀ k ∈ kinds, k.isPlain = true) →
      List.Forall₂ (fun k v => v = .null ∨ v.kind = k) kinds r →
      List.Forall₂ (fun k v => v = .null ∨ v.kind = k) kinds s →
      (r.equals s = true ↔ r = s) :=
  ⟨a.equals_comm b, a.equals_self, hashed_eq_iff, equal_hashed_iff j k, equals_trans_iff k,
    fun _ _ => equals_of_whole?, r.equals_comm s, Row.hashed_eq_iff, fun _ => Row.equals_iff_eq⟩

/-- A boolean and a number of 64 bits, and two rows with a NULL. -/
theorem equality_laws_one :
    let r : Row := [.bigInt 1, .null]
    let s : Row := [.bigInt 1, .string "a"]
    (boolean true).equals (bit 1) = true ∧ (boolean true).hashed ≠ (bit 1).hashed ∧
      r.equals s = false ∧ r.hashed ≠ s.hashed := by
  intro r s
  obtain ⟨-, -, values, -, -, whole, -, rows, plain⟩ :=
    equality_laws (boolean true) (bit 1) .boolean .bit r s
  have apart : r ≠ s := by decide
  have fits : r.Addressable := ⟨by decide, by simp [r, Addressable]⟩
  have fits' : s.Addressable := ⟨by decide, by simp [s, Addressable]⟩
  refine ⟨whole 1 1 rfl rfl rfl rfl (by decide) (by decide), ?_, ?_, ?_⟩
  · exact fun same => absurd (values.1 same) nofun
  · rw [← Bool.not_eq_true, plain [.bigInt, .string] (by decide) ?_ ?_]
    · exact apart
    · exact .cons (.inr rfl) (.cons (.inl rfl) .nil)
    · exact .cons (.inr rfl) (.cons (.inr rfl) .nil)
  · exact fun same => apart ((rows fits fits').1 same)

/-- Equal values with other hashes, a value that differs from itself, and values that are equal to
one another only in part. -/
theorem equal_values_hash_apart :
    let ten : Value := double (.ofInt 10)
    let middle : Value := double (.ofInt 9007199254740992)
    ((int 10).equals ten = true ∧ (int 10).hashed ≠ ten.hashed) ∧
      ((double .zero).equals (double (.ofMagnitude true 0)) = true ∧
        (double .zero).hashed ≠ (double (.ofMagnitude true 0)).hashed) ∧
      (double .nan).equals (double .nan) = false ∧
      (bigInt 9007199254740993).equals middle = true ∧
      middle.equals (bigInt 9007199254740992) = true ∧
      (bigInt 9007199254740993).equals (bigInt 9007199254740992) = false := by
  decide +kernel

end Value

end ResultSink
