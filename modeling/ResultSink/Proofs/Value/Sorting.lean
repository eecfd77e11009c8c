import ResultSink.Proofs.Value.Numbers
import ResultSink.Row

/-! Sorting values and rows. Two comparisons the other way round are always opposite. Among the
values of one kind the order is that of a list of numbers, so a column of one kind sorts, and so do
rows of such columns. Across kinds three rules meet, by content, by number and by text, and one rule
alone is transitive as well, but for a word that denotes no number. Between the rules numbers of 64
bits break the order where their doubles coincide, and texts break it anywhere. -/

namespace ResultSink

/-! ### Comparisons the other way round -/

theorem compareText_swap (s t : String) : compareText t s = (compareText s t).swap :=
  @Std.OrientedCmp.eq_swap _ (List.compareLex (compareOn Char.toNat)) _ t.toList s.toList

theorem compareBytes_swap (a b : ByteArray) : compareBytes b a = (compareBytes a b).swap := by
  rw [compareBytes_eq, compareBytes_eq]
  exact @Std.OrientedCmp.eq_swap _ (List.compareLex (compareOn UInt8.toNat)) _ _ _

namespace Floating

variable {f : Format} {x y : Floating f}

theorem getD_order?_swap (x y : Floating f) :
    (y.order? x).getD .eq = ((x.order? y).getD .eq).swap := by
  rw [order?_swap]
  cases x.order? y <;> rfl

end Floating

namespace Value

variable {a b c v : Value} {x y z : Double} {k : Kind}

theorem orderByNumber_swap (a b : Value) : b.orderByNumber a = (a.orderByNumber b).swap := by
  unfold orderByNumber
  cases a.toDouble? with
  | none =>
    cases b.toDouble? <;> exact compareText_swap _ _
  | some x =>
    cases b.toDouble? with
    | none => exact compareText_swap _ _
    | some y => exact x.getD_order?_swap y

theorem null_order (v : Value) : Value.null.order v = if v.isNull then .eq else .lt := by
  cases v <;> rfl

theorem order_null (v : Value) : v.order .null = if v.isNull then .eq else .gt := by
  cases v <;> rfl

/-- Values of two kinds compare by their numbers or their texts, and so do decimals. -/
theorem order_of_not_alike (ha : a.isNull = false) (hb : b.isNull = false) (h : ¬Alike a b) :
    a.order b = a.orderByNumber b := by
  unfold order
  split
  case h_1 | h_2 => cases ha
  case h_3 => cases hb
  all_goals first | rfl | exact absurd (by constructor) h

theorem order_swap (a b : Value) : b.order a = (a.order b).swap := by
  by_cases alike : Alike a b
  · cases alike with
    | float x y => exact x.getD_order?_swap y
    | double x y => exact x.getD_order?_swap y
    | decimal m n scale scale' =>
      exact orderByNumber_swap (.decimal m scale) (.decimal n scale')
    | string => exact compareText_swap _ _
    | bytes => exact compareBytes_swap _ _
    | null => rfl
    | _ => exact Std.OrientedOrd.eq_swap
  · have alike' : ¬Alike b a := fun h => alike h.symm
    cases ha : a.isNull with
    | true =>
      cases a <;> cases ha
      rw [null_order, order_null]
      cases b.isNull <;> rfl
    | false =>
      cases hb : b.isNull with
      | true =>
        cases b <;> cases hb
        rw [null_order, order_null]
        cases a.isNull <;> rfl
      | false =>
        rw [order_of_not_alike ha hb alike, order_of_not_alike hb ha alike']
        exact orderByNumber_swap a b

instance : Std.OrientedCmp Value.order := ⟨fun {a b} => order_swap b a⟩

/-! ### Within a kind -/

/-- What a value is sorted by among those of its kind: numbers that are compared one after another.
NULL has none, and so comes first. -/
def rank : Value → List ℤ
  | null => []
  | boolean b => [if b then 1 else 0]
  | tinyInt n => [n.toInt]
  | smallInt n => [n.toInt]
  | int n => [n.toInt]
  | bigInt n => [n.toInt]
  | float x => [x.place]
  | double x => [x.place]
  | decimal n scale => [((Floating.ofInt n.toInt).div (powerOfTen scale.toNat)).place]
  | string s => 0 :: s.toList.map fun c => (c.toNat : ℤ)
  | bytes b => 0 :: b.data.toList.map fun b => (b.toNat : ℤ)
  | date d => [d.toInt]
  | time t => [t.toInt]
  | timestamp t => [t.toInt]
  | bit b => [(b.toNat : ℤ)]

theorem compareLex_singleton (m n : ℤ) : List.compareLex compare [m] [n] = compare m n := by
  rw [List.compareLex_cons_cons, List.compareLex_nil_nil, Ordering.then_eq]

/-- Lists of characters or bytes compare as the lists of their numbers. -/
theorem compareLex_map {α : Type} (f : α → ℕ) (xs ys : List α) :
    List.compareLex (fun x y => compare (f x) (f y)) xs ys =
      List.compareLex compare (xs.map fun x => (f x : ℤ)) (ys.map fun y => (f y : ℤ)) := by
  induction xs generalizing ys with
  | nil => cases ys <;> rfl
  | cons x xs ih =>
    cases ys with
    | nil => rfl
    | cons y ys =>
      have head : compare (f x) (f y) = compare (f x : ℤ) (f y) :=
        compare_congr Nat.cast_le.symm Nat.cast_le.symm
      rw [List.compareLex_cons_cons, List.map_cons, List.map_cons, List.compareLex_cons_cons, ih,
        head]

theorem compareLex_zero_cons (xs ys : List ℤ) :
    List.compareLex compare (0 :: xs) (0 :: ys) = List.compareLex compare xs ys := by
  rw [List.compareLex_cons_cons]
  rfl

/-- Two values of one kind compare by their ranks, if both are numbers or of no number's kind. -/
theorem Alike.order_eq (h : Alike a b) (ha : a.isNaN = false) (hb : b.isNaN = false) :
    a.order b = List.compareLex compare a.rank b.rank := by
  cases h with
  | null => rfl
  | boolean a b => cases a <;> cases b <;> rfl
  | float x y =>
    refine Eq.trans ?_ (compareLex_singleton x.place y.place).symm
    rw [order, Floating.order?_of_numbers ha hb]
    rfl
  | double x y =>
    refine Eq.trans ?_ (compareLex_singleton x.place y.place).symm
    rw [order, Floating.order?_of_numbers ha hb]
    rfl
  | decimal m n scale scale' =>
    have number (n : Int128) (scale : UInt8) :
        ((Floating.ofInt n.toInt).div (powerOfTen scale.toNat)).isNaN = false :=
      Floating.not_isNaN_iff.2 (.inl (isFinite_decimal n scale))
    refine Eq.trans ?_ (compareLex_singleton _ _).symm
    show (Floating.order? _ _).getD .eq = _
    rw [Floating.order?_of_numbers (number m scale) (number n scale')]
    rfl
  | string s t => exact (compareLex_map Char.toNat _ _).trans (compareLex_zero_cons _ _).symm
  | bytes a b =>
    refine (compareBytes_eq a b).trans ?_
    exact (compareLex_map UInt8.toNat _ _).trans (compareLex_zero_cons _ _).symm
  | bit a b =>
    refine Eq.trans ?_ (compareLex_singleton _ _).symm
    have words := compareLex_map UInt64.toNat [a] [b]
    rw [List.map_cons, List.map_nil, List.map_cons, List.map_nil, compareLex_singleton] at words
    rw [← words, List.compareLex_cons_cons, List.compareLex_nil_nil, Ordering.then_eq, order]
  | _ => exact (compareLex_singleton _ _).symm

/-- What a column of a kind sorts: NULL, and the values of the kind, but for words that denote no
number. -/
def Sortable (k : Kind) (v : Value) : Prop := v = .null ∨ v.kind = k ∧ v.isNaN = false

theorem Sortable.order_eq (ha : Sortable k a) (hb : Sortable k b) :
    a.order b = List.compareLex compare a.rank b.rank := by
  rcases ha with rfl | ⟨kind, number⟩
  · cases b <;> rfl
  · rcases hb with rfl | ⟨kind', number'⟩
    · cases a <;> rfl
    · exact (alike_iff.2 (kind.trans kind'.symm)).order_eq number number'

theorem Sortable.trans (ha : Sortable k a) (hb : Sortable k b) (hc : Sortable k c)
    (first : a.order b ≠ .gt) (second : b.order c ≠ .gt) : a.order c ≠ .gt := by
  rw [ha.order_eq hb] at first
  rw [hb.order_eq hc] at second
  rw [ha.order_eq hc]
  rw [ne_eq, Ordering.ne_gt_iff_isLE] at *
  exact Std.TransCmp.isLE_trans first second

/-- A word that denotes no number counts as equal to all of its kind. -/
theorem Alike.order_of_isNaN (h : Alike a b) (undefined : a.isNaN = true ∨ b.isNaN = true) :
    a.order b = .eq := by
  cases h with
  | float x y => exact congrArg (Option.getD · .eq) (Floating.order?_of_isNaN undefined)
  | double x y => exact congrArg (Option.getD · .eq) (Floating.order?_of_isNaN undefined)
  | _ => exact absurd undefined (by simp [isNaN])

/-! ### Across kinds -/

/-- The rules by which values that are not NULL compare. -/
inductive Rule where
  | content
  | number
  | text

/-- The rule that decides between two values. The content of a text is its text. -/
def rule (a b : Value) : Rule :=
  if a.kind = .string ∧ b.kind = .string then .text
  else if a.kind = b.kind ∧ a.kind ≠ .decimal then .content
  else if a.toDouble?.isSome ∧ b.toDouble?.isSome then .number
  else .text

/-- The double of a value is no number. -/
def Undefined (v : Value) : Prop := ∃ x, v.toDouble? = some x ∧ x.isNaN = true

theorem undefined_of_isNaN (h : v.isNaN = true) : v.Undefined := by
  cases v with
  | float x => exact ⟨_, rfl, x.isNaN_convert.trans h⟩
  | double x => exact ⟨x, rfl, h⟩
  | _ => cases h

theorem isNaN_of_defined (h : ¬v.Undefined) : v.isNaN = false :=
  Bool.not_eq_true _ ▸ fun none => h (undefined_of_isNaN none)

theorem isNaN_toDouble?_of_defined (h : ¬v.Undefined) (hx : v.toDouble? = some x) :
    x.isNaN = false :=
  Bool.not_eq_true _ ▸ fun none => h ⟨x, hx, none⟩

theorem orderByNumber_of_isSome (hx : a.toDouble? = some x) (hy : b.toDouble? = some y) :
    a.orderByNumber b = (x.order? y).getD .eq := by
  rw [orderByNumber, hx, hy]

theorem orderByNumber_of_numbers (hx : a.toDouble? = some x) (hy : b.toDouble? = some y)
    (number : x.isNaN = false) (number' : y.isNaN = false) :
    a.orderByNumber b = compare x.place y.place := by
  rw [orderByNumber_of_isSome hx hy, Floating.order?_of_numbers number number', Option.getD_some]

/-- Only the content of one kind is compared without numbers and texts, and never that of two
decimals. -/
theorem order_eq_orderByNumber (ha : a.isNull = false) (hb : b.isNull = false)
    (h : ¬(a.kind = b.kind ∧ a.kind ≠ .decimal)) : a.order b = a.orderByNumber b := by
  by_cases alike : Alike a b
  · cases alike with
    | decimal => rfl
    | _ => exact absurd ⟨rfl, nofun⟩ h
  · exact order_of_not_alike ha hb alike

/-- The order of doubles is transitive about one that denotes a number. -/
theorem getD_order?_trans (defined : y.isNaN = false) (first : (x.order? y).getD .eq ≠ .gt)
    (second : (y.order? z).getD .eq ≠ .gt) : (x.order? z).getD .eq ≠ .gt := by
  cases hx : x.isNaN with
  | true =>
    rw [Floating.order?_of_isNaN (.inl hx)]
    exact nofun
  | false =>
    cases hz : z.isNaN with
    | true =>
      rw [Floating.order?_of_isNaN (.inr hz)]
      exact nofun
    | false =>
      rw [Floating.order?_of_numbers hx defined, Option.getD_some, compare_le_iff_le] at first
      rw [Floating.order?_of_numbers defined hz, Option.getD_some, compare_le_iff_le] at second
      rw [Floating.order?_of_numbers hx hz, Option.getD_some, compare_le_iff_le]
      exact first.trans second

theorem alike_of_rule (h : a.rule b = .content) : Alike a b := by
  unfold rule at h
  split_ifs at h
  next same => exact alike_iff.2 same.1

theorem order_of_rule_number (ha : a.isNull = false) (hb : b.isNull = false)
    (h : a.rule b = .number) :
    ∃ x y, a.toDouble? = some x ∧ b.toDouble? = some y ∧ a.order b = (x.order? y).getD .eq := by
  unfold rule at h
  split_ifs at h
  next other numbers =>
    obtain ⟨x, hx⟩ := Option.isSome_iff_exists.1 numbers.1
    obtain ⟨y, hy⟩ := Option.isSome_iff_exists.1 numbers.2
    refine ⟨x, y, hx, hy, ?_⟩
    rw [order_eq_orderByNumber ha hb other, orderByNumber_of_isSome hx hy]

theorem order_of_rule_text (ha : a.isNull = false) (hb : b.isNull = false) (h : a.rule b = .text) :
    a.order b = compareText (a.toText?.getD "") (b.toText?.getD "") := by
  unfold rule at h
  split_ifs at h
  · next strings =>
    cases alike_iff.2 (strings.1.trans strings.2.symm) with
    | string => rfl
    | _ => cases strings.1
  · next other texts =>
    rw [order_eq_orderByNumber ha hb other, orderByNumber]
    split
    · next x y hx hy =>
      exact absurd ⟨Option.isSome_of_eq_some hx, Option.isSome_of_eq_some hy⟩ texts
    · rfl

theorem compareText_trans {s t u : String} (first : compareText s t ≠ .gt)
    (second : compareText t u ≠ .gt) : compareText s u ≠ .gt := by
  rw [ne_eq, Ordering.ne_gt_iff_isLE] at *
  exact @Std.TransCmp.isLE_trans _ (List.compareLex (compareOn Char.toNat)) _ _ _ _ first second

/-- One rule alone keeps the order transitive, unless the value between should have a number and has
none. -/
theorem order_trans_of_rule (ha : a.isNull = false) (hb : b.isNull = false)
    (hc : c.isNull = false) (defined : b.Undefined → a.rule c = .text) (hab : a.rule b = b.rule c)
    (hac : b.rule c = a.rule c) (first : a.order b ≠ .gt) (second : b.order c ≠ .gt) :
    a.order c ≠ .gt := by
  cases decided : a.rule c with
  | content =>
    have sound : ¬b.Undefined := by
      intro none
      cases decided.symm.trans (defined none)
    have ab := alike_of_rule (hab.trans (hac.trans decided))
    have ac := alike_of_rule decided
    by_cases undefined : a.isNaN = true ∨ c.isNaN = true
    · rw [ac.order_of_isNaN undefined]
      exact nofun
    · rw [not_or, Bool.not_eq_true, Bool.not_eq_true] at undefined
      have sorts : Sortable a.kind a := .inr ⟨rfl, undefined.1⟩
      have sorts' : Sortable a.kind b := .inr ⟨(alike_iff.1 ab).symm, isNaN_of_defined sound⟩
      have sorts'' : Sortable a.kind c := .inr ⟨(alike_iff.1 ac).symm, undefined.2⟩
      exact sorts.trans sorts' sorts'' first second
  | number =>
    obtain ⟨x, y, hx, hy, order⟩ := order_of_rule_number ha hb (hab.trans (hac.trans decided))
    obtain ⟨y', z, hy', hz, order'⟩ := order_of_rule_number hb hc (hac.trans decided)
    obtain ⟨x', z', hx', hz', order''⟩ := order_of_rule_number ha hc decided
    cases hx.symm.trans hx'
    cases hy.symm.trans hy'
    cases hz.symm.trans hz'
    have sound : ¬b.Undefined := by
      intro none
      cases decided.symm.trans (defined none)
    rw [order] at first
    rw [order'] at second
    rw [order'']
    exact getD_order?_trans (isNaN_toDouble?_of_defined sound hy) first second
  | text =>
    rw [order_of_rule_text ha hb (hab.trans (hac.trans decided))] at first
    rw [order_of_rule_text hb hc (hac.trans decided)] at second
    rw [order_of_rule_text ha hc decided]
    exact compareText_trans first second

/-! ### Numbers -/

/-- The kinds whose values a double does not tell apart: whole numbers of 64 bits. -/
def Long (k : Kind) : Prop := k = .bigInt ∨ k = .bit

theorem compare_place_ofInt {m n : ℤ} (small : m.natAbs < 2 ^ 53) (small' : n.natAbs < 2 ^ 53) :
    compare m n = compare (Floating.ofInt m : Double).place (Floating.ofInt n : Double).place :=
  have order {m n : ℤ} (small : m.natAbs < 2 ^ 53) (small' : n.natAbs < 2 ^ 53) :
      m ≤ n ↔ (Floating.ofInt m : Double).place ≤ (Floating.ofInt n : Double).place :=
    (Floating.place_ofInt_le_iff small small' (by decide) (by decide)).symm
  compare_congr (order small small') (order small' small)

/-- Numbers compare by their doubles, unless they are whole numbers of 64 bits of one kind. -/
theorem order_eq_of_numbers (ha : a.kind.isNumber = true) (hb : b.kind.isNumber = true)
    (h : a.kind = b.kind → ¬Long a.kind) : a.order b = a.orderByNumber b := by
  have present {v : Value} (h : v.kind.isNumber = true) : v.isNull = false := by
    cases v <;> first | rfl | cases h
  have whole {m n : ℤ} {a b : Value} (ha : a.toDouble? = some (Floating.ofInt m))
      (hb : b.toDouble? = some (Floating.ofInt n)) (small : m.natAbs < 2 ^ 53)
      (small' : n.natAbs < 2 ^ 53) : compare m n = a.orderByNumber b := by
    rw [orderByNumber_of_numbers ha hb (Floating.isNaN_ofQuotient _ _)
      (Floating.isNaN_ofQuotient _ _)]
    exact compare_place_ofInt small small'
  by_cases alike : Alike a b
  · cases alike with
    | boolean p q =>
      refine Eq.trans ?_ (whole (m := if p then 1 else 0) (n := if q then 1 else 0) rfl rfl ?_ ?_)
      · cases p <;> cases q <;> rfl
      · cases p <;> decide
      · cases q <;> decide
    | tinyInt m n | smallInt m n | int m n =>
      have low := m.le_toInt
      have high := m.toInt_lt
      have low' := n.le_toInt
      have high' := n.toInt_lt
      exact whole rfl rfl (by omega) (by omega)
    | bigInt => exact absurd (.inl rfl) (h rfl)
    | bit => exact absurd (.inr rfl) (h rfl)
    | float x y => exact congrArg (Option.getD · .eq) (Floating.order?_convert x y).symm
    | double => rfl
    | decimal => rfl
    | _ => cases ha
  · exact order_of_not_alike (present ha) (present hb) alike

theorem orderByNumber_ofInt_ne_gt {m n : ℤ} (ha : a.toDouble? = some (Floating.ofInt m))
    (hb : b.toDouble? = some (Floating.ofInt n)) (h : compare m n ≠ .gt) :
    a.orderByNumber b ≠ .gt := by
  rw [orderByNumber_of_numbers ha hb (Floating.isNaN_ofQuotient _ _)
    (Floating.isNaN_ofQuotient _ _), compare_le_iff_le]
  exact Floating.place_ofInt_mono (compare_le_iff_le.1 h)

/-- The doubles of numbers keep their order, where they differ. -/
theorem orderByNumber_ne_gt (ha : a.kind.isNumber = true) (hb : b.kind.isNumber = true)
    (h : a.order b ≠ .gt) : a.orderByNumber b ≠ .gt := by
  by_cases long : a.kind = b.kind ∧ Long a.kind
  · cases alike_iff.2 long.1 with
    | bigInt m n => exact orderByNumber_ofInt_ne_gt rfl rfl h
    | bit m n =>
      refine orderByNumber_ofInt_ne_gt (m := m.toNat) (n := n.toNat) rfl rfl ?_
      rw [compare_le_iff_le, Nat.cast_le]
      exact compare_le_iff_le.1 h
    | _ => exact absurd long.2 (by rintro (kind | kind) <;> cases kind)
  · rwa [← order_eq_of_numbers ha hb fun same wide => long ⟨same, wide⟩]

theorem Long.isNaN_eq_false (h : Long v.kind) : v.isNaN = false := by
  cases v <;> first | rfl | exact absurd h (by rintro (kind | kind) <;> cases kind)

/-- Two whole numbers of 64 bits and a number of another kind between them, which both are equal
to. -/
structure Straddles (a b c : Value) : Prop where
  same : a.kind = c.kind
  long : Long a.kind
  other : b.kind ≠ a.kind
  low : a.order b = .eq
  high : b.order c = .eq

/-- Numbers break the order only about one that has no number, or that a pair straddles: all three
have the same double then. -/
theorem straddles_of_broken (ha : a.kind.isNumber = true) (hb : b.kind.isNumber = true)
    (hc : c.kind.isNumber = true) (defined : ¬b.Undefined) (first : a.order b ≠ .gt)
    (second : b.order c ≠ .gt) (broken : a.order c = .gt) : Straddles a b c := by
  obtain ⟨x, hx, number⟩ := exists_toDouble? ha
  obtain ⟨y, hy, -⟩ := exists_toDouble? hb
  obtain ⟨z, hz, number'⟩ := exists_toDouble? hc
  have middle := isNaN_toDouble?_of_defined defined hy
  have low := orderByNumber_ne_gt ha hb first
  have high := orderByNumber_ne_gt hb hc second
  rw [orderByNumber_of_isSome hx hy] at low
  rw [orderByNumber_of_isSome hy hz] at high
  have long : a.kind = c.kind ∧ Long a.kind := by
    by_contra apart
    rw [order_eq_of_numbers ha hc fun same wide => apart ⟨same, wide⟩,
      orderByNumber_of_isSome hx hz] at broken
    exact getD_order?_trans middle low high broken
  have na := long.2.isNaN_eq_false
  have nc := (long.1 ▸ long.2 : Long c.kind).isNaN_eq_false
  have other : b.kind ≠ a.kind := by
    intro same
    have nb := (same ▸ long.2 : Long b.kind).isNaN_eq_false
    have sorts : Sortable a.kind a := .inr ⟨rfl, na⟩
    exact sorts.trans (.inr ⟨same, nb⟩) (.inr ⟨long.1.symm, nc⟩) first second broken
  -- The doubles stand in the order of the whole numbers, and in that of the two comparisons.
  have back : c.order a ≠ .gt := by
    rw [order_swap, broken]
    exact nofun
  have reached := orderByNumber_ne_gt hc ha back
  rw [Floating.order?_of_numbers (number.trans na) middle, Option.getD_some,
    compare_le_iff_le] at low
  rw [Floating.order?_of_numbers middle (number'.trans nc), Option.getD_some,
    compare_le_iff_le] at high
  rw [orderByNumber_of_numbers hz hx (number'.trans nc) (number.trans na),
    compare_le_iff_le] at reached
  refine ⟨long.1, long.2, other, ?_, ?_⟩
  · rw [order_eq_of_numbers ha hb fun same => absurd same.symm other,
      orderByNumber_of_numbers hx hy (number.trans na) middle, compare_eq_iff_eq]
    omega
  · rw [order_eq_of_numbers hb hc fun same => absurd (same.trans long.1.symm) other,
      orderByNumber_of_numbers hy hz middle (number'.trans nc), compare_eq_iff_eq]
    omega

/-- A word that denotes no number counts as equal to every number. -/
theorem order_of_undefined (ha : a.kind.isNumber = true) (hb : b.kind.isNumber = true)
    (h : b.Undefined) : a.order b = .eq := by
  obtain ⟨x, hx, -⟩ := exists_toDouble? ha
  obtain ⟨y, hy, number⟩ := exists_toDouble? hb
  obtain ⟨y', hy', undefined⟩ := h
  cases hy.symm.trans hy'
  have short (same : a.kind = b.kind) : ¬Long a.kind := by
    intro long
    rw [number, (same ▸ long : Long b.kind).isNaN_eq_false] at undefined
    cases undefined
  rw [order_eq_of_numbers ha hb short, orderByNumber_of_isSome hx hy,
    Floating.order?_of_isNaN (.inr undefined), Option.getD_none]

/-- NULL breaks the order nowhere. -/
theorem order_trans_of_null (h : .null ∈ [a, b, c]) (first : a.order b ≠ .gt)
    (second : b.order c ≠ .gt) : a.order c ≠ .gt := by
  have least {v : Value} (h : v.order .null ≠ .gt) : v = .null := by
    cases v <;> first | rfl | exact absurd rfl h
  have start (v : Value) : Value.null.order v ≠ .gt := by
    cases v <;> exact nofun
  simp only [List.mem_cons, List.not_mem_nil, or_false] at h
  rcases h with rfl | rfl | rfl
  · exact start c
  · rw [least first]
    exact start c
  · rw [least second] at first
    rw [least first]
    exact start _

end Value

/-- Rows of columns of one kind each compare by the ranks of their values. -/
theorem Row.order_eq {kinds : List Kind} {r s : Row} (hr : List.Forall₂ Value.Sortable kinds r)
    (hs : List.Forall₂ Value.Sortable kinds s) :
    r.order s = List.compareLex (List.compareLex compare) (r.map Value.rank)
      (s.map Value.rank) := by
  induction hr generalizing s with
  | nil =>
    cases hs
    rfl
  | cons sorts _ ih =>
    cases hs with
    | cons sorts' rest' =>
      rw [Row.order, List.compareLex_cons_cons, List.map_cons, List.map_cons,
        List.compareLex_cons_cons, sorts.order_eq sorts', ← ih rest', Row.order]

theorem Row.order_trans {kinds : List Kind} {r s t : Row}
    (hr : List.Forall₂ Value.Sortable kinds r) (hs : List.Forall₂ Value.Sortable kinds s)
    (ht : List.Forall₂ Value.Sortable kinds t) (first : r.order s ≠ .gt)
    (second : s.order t ≠ .gt) : r.order t ≠ .gt := by
  rw [Row.order_eq hr hs] at first
  rw [Row.order_eq hs ht] at second
  rw [Row.order_eq hr ht]
  rw [ne_eq, Ordering.ne_gt_iff_isLE] at *
  exact Std.TransCmp.isLE_trans first second

namespace Value

/-- The order of values and rows. Comparisons the other way round are opposite. Three numbers are in
order exactly if the one between, where the others are not, has a number and is not straddled by
whole numbers of 64 bits. Three values are in order if one of them is NULL, or if one rule decides
between all of them and the one between is no word without a number, unless that rule is by text;
and so are rows of columns of one kind each. -/
theorem order_laws (a b c : Value) (r s t : Row) :
    b.order a = (a.order b).swap ∧
    s.order r = (r.order s).swap ∧
    (a.kind.isNumber = true → b.kind.isNumber = true → c.kind.isNumber = true →
      ((a.order b ≠ .gt → b.order c ≠ .gt → a.order c ≠ .gt) ↔
        (a.order c = .gt → ¬b.Undefined ∧ ¬Straddles a b c))) ∧
    (.null ∈ [a, b, c] ∨
        (b.Undefined → a.rule c = .text) ∧ a.rule b = b.rule c ∧ b.rule c = a.rule c →
      a.order b ≠ .gt → b.order c ≠ .gt → a.order c ≠ .gt) ∧
    ∀ kinds : List Kind, List.Forall₂ Sortable kinds r → List.Forall₂ Sortable kinds s →
      List.Forall₂ Sortable kinds t → r.order s ≠ .gt → s.order t ≠ .gt → r.order t ≠ .gt := by
  refine ⟨order_swap a b, @Std.OrientedCmp.eq_swap _ (List.compareLex order) _ s r,
    fun ha hb hc => ?_, fun way first second => ?_, fun _ => Row.order_trans⟩
  · constructor
    · intro ordered broken
      refine ⟨fun undefined => ?_, fun straddles => ?_⟩
      · have low := order_of_undefined ha hb undefined
        have high := order_of_undefined hc hb undefined
        refine ordered ?_ ?_ broken
        · rw [low]
          exact nofun
        · rw [order_swap c b, high]
          exact nofun
      · refine ordered ?_ ?_ broken
        · rw [straddles.low]
          exact nofun
        · rw [straddles.high]
          exact nofun
    · intro sound first second broken
      obtain ⟨defined, apart⟩ := sound broken
      exact apart (straddles_of_broken ha hb hc defined first second broken)
  · by_cases none : .null ∈ [a, b, c]
    · exact order_trans_of_null none first second
    · obtain ⟨defined, hab, hac⟩ := way.resolve_left none
      simp only [List.mem_cons, List.not_mem_nil, or_false, not_or] at none
      have present {v : Value} (h : .null ≠ v) : v.isNull = false := by
        cases v <;> first | rfl | exact absurd rfl h
      exact order_trans_of_rule (present none.1) (present none.2.1) (present none.2.2) defined hab
        hac first second

/-- A double that straddles nothing among whole numbers, a text among numbers, and rows with a
NULL. -/
theorem order_laws_text :
    let one : Value := bigInt 1
    let half : Value := double (.ofQuotient false 3 2)
    let two : Value := bigInt 2
    let nine : Value := string "9"
    let ten : Value := int 10
    let more : Value := double (.ofQuotient false 21 2)
    let first : Row := [.null, .string "b"]
    let second : Row := [.bigInt 1, .string "a"]
    let third : Row := [.bigInt 1, .string "b"]
    (one.order half ≠ .gt → half.order two ≠ .gt → one.order two ≠ .gt) ∧
      (nine.rule ten = ten.rule more ∧ ten.rule more = nine.rule more) ∧
      nine.order ten ≠ .gt ∧ ten.order more ≠ .gt ∧ nine.order more ≠ .gt ∧
      first.order second ≠ .gt ∧ second.order third ≠ .gt ∧ first.order third ≠ .gt := by
  intro one half two nine ten more first second third
  have alone : nine.rule ten = ten.rule more ∧ ten.rule more = nine.rule more := ⟨rfl, rfl⟩
  have defined : ¬ten.Undefined := by
    rintro ⟨x, found, none⟩
    cases found
    cases (Floating.isNaN_ofQuotient 10 1).symm.trans none
  have ascending : nine.order ten ≠ .gt ∧ ten.order more ≠ .gt := by decide +kernel
  have sorted : first.order second ≠ .gt ∧ second.order third ≠ .gt := by decide +kernel
  have below : one.order two ≠ .gt := by decide
  obtain ⟨-, -, numbers, -, -⟩ := order_laws one half two first second third
  obtain ⟨-, -, -, rules, rows⟩ := order_laws nine ten more first second third
  refine ⟨(numbers rfl rfl rfl).2 fun broken => absurd broken below, alone, ascending.1,
    ascending.2, rules (.inr ⟨fun none => absurd none defined, alone⟩) ascending.1 ascending.2,
    sorted.1, sorted.2, ?_⟩
  refine rows [.bigInt, .string] ?_ ?_ ?_ sorted.1 sorted.2
  · exact .cons (.inl rfl) (.cons (.inr ⟨rfl, rfl⟩) .nil)
  · exact .cons (.inr ⟨rfl, rfl⟩) (.cons (.inr ⟨rfl, rfl⟩) .nil)
  · exact .cons (.inr ⟨rfl, rfl⟩) (.cons (.inr ⟨rfl, rfl⟩) .nil)

/-- The order is not transitive: a double is equal to two whole numbers that differ, a word without
a number is equal to all numbers, and a number is equal to one of two texts and less than the other,
which comes first. -/
theorem order_not_transitive :
    let middle : Value := double (.ofInt 9007199254740992)
    let none : Value := double .nan
    ((bigInt 9007199254740993).order middle = .eq ∧ middle.order (bigInt 9007199254740992) = .eq ∧
        (bigInt 9007199254740993).order (bigInt 9007199254740992) = .gt) ∧
      ((double (.ofInt 1)).order none = .eq ∧ none.order (double (.ofInt 0)) = .eq ∧
        (double (.ofInt 1)).order (double (.ofInt 0)) = .gt) ∧
      ((string "10").order (string "9") = .lt ∧ (string "9").order (int 9) = .eq ∧
        (string "10").order (int 9) = .gt) ∧
      (Row.order [.bigInt 9007199254740993] [middle] = .eq ∧
        Row.order [middle] [.bigInt 9007199254740992] = .eq ∧
        Row.order [.bigInt 9007199254740993] [.bigInt 9007199254740992] = .gt) := by
  decide +kernel

end Value

end ResultSink
