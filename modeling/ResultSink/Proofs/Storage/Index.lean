import ResultSink.Storage.Index

/-! What the index of a table says of the records in it. `Covers` relates an index to the list of
records in the order they were written: the unique key holds each record with its row, in the order
of the records, and each hash leads to the rows that end with it, in the order they were written. -/

namespace ResultSink

/-! ### The order of byte strings -/

instance compareBytes_trans : Std.TransCmp compareBytes := by
  have bytes : Std.TransCmp (List.compareLex (compareOn UInt8.toNat)) := inferInstance
  have same : compareBytes = fun a b =>
      List.compareLex (compareOn UInt8.toNat) a.data.toList b.data.toList :=
    funext fun a => funext fun b => compareBytes_eq a b
  rw [same]
  exact { eq_swap := bytes.eq_swap, isLE_trans := bytes.isLE_trans }

/-- The first record comes before the second in the lexicographic order of their bytes. -/
def Record.Before (a b : Record) : Prop :=
  List.Lex (fun x y => x.toNat < y.toNat) a.data.toList b.data.toList

theorem compareLex_eq_lt_iff {xs ys : List UInt8} :
    List.compareLex (fun x y => compare x.toNat y.toNat) xs ys = .lt ↔
      List.Lex (fun x y => x.toNat < y.toNat) xs ys := by
  induction xs generalizing ys with
  | nil =>
    cases ys with
    | nil => exact iff_of_false (fun less => nomatch less) (fun less => nomatch less)
    | cons y ys => exact iff_of_true rfl .nil
  | cons x xs ih =>
    cases ys with
    | nil => exact iff_of_false (fun less => nomatch less) (fun less => nomatch less)
    | cons y ys =>
      rw [List.compareLex_cons_cons, Ordering.then_eq_lt, ih, List.cons_lex_cons_iff,
        Nat.compare_eq_lt, Nat.compare_eq_eq, UInt8.toNat_inj]

/-- The comparison of the index follows the order of bytes. -/
theorem Record.before_iff {a b : Record} : Record.Before a b ↔ compareBytes a b = .lt := by
  rw [compareBytes_eq, compareLex_eq_lt_iff, Record.Before]

theorem Record.before_of_gt {a b : Record} (h : compareBytes a b = .gt) : Record.Before b a :=
  Record.before_iff.2 (Std.OrientedCmp.lt_of_gt h)

theorem Record.Before.trans {a b c : Record} (h : Record.Before a b) (h' : Record.Before b c) :
    Record.Before a c :=
  Record.before_iff.2 (Std.TransCmp.lt_trans (Record.before_iff.1 h) (Record.before_iff.1 h'))

theorem Record.Before.ne {a b : Record} (h : Record.Before a b) : a ≠ b := by
  rintro rfl
  rw [Record.before_iff, compareBytes_self] at h
  cases h

/-! ### Records and their rows -/

/-- Records with the rows they have when they are written in this order. -/
def numbered (records : List Record) : List (Record × RowId) :=
  records.zipIdx.map fun e => (e.1, ⟨e.2⟩)

@[simp] theorem numbered_nil : numbered [] = [] := rfl

theorem numbered_append (records : List Record) (record : Record) :
    numbered (records ++ [record]) = numbered records ++ [(record, ⟨records.length⟩)] := by
  simp [numbered, List.zipIdx_append]

@[simp] theorem map_fst_numbered (records : List Record) :
    (numbered records).map Prod.fst = records := by
  rw [numbered, List.map_map]
  exact List.zipIdx_map_fst 0 records

theorem map_snd_numbered (records : List Record) :
    (numbered records).map Prod.snd = (List.range records.length).map RowId.mk := by
  rw [numbered, List.map_map, List.range_eq_range', ← List.zipIdx_map_snd, List.map_map]
  rfl

theorem mem_numbered {records : List Record} {entry : Record × RowId} :
    entry ∈ numbered records ↔ records[entry.2.index]? = some entry.1 := by
  obtain ⟨record, ⟨row⟩⟩ := entry
  simp [numbered, List.mk_mem_zipIdx_iff_getElem?]

theorem mapM_eq_ok {α β ε : Type} {f : α → Except ε β} {g : α → β} {l : List α}
    (h : ∀ a ∈ l, f a = .ok (g a)) : l.mapM f = .ok (l.map g) := by
  induction l with
  | nil => rfl
  | cons a l ih =>
    have first := h a List.mem_cons_self
    have others := ih fun b hb => h b (List.mem_cons_of_mem a hb)
    rw [List.mapM_cons, first, others]
    rfl

/-- Reading the rows of entries gives their records, if each row holds the record of its entry. -/
theorem mapM_rows (read : RowId → Except StorageError Record) (entries : List (Record × RowId))
    (h : ∀ entry ∈ entries, read entry.2 = .ok entry.1) :
    (entries.map Prod.snd).mapM read = .ok (entries.map Prod.fst) := by
  rw [List.mapM_map]
  exact mapM_eq_ok h

/-- A record ends with a hash. -/
def Record.endsWith (hash : UInt64) (record : Record) : Bool :=
  match Record.splitHash record with
  | .ok (_, h) => h = hash
  | .error _ => false

/-- The rows of the records that end with a hash. -/
def rowsWith (hash : UInt64) (records : List Record) : List RowId :=
  ((numbered records).filter fun entry => entry.1.endsWith hash).map Prod.snd

theorem rowsWith_append (hash : UInt64) (records : List Record) (record : Record) :
    rowsWith hash (records ++ [record]) =
      rowsWith hash records ++ if record.endsWith hash then [⟨records.length⟩] else [] := by
  by_cases h : record.endsWith hash <;> simp [rowsWith, numbered_append, h]

/-- A read of the rows with a hash gives the records with it. -/
theorem mapM_rowsWith {read : RowId → Except StorageError Record} {records : List Record}
    (h : ∀ entry ∈ numbered records, read entry.2 = .ok entry.1) (hash : UInt64) :
    (rowsWith hash records).mapM read = .ok (records.filter (Record.endsWith hash)) := by
  have found := mapM_rows read ((numbered records).filter fun e => e.1.endsWith hash)
    fun entry he => h entry (List.mem_filter.1 he).1
  rw [rowsWith, found]
  conv => rhs; rw [← map_fst_numbered records, List.filter_map]
  rfl

/-! ### The entries of a unique key -/

theorem perm_insertByRecord {record : Record} {row : RowId} {entries : List (Record × RowId)}
    (fresh : ∀ entry ∈ entries, record ≠ entry.1) :
    (insertByRecord record row entries).Perm ((record, row) :: entries) := by
  induction entries with
  | nil => exact List.Perm.refl _
  | cons first entries ih =>
    unfold insertByRecord
    split
    · have rest := ih fun entry he => fresh entry (List.mem_cons_of_mem first he)
      exact (rest.cons first).trans (List.Perm.swap _ _ _)
    · next same => exact absurd (compareBytes_eq_eq_iff.1 same) (fresh first List.mem_cons_self)
    · exact List.Perm.refl _

/-- A new record is put where the entries stay in the order of their records. -/
theorem ordered_insertByRecord {record : Record} {row : RowId} {entries : List (Record × RowId)}
    (fresh : ∀ entry ∈ entries, record ≠ entry.1)
    (ordered : entries.Pairwise fun a b => Record.Before a.1 b.1) :
    (insertByRecord record row entries).Pairwise fun a b => Record.Before a.1 b.1 := by
  induction entries with
  | nil => exact List.pairwise_singleton _ _
  | cons first entries ih =>
    obtain ⟨least, rest⟩ := List.pairwise_cons.1 ordered
    have fresh' : ∀ entry ∈ entries, record ≠ entry.1 :=
      fun entry he => fresh entry (List.mem_cons_of_mem first he)
    unfold insertByRecord
    split
    · next after =>
      refine List.pairwise_cons.2 ⟨fun entry he => ?_, ih fresh' rest⟩
      rcases List.mem_cons.1 ((perm_insertByRecord fresh').mem_iff.1 he) with rfl | he
      · exact Record.before_of_gt after
      · exact least entry he
    · next same => exact absurd (compareBytes_eq_eq_iff.1 same) (fresh first List.mem_cons_self)
    · next before =>
      refine List.pairwise_cons.2 ⟨fun entry he => ?_, ordered⟩
      rcases List.mem_cons.1 he with rfl | he
      · exact Record.before_iff.2 before
      · exact Record.Before.trans (Record.before_iff.2 before) (least entry he)

/-! ### What a key refuses -/

instance decidableMemRecords (record : Record) (records : List Record) :
    Decidable (record ∈ records) :=
  decidable_of_iff (records.any fun r => r = record) (by simp)

/-- Why a key refuses a record behind others. -/
def keyRefusal? (key : Key) (records : List Record) (record : Record) : Option StorageError :=
  match key with
  | .none => none
  | .unique => if record ∈ records then some .duplicateKey else none
  | .hash =>
    if record.size < hashWidth then
      some (.corrupted s!"record of {record.size} bytes has no hash column")
    else none

namespace TableIndex

/-- What an index says of a list of records, in the order they were written, is so. -/
structure Covers (index : TableIndex) (records : List Record) : Prop where
  ordered : index.unique.Pairwise fun a b => Record.Before a.1 b.1
  entries : index.key = .unique → index.unique.Perm (numbered records)
  lookups : index.key = .hash → ∀ hash, (index.hashed.lookup hash).getD [] = rowsWith hash records
  hashes : index.key = .hash → ∀ record ∈ records, hashWidth ≤ record.size
  openOnly : index.isOpen = true → index.key = .hash

theorem covers_new (key : Key) : ({ key } : TableIndex).Covers [] where
  ordered := List.Pairwise.nil
  entries _ := List.Perm.nil
  lookups _ _ := rfl
  hashes _ _ h := nomatch h
  openOnly h := nomatch h

namespace Covers

variable {index : TableIndex} {records : List Record}

theorem perm_unique (h : index.Covers records) (hk : index.key = .unique) :
    (index.unique.map Prod.fst).Perm records := by
  have keys := (h.entries hk).map Prod.fst
  rwa [map_fst_numbered] at keys

/-- A unique key holds no record twice. -/
theorem nodup (h : index.Covers records) (hk : index.key = .unique) : records.Nodup := by
  have apart : (index.unique.map Prod.fst).Pairwise Record.Before := List.pairwise_map.2 h.ordered
  exact (h.perm_unique hk).nodup_iff.1 (apart.imp Record.Before.ne)

theorem holds_iff (h : index.Covers records) (hk : index.key = .unique) (record : Record) :
    index.holds record = true ↔ record ∈ records := by
  rw [← (h.perm_unique hk).mem_iff]
  simp [holds]

theorem check_eq (h : index.Covers records) (record : Record) :
    index.check record = match keyRefusal? index.key records record with
      | some e => .error e
      | none => .ok () := by
  unfold check keyRefusal?
  cases hk : index.key with
  | none => rfl
  | unique =>
    by_cases hr : record ∈ records
    · simp [hr, (h.holds_iff hk record).2 hr]
    · have absent : index.holds record = false := by
        rw [Bool.eq_false_iff, ne_eq, h.holds_iff hk]
        exact hr
      simp [hr, absent]
  | hash =>
    by_cases hr : record.size < hashWidth <;> simp [Record.splitHash, hr, Except.map]

theorem insert_unique (h : index.Covers records) (hk : index.key = .unique) {record : Record}
    (fresh : record ∉ records) :
    { index with unique := insertByRecord record ⟨records.length⟩ index.unique }.Covers
      (records ++ [record]) := by
  have apart : ∀ entry ∈ index.unique, record ≠ entry.1 := by
    rintro entry he rfl
    exact fresh ((h.perm_unique hk).mem_iff.1 (List.mem_map_of_mem he))
  have notHash : ¬index.key = .hash := by rw [hk]; decide
  refine ⟨ordered_insertByRecord apart h.ordered, fun _ => ?_, fun other => absurd other notHash,
    fun other => absurd other notHash, h.openOnly⟩
  rw [numbered_append]
  exact (perm_insertByRecord apart).trans
    (((h.entries hk).cons _).trans (List.perm_append_singleton _ _).symm)

theorem insert_hash (h : index.Covers records) (hk : index.key = .hash) {record payload : Record}
    {hash : UInt64} (split : Record.splitHash record = .ok (payload, hash)) :
    { index with hashed := insertByHash hash ⟨records.length⟩ index.hashed }.Covers
      (records ++ [record]) := by
  have notUnique : ¬index.key = .unique := by rw [hk]; decide
  refine ⟨h.ordered, fun other => absurd other notUnique, fun _ other => ?_, fun _ r hr => ?_,
    h.openOnly⟩
  · have ends : record.endsWith other = decide (other = hash) := by
      simp [Record.endsWith, split, eq_comm]
    rw [rowsWith_append, ← h.lookups hk, ends]
    refine (lookup_insertByHash hash other _ index.hashed).trans ?_
    by_cases same : other = hash <;> simp [same]
  · rcases List.mem_append.1 hr with hr | hr
    · exact h.hashes hk r hr
    · rw [List.mem_singleton.1 hr]
      refine Nat.le_of_not_lt fun narrow => ?_
      rw [Record.splitHash, if_pos narrow] at split
      cases split

/-- A record that is not refused joins the others. -/
theorem add (h : index.Covers records) {record : Record}
    (hr : keyRefusal? index.key records record = none) :
    ∃ next, index.add record ⟨records.length⟩ = .ok next ∧ next.Covers (records ++ [record]) ∧
      next.key = index.key ∧ next.isOpen = index.isOpen := by
  match hk : index.key with
  | .none =>
    have notUnique : ¬index.key = .unique := by rw [hk]; decide
    have notHash : ¬index.key = .hash := by rw [hk]; decide
    refine ⟨index, by simp [TableIndex.add, hk], ?_, hk, rfl⟩
    exact ⟨h.ordered, fun other => absurd other notUnique, fun other => absurd other notHash,
      fun other => absurd other notHash, h.openOnly⟩
  | .unique =>
    have fresh : record ∉ records := by
      intro there
      simp [keyRefusal?, hk, there] at hr
    exact ⟨_, by simp [TableIndex.add, hk], h.insert_unique hk fresh, hk, rfl⟩
  | .hash =>
    have wide : ¬record.size < hashWidth := by
      intro narrow
      simp [keyRefusal?, hk, narrow] at hr
    obtain ⟨payload, hash, split⟩ : ∃ payload hash, Record.splitHash record = .ok (payload, hash) :=
      ⟨_, _, if_neg wide⟩
    exact ⟨_, by simp [TableIndex.add, hk, split, Except.map], h.insert_hash hk split, hk, rfl⟩

/-- A look-up reads the records that end with a hash, while the index is open. -/
theorem lookup_eq (h : index.Covers records) {read : RowId → Except StorageError Record}
    (hr : ∀ entry ∈ numbered records, read entry.2 = .ok entry.1) (hash : UInt64) :
    (do (← index.rowsOf hash).mapM read) =
      if index.isOpen then .ok (records.filter (Record.endsWith hash))
      else .error .indexNotOpen := by
  by_cases ho : index.isOpen
  · have found : index.rowsOf hash = .ok (rowsWith hash records) := by
      rw [rowsOf, if_pos ho, h.lookups (h.openOnly ho)]
    rw [found, if_pos ho]
    exact mapM_rowsWith hr hash
  · rw [rowsOf, if_neg ho, if_neg ho]
    rfl

theorem clear (h : index.Covers records) : index.clear.Covers [] where
  ordered := List.Pairwise.nil
  entries _ := List.Perm.nil
  lookups _ _ := rfl
  hashes _ _ h := nomatch h
  openOnly := h.openOnly

theorem openLookups (h : index.Covers records) (hk : index.key = .hash) :
    index.openLookups = .ok { index with isOpen := true } ∧
      { index with isOpen := true }.Covers records :=
  ⟨if_pos hk, ⟨h.ordered, h.entries, h.lookups, h.hashes, fun _ => hk⟩⟩

end Covers

end TableIndex

end ResultSink
