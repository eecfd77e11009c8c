import ResultSink.Proofs.Sink.Copies
import ResultSink.Proofs.Sink.Schema
import ResultSink.Proofs.Value.Equality

/-! Results without duplicates. A table that eliminates duplicates holds no row twice, so two of its
rows are written in different bytes; and rows of its columns that are written differently do not
compare equal, unless they differ in decimals alone that do. -/

namespace ResultSink

/-! ### Rows that compare equal -/

/-- Two rows have decimals in one place that differ and compare equal. -/
def Row.Blurred (r s : Row) : Prop := ∃ pair ∈ r.zip s, Value.Blurred pair.1 pair.2

theorem Column.Admits.null_or_hasType {c : Column} {v : Value} (h : c.Admits v) :
    v = .null ∨ v.HasType c.dataType :=
  h.symm.imp_left And.left

/-- Rows of the same columns that compare equal share their canonical form, unless they have blurred
decimals. -/
theorem Row.canonical_eq_or_blurred {columns : List Column} {r s : Row}
    (hr : List.Forall₂ Column.Admits columns r) (hs : List.Forall₂ Column.Admits columns s)
    (same : r.equals s = true) : r.canonical = s.canonical ∨ r.Blurred s := by
  induction hr generalizing s with
  | nil =>
    cases hs
    exact .inl rfl
  | @cons c v columns r admits _ ih =>
    cases hs with
    | @cons _ w _ s admits' others' =>
      obtain ⟨first, rest⟩ := Bool.and_eq_true_iff.1 same
      rcases Value.canonical_eq_or_blurred admits.null_or_hasType admits'.null_or_hasType first with
        form | blurred
      · rcases ih others' rest with forms | ⟨pair, there, blurred⟩
        · exact .inl (congrArg₂ List.cons form forms)
        · exact .inr ⟨pair, List.mem_cons_of_mem _ there, blurred⟩
      · exact .inr ⟨(v, w), List.mem_cons_self, blurred⟩

/-- Rows without a decimal column have no blurred decimals. -/
theorem Row.Blurred.exists_decimal {columns : List Column} {r s : Row} (h : r.Blurred s)
    (hr : List.Forall₂ Column.Admits columns r) :
    ∃ c ∈ columns, ∃ precision scale, c.dataType = .decimal precision scale := by
  obtain ⟨⟨v, w⟩, there, blurred⟩ := h
  obtain ⟨position, bound, rfl⟩ := List.getElem_of_mem (List.of_mem_zip there).1
  have column : position < columns.length := by rwa [hr.length_eq]
  exact ⟨columns[position], List.getElem_mem column,
    blurred.target_eq (hr.get column bound).null_or_hasType⟩

/-- Canonical rows of the same columns that are all different compare equal only where they are
blurred. -/
theorem pairwise_blurred {columns : List Column} {rows : List Row}
    (conform : ∀ row ∈ rows, List.Forall₂ Column.Admits columns row)
    (canonical : ∀ row ∈ rows, row.canonical = row) (distinct : rows.Nodup) :
    rows.Pairwise fun r s => r.equals s = true → r.Blurred s := by
  refine List.Pairwise.imp_of_mem (fun hr hs differ same => ?_) distinct
  refine (Row.canonical_eq_or_blurred (conform _ hr) (conform _ hs) same).resolve_left ?_
  rwa [canonical _ hr, canonical _ hs]

namespace Sink

/-! ### Ledgers without duplicates -/

/-- Duplicates are eliminated as long as nobody switches that off. -/
theorem step_eliminating {ω τ : Type} (storage : Storage ω τ) {s : Sink τ}
    (h : s.eliminating = true) {op : Op} (kept : op ≠ .setEliminating false) (w : ω) :
    (step storage op s w).2.1.eliminating = true := by
  cases op with
  | prepare shape | endOfRows | flush => exact h
  | free => rfl
  | create request =>
    unfold step create
    dsimp only
    split
    · exact h
    · split
      · split
        · rfl
        · exact h
      · rfl
  | instantiate =>
    unfold step instantiate
    dsimp only
    split
    · exact h
    · exact h
    · split <;> exact h
  | insert row =>
    rcases insert_reaches storage s row w with ⟨e, turned⟩ | ⟨plan, t, values, ht, hv⟩
    · simpa [step, turned] using h
    · have projected : plan.project row = .ok values.encode := by rw [Plan.project, hv]; rfl
      obtain ⟨answer, t', w', calls, -, inserted, -⟩ :=
        Plan.insert_watched storage plan t w s.eliminating values.encode
      simp only [step, insert_eq storage ht projected w inserted]
      rcases answer with e | _ | _ <;> exact h
  | setEliminating on =>
    cases on with
    | false => exact absurd rfl kept
    | true => rfl
  | reset | cleanup =>
    unfold step
    dsimp only [cleanup]
    unfold reset
    dsimp only
    split <;> rfl
  | rows =>
    unfold step Sink.rows
    dsimp only
    split <;> exact h

namespace Keeps

variable {s : Sink Table} {w : Engine} {rows : List Row} {strategy : Strategy}

/-- A row that was stored is new if duplicates are eliminated. -/
theorem not_mem_of_inserted (h : s.Keeps w rows) {plan : Plan} {t : Table}
    (ht : s.table = some ⟨plan, some t⟩) {row values : Row}
    (hv : plan.projectValues row = .ok values)
    (eliminates : plan.strategy = .uniqueKey ∨ plan.strategy = .hashKey ∧ s.eliminating = true)
    (stored : (s.insert Engine.storage row w).1 = .ok .inserted) : values.canonical ∉ rows := by
  obtain ⟨answer, next, world, held, inserted, -, -, inserts⟩ := h.insert_reached ht hv
  rw [inserted] at stored
  cases answer with
  | error e => cases stored
  | ok outcome =>
    cases stored
    intro there
    have known := (h.mem_records_iff plan values).2 there
    cases (inserts.rejected_iff (h.serves plan t ht).key).2 ⟨known, eliminates⟩

theorem insert_nodup (h : s.Keeps w rows) {plan : Plan} {handle : Option Table}
    (ht : s.table = some ⟨plan, handle⟩)
    (eliminates : plan.strategy = .uniqueKey ∨ plan.strategy = .hashKey ∧ s.eliminating = true)
    (distinct : rows.Nodup) {row : Row}
    (stored : (s.insert Engine.storage row w).1 = .ok .inserted) :
    (rows ++ (s.projection? row).toList).Nodup := by
  rcases insert_cases s row w with ⟨e, turned⟩ | ⟨other, t, values, ht', hv⟩
  · rw [turned] at stored
    cases stored
  · cases ht.symm.trans ht'
    rw [projection?_eq ht hv, Option.toList_some, ← List.concat_eq_append]
    exact distinct.concat (h.not_mem_of_inserted ht hv eliminates stored)

/-- A table that eliminates duplicates takes no row that it holds. -/
theorem step_nodup (h : s.Keeps w rows)
    (distinct : s.strategy? = some strategy → rows.Nodup)
    (eliminates : strategy = .uniqueKey ∨ strategy = .hashKey ∧ s.eliminating = true) (op : Op) :
    let after := Sink.step Engine.storage op s w
    after.2.1.strategy? = some strategy → (s.noted op after.1 rows).Nodup := by
  intro after known
  -- A table that comes starts without rows; one that stays keeps its strategy.
  rcases ht : s.table with _ | ⟨plan, handle⟩
  · rcases step_without_table Engine.storage ht op w rows with none | nothing
    · simp [strategy?, after, none] at known
    · rw [nothing]
      exact List.nodup_nil
  · by_cases freed : op = .free
    · subst freed
      cases known
    · obtain ⟨left, same, -⟩ := h.step_continues freed plan handle ht
      have chosen : plan.strategy = strategy := by
        simpa [strategy?, after, same] using known
      have old : rows.Nodup := distinct (by simp [strategy?, ht, chosen])
      unfold noted
      split
      · exact List.nodup_nil
      · exact List.nodup_nil
      · exact List.nodup_nil
      · next row answered =>
        have stored : (s.insert Engine.storage row w).1 = .ok .inserted := by
          cases told : (s.insert Engine.storage row w).1 <;>
            simp [after, Sink.step, told, Except.map] at answered
          rw [answered]
        exact h.insert_nodup ht (chosen ▸ eliminates) old stored
      · exact old

theorem run_nodup (h : s.Keeps w rows) (distinct : s.strategy? = some strategy → rows.Nodup)
    (ops : List Op) (eliminates : strategy = .uniqueKey ∨
      strategy = .hashKey ∧ s.eliminating = true ∧ .setEliminating false ∉ ops) :
    (Sink.run Engine.storage ops s w).1.strategy? = some strategy →
      (ledger Engine.storage ops s w rows).Nodup := by
  induction ops generalizing s w rows with
  | nil => exact distinct
  | cons op ops ih =>
    refine ih (h.step op) (h.step_nodup distinct ?_ op) ?_
    · exact eliminates.imp_right fun ⟨hash, on, _⟩ => ⟨hash, on⟩
    · refine eliminates.imp_right fun ⟨hash, on, kept⟩ => ?_
      rw [List.mem_cons, not_or] at kept
      exact ⟨hash, step_eliminating Engine.storage on (Ne.symm kept.1) w, kept.2⟩

/-- A table that holds no row holds none twice. -/
theorem nodup_of_rowCount (h : s.Keeps w rows) (empty : s.rowCount = 0)
    (known : s.strategy? = some strategy) : rows.Nodup := by
  obtain ⟨t, ht, -⟩ := Option.map_eq_some_iff.1 known
  have count := h.rowCount
  rw [empty, ht] at count
  rw [List.eq_nil_of_length_eq_zero count.symm]
  exact List.nodup_nil

/-- The rows of a table that holds none twice compare equal only where they are blurred, which they
are not without a decimal column. -/
theorem rows_pairwise (h : s.Keeps w rows) (conforming : s.Conforming rows) (distinct : rows.Nodup)
    {plan : Plan} {t : Table} (ht : s.table = some ⟨plan, some t⟩) :
    ∃ read, (s.rows Engine.storage w).1 = .ok read ∧
      read.Pairwise (fun r r' => r.equals r' = true → r.Blurred r') ∧
      ((∀ c ∈ plan.columns, ∀ precision scale, c.dataType ≠ .decimal precision scale) →
        read.Pairwise fun r r' => r.equals r' = false) := by
  obtain ⟨read, answered, order⟩ := h.rows_eq ht
  have kept : read.Perm rows := by
    split at order
    · exact order.1
    · exact .of_eq order
  have conform (row : Row) (hr : row ∈ read) : List.Forall₂ Column.Admits plan.columns row :=
    conforming plan (some t) ht row (kept.mem_iff.1 hr)
  have canonical (row : Row) (hr : row ∈ read) : row.canonical = row :=
    h.canonical row (kept.mem_iff.1 hr)
  have blurred := pairwise_blurred conform canonical (kept.nodup_iff.2 distinct)
  refine ⟨read, by rw [answered], blurred, fun plain => ?_⟩
  refine List.Pairwise.imp_of_mem (fun hr _ equal => ?_) blurred
  rw [Bool.eq_false_iff]
  intro same
  obtain ⟨c, hc, precision, scale, decimal⟩ := (equal same).exists_decimal (conform _ hr)
  exact plain c hc precision scale decimal

end Keeps

/-- Two values of one type that compare equal are written alike exactly if they are not blurred
decimals: a row with the one has the record of the row with the other. And a table that held no row
and has eliminated duplicates since then returns no two rows that compare equal, unless they have
blurred decimals. -/
theorem equal_rows_blur {target : DataType} {v v' a b : Value} (ha : v.cast target = .ok a)
    (hb : v'.cast target = .ok b) (same : a.equals b = true) (engine : Engine)
    (history episode : List Op) :
    ((∀ front back : Row, Row.encode (front ++ a :: back) = Row.encode (front ++ b :: back) ↔
        ¬Value.Blurred a b) ∧
      (Value.Blurred a b → ∃ precision scale, target = .decimal precision scale)) ∧
    let before := (run Engine.storage history {} engine).1
    let s := (run Engine.storage (history ++ episode) {} engine).1
    let w := (run Engine.storage (history ++ episode) {} engine).2
    ∀ plan t, before.rowCount = 0 → s.table = some ⟨plan, some t⟩ →
      (plan.strategy = .uniqueKey ∨ plan.strategy = .hashKey ∧ before.eliminating = true ∧
        .setEliminating false ∉ episode) →
      ∃ rows, (s.rows Engine.storage w).1 = .ok rows ∧
        rows.Pairwise (fun r r' => r.equals r' = true → r.Blurred r') ∧
        ((∀ c ∈ plan.columns, ∀ precision scale, c.dataType ≠ .decimal precision scale) →
          rows.Pairwise fun r r' => r.equals r' = false) := by
  refine ⟨?_, ?_⟩
  · have left := Value.null_or_hasType_of_cast ha
    have right := Value.null_or_hasType_of_cast hb
    exact ⟨fun front back => (Row.encode_cons_eq_iff front back).trans
      (Value.encode_eq_iff_of_equals left right same), fun blurred => blurred.target_eq left⟩
  · intro before s w plan t empty ht eliminates
    have start : ({} : Sink Table).Conforming [] := fun _ _ _ _ there => nomatch there
    have h : before.Keeps _ (ledger Engine.storage history {} engine []) :=
      (Keeps.init engine).run history
    have conforming : before.Conforming (ledger Engine.storage history {} engine []) :=
      (Keeps.init engine).run_conforming start history
    have parts : run Engine.storage (history ++ episode) {} engine =
        run Engine.storage episode before (run Engine.storage history {} engine).2 :=
      List.foldl_append
    have known : s.strategy? = some plan.strategy := by rw [strategy?, ht]; rfl
    simp only [s, w, parts] at known ht ⊢
    have distinct := h.run_nodup (h.nodup_of_rowCount empty) episode eliminates known
    exact (h.run episode).rows_pairwise (h.run_conforming conforming episode) distinct ht

/-- The zeros of the doubles share their record, and whole numbers that arrive under a hash key, one
of them twice, do not compare equal. -/
theorem equal_rows_blur_zeros :
    let negative := Value.double (.ofBits (2 ^ 63))
    let history : List Op := [.prepare { mixed := true }, .create numbersRequest]
    let episode : List Op := [.insert [.int 2], .insert [.string "2"], .insert [.int 1]]
    let s := (run Engine.storage (history ++ episode) {} (oneRowEngine {})).1
    let w := (run Engine.storage (history ++ episode) {} (oneRowEngine {})).2
    (Value.string "-0").cast .double = .ok negative ∧
      Row.encode [.int 1, negative, .null] = Row.encode [.int 1, .double .zero, .null] ∧
      ∃ rows, (s.rows Engine.storage w).1 = .ok rows ∧ rows.length = 2 ∧
        rows.Pairwise fun r r' => r.equals r' = false := by
  intro negative history episode s w
  have cast : (Value.string "-0").cast .double = .ok negative := by decide +kernel
  have same : negative.equals (.double .zero) = true := by decide +kernel
  have cast' : (Value.double .zero).cast .double = .ok (.double .zero) := rfl
  obtain ⟨⟨alike, decimals⟩, results⟩ :=
    equal_rows_blur cast cast' same (oneRowEngine {}) history episode
  have clear : ¬Value.Blurred negative (.double .zero) := fun blurred => by
    obtain ⟨precision, scale, other⟩ := decimals blurred
    cases other
  let plan := Plan.resolve numbersRequest { mixed := true }
  have known : s.table.map (fun t => (t.plan, t.handle.isSome)) = some (plan, true) := by
    decide +kernel
  obtain ⟨t, ht⟩ := exists_handle known
  have mode : (run Engine.storage history {} (oneRowEngine {})).1.eliminating = true := by
    decide +kernel
  obtain ⟨rows, answered, -, differ⟩ := results plan t (by decide +kernel) ht
    (.inr ⟨rfl, mode, by simp [episode]⟩)
  have count : (s.rows Engine.storage w).1.toOption.map List.length = some 2 := by
    decide +kernel
  rw [answered] at count
  have columns : plan.columns = numbersRequest.columns := by decide
  exact ⟨cast, (alike [.int 1] [.null]).2 clear, rows, answered, Option.some.inj count,
    differ (by simp [columns, numbersRequest])⟩

/-- Decimals of twenty places. -/
def tinyRequest : TableRequest :=
  { columns := [{ name := "d", dataType := .decimal none (some 20) }], distinct := true,
    name := "d" }

/-- Two decimals that are less than `2 ^ -52` apart compare equal, are written differently, and are
both rows of one result without duplicates. -/
theorem equal_rows_stored_twice :
    let a := Value.decimal { toInt := 0 } 20
    let b := Value.decimal { toInt := 1 } 20
    let ops : List Op := [.create tinyRequest, .insert [a], .insert [b]]
    let s := (run Engine.storage ops {} (oneRowEngine {})).1
    let w := (run Engine.storage ops {} (oneRowEngine {})).2
    a.cast (.decimal none (some 20)) = .ok a ∧ b.cast (.decimal none (some 20)) = .ok b ∧
      a.equals b = true ∧ Row.encode [a] ≠ Row.encode [b] ∧
      (s.rows Engine.storage w).1.toOption = some [[a], [b]] ∧ Row.equals [a] [b] = true := by
  decide +kernel

end Sink

end ResultSink
