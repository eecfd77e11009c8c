import Mathlib.Data.List.Forall2
import ResultSink.Proofs.Sink.Lifecycle
import ResultSink.Proofs.Value.Types

/-! Rows that conform to their columns. Every row that a sink stores has a value for each stored
column, which the column admits, and a row that carries such values is projected onto the very
record that holds them. -/

namespace ResultSink

theorem mapM_eq_ok_iff {α β ε : Type} {f : α → Except ε β} {l : List α} {found : List β} :
    l.mapM f = .ok found ↔ List.Forall₂ (fun a b => f a = .ok b) l found := by
  induction l generalizing found with
  | nil => cases found <;> simp [pure, Except.pure]
  | cons a l ih =>
    rw [List.mapM_cons]
    cases first : f a with
    | error e => cases found <;> simp [bind, Except.bind, first]
    | ok b =>
      cases rest : l.mapM f with
      | error e => cases found <;> simp [bind, Except.bind, first, ← ih, rest]
      | ok others =>
        cases found <;> simp [bind, Except.bind, pure, Except.pure, first, ← ih, rest]

theorem Value.HasType.canonical {v : Value} {target : DataType} (h : v.HasType target) :
    v.canonical.HasType target := by
  cases h <;> constructor <;> assumption

/-! ### Rows of a plan -/

/-- A column admits the values of its type, and NULL if it is nullable. -/
def Column.Admits (c : Column) (v : Value) : Prop :=
  v.HasType c.dataType ∨ v = .null ∧ c.nullable = true

theorem Column.Admits.canonical {c : Column} {v : Value} (h : c.Admits v) :
    c.Admits v.canonical := by
  rcases h with typed | ⟨rfl, nullable⟩
  · exact .inl typed.canonical
  · exact .inr ⟨rfl, nullable⟩

namespace Plan

/-- A row has one value for each stored column of a plan, and each column admits its value. -/
def Conforms (plan : Plan) (row : Row) : Prop := List.Forall₂ Column.Admits plan.columns row

/-- An incoming row has the values of a stored row where the stored columns stand. -/
structure Carries (plan : Plan) (incoming row : Row) : Prop where
  width : incoming.length = plan.sourceWidth
  values : List.Forall₂ (fun c v => incoming[c.1]? = some v) plan.stored row

variable {plan : Plan} {row values incoming : Row}

theorem projectColumn_admits {position : Nat} {c : Column} {v : Value}
    (h : projectColumn row position c = .ok v) : c.Admits v := by
  unfold projectColumn at h
  split at h
  · cases h
  · next w cast =>
    split at h
    · cases h
    · next nullable =>
      cases h
      cases present : (row[position]?.getD .null).isNull with
      | false => exact .inl (Value.hasType_of_cast present cast)
      | true =>
        have null : v = .null := by
          unfold Value.cast at cast
          rw [if_pos present] at cast
          exact (Except.ok.inj cast).symm
        subst null
        exact .inr ⟨rfl, by simpa [Value.isNull] using nullable⟩

theorem projectColumn_eq {position : Nat} {c : Column} {v : Value} (h : c.Admits v)
    (notFloat : c.dataType ≠ .float) (there : incoming[position]? = some v) :
    projectColumn incoming position c = .ok v := by
  rcases h with typed | ⟨rfl, nullable⟩
  · simp [projectColumn, there, typed.cast_eq notFloat, typed.not_null]
  · simp [projectColumn, there, Value.cast, Value.isNull, nullable]

theorem conforms_projectValues (h : plan.projectValues row = .ok values) :
    plan.Conforms values.canonical := by
  unfold projectValues at h
  split at h
  · cases h
  · unfold Conforms columns Row.canonical
    rw [List.forall₂_map_left_iff, List.forall₂_map_right_iff]
    exact (mapM_eq_ok_iff.1 h).imp fun c v projected => (projectColumn_admits projected).canonical

/-- A row that carries the values of a conforming row is projected onto that row. -/
theorem Conforms.project_eq (h : plan.Conforms row)
    (notFloat : ∀ c ∈ plan.columns, c.dataType ≠ .float) (carries : plan.Carries incoming row) :
    plan.project incoming = .ok row.encode := by
  have kept : ∀ c ∈ plan.stored, c.2.dataType ≠ .float := fun c hc =>
    notFloat c.2 (List.mem_map_of_mem hc)
  have admitted := (List.forall₂_and_left _ _).2 ⟨kept, List.forall₂_map_left_iff.1 h⟩
  have projected : plan.projectValues incoming = .ok row := by
    rw [projectValues, if_neg (by simp [carries.width]), mapM_eq_ok_iff]
    exact admitted.mp (fun c v ⟨notFloat, admits⟩ there => projectColumn_eq admits notFloat there)
      carries.values
  rw [project, projected]
  rfl

end Plan

/-! ### Rows of a sink -/

namespace Sink

/-- The rows of a ledger conform to the plan of the table, where there is one. -/
def Conforming {τ : Type} (s : Sink τ) (rows : List Row) : Prop :=
  ∀ plan handle, s.table = some ⟨plan, handle⟩ → ∀ row ∈ rows, plan.Conforms row

section

variable {ω τ : Type} (storage : Storage ω τ) {s : Sink τ} {rows : List Row} {row : Row}

theorem conforms_projection? {plan : Plan} {handle : Option τ} (ht : s.table = some ⟨plan, handle⟩)
    {incoming : Row} (projected : s.projection? incoming = some row) : plan.Conforms row := by
  cases hv : plan.projectValues incoming with
  | error e => simp [projection?, ht, hv] at projected
  | ok values =>
    rw [projection?_eq ht hv] at projected
    cases projected
    exact Plan.conforms_projectValues hv

/-- What an operation adds to a ledger is the projection of a row. -/
theorem mem_noted {op : Op} {answer : Except (Failure SinkError) Reply}
    (there : row ∈ s.noted op answer rows) :
    row ∈ rows ∨ ∃ incoming, s.projection? incoming = some row := by
  unfold noted at there
  split at there
  · cases there
  · cases there
  · cases there
  · next incoming =>
    rcases List.mem_append.1 there with old | new
    · exact .inl old
    · exact .inr ⟨incoming, by simpa using new⟩
  · exact .inl there

/-- Only provisioning gives a table to a sink that has none, and the ledger is empty then. -/
theorem step_without_table (ht : s.table = none) (op : Op) (w : ω) (rows : List Row) :
    (step storage op s w).2.1.table = none ∨
      s.noted op (step storage op s w).1 rows = [] := by
  have before : s.plan? = none := by rw [plan?, ht]; rfl
  have after := plan?_step storage op s w
  rw [before] at after
  split at after
  · next request reply made => exact .inr (by rw [made]; rfl)
  · exact .inl (Option.map_eq_none_iff.1 after)
  · exact .inl (Option.map_eq_none_iff.1 after)

end

namespace Keeps

variable {s : Sink Table} {w : Engine} {rows : List Row}

theorem step_conforming (h : s.Keeps w rows) (conforming : s.Conforming rows) (op : Op) :
    let after := Sink.step Engine.storage op s w
    after.2.1.Conforming (s.noted op after.1 rows) := by
  intro after plan handle ht' row there
  -- A table that comes or goes leaves no rows to speak of; one that stays keeps its plan.
  rcases ht : s.table with _ | ⟨old, before⟩
  · rcases step_without_table Engine.storage ht op w rows with none | nothing
    · cases none.symm.trans ht'
    · rw [nothing] at there
      cases there
  · by_cases freed : op = .free
    · subst freed
      cases ht'
    · obtain ⟨left, same, -⟩ := h.step_continues freed old before ht
      cases same.symm.trans ht'
      rcases mem_noted there with kept | ⟨incoming, projected⟩
      · exact conforming plan before ht row kept
      · exact conforms_projection? ht projected

theorem run_conforming (h : s.Keeps w rows) (conforming : s.Conforming rows) (ops : List Op) :
    (Sink.run Engine.storage ops s w).1.Conforming (ledger Engine.storage ops s w rows) := by
  induction ops generalizing s w rows with
  | nil => exact conforming
  | cons op ops ih => exact ih (h.step op) (h.step_conforming conforming op)

end Keeps

/-- After any run each row that a sink returns has a value for every stored column, which the column
admits, and is held in the record at its place in the table. Where no column is of type FLOAT, a row
that carries its values is projected onto just that record. -/
theorem rows_conform (engine : Engine) (ops : List Op) :
    let s := (run Engine.storage ops {} engine).1
    let w := (run Engine.storage ops {} engine).2
    ∀ plan t, s.table = some ⟨plan, some t⟩ →
      ∃ rows, (s.rows Engine.storage w).1 = .ok rows ∧
        t.scan = .ok (rows.map fun row => plan.recordOf row.encode) ∧
        ∀ row ∈ rows, List.Forall₂ Column.Admits plan.columns row ∧
          ((∀ c ∈ plan.columns, c.dataType ≠ .float) →
            ∀ incoming, plan.Carries incoming row → plan.project incoming = .ok row.encode) := by
  intro s w plan t ht
  have h : s.Keeps w (ledger Engine.storage ops {} engine []) := (Keeps.init engine).run ops
  have start : ({} : Sink Table).Conforming [] := fun _ _ _ _ there => nomatch there
  have conforming := (Keeps.init engine).run_conforming start ops
  obtain ⟨records, scanned, order, answered, back⟩ := h.scan_eq ht
  have kept : (records.map plan.rowOf).Perm (ledger Engine.storage ops {} engine []) :=
    (order.perm.map plan.rowOf).trans (.of_eq (h.map_rowOf plan))
  refine ⟨records.map plan.rowOf, by rw [answered], scanned.trans (congrArg _ back.symm), ?_⟩
  intro row hr
  have conforms : plan.Conforms row := conforming plan (some t) ht row (kept.mem_iff.1 hr)
  exact ⟨conforms, fun notFloat incoming carries => conforms.project_eq notFloat carries⟩

/-- A request for rows of a whole number, which is never NULL, and a decimal, with a hidden column
between them. -/
def pricesRequest : TableRequest :=
  { columns := [{ name := "n", dataType := .int, nullable := false },
      { name := "k", dataType := .text, isHidden := true },
      { name := "d", dataType := .decimal (some 4) (some 1) }], distinct := true, name := "p" }

/-- A stored row is projected onto its record again, whatever stands in the hidden column. -/
theorem rows_conform_prices :
    let engine := oneRowEngine {}
    let ops : List Op := [.create pricesRequest, .insert [.string "8", .null, .double (.ofBits 0)],
      .insert [.int 7, .int 1, .null]]
    let s := (run Engine.storage ops {} engine).1
    let w := (run Engine.storage ops {} engine).2
    let plan := Plan.resolve pricesRequest {}
    ∃ rows, (s.rows Engine.storage w).1 = .ok rows ∧ [.int 7, .null] ∈ rows ∧
      (∀ row ∈ rows, List.Forall₂ Column.Admits plan.columns row) ∧
      plan.project [.int 7, .boolean true, .null] = .ok (Row.encode [.int 7, .null]) := by
  intro engine ops s w plan
  have known : s.table.map (fun t => (t.plan, t.handle.isSome)) = some (plan, true) := by
    decide +kernel
  obtain ⟨t, ht⟩ := exists_handle known
  obtain ⟨rows, answered, -, conform⟩ := rows_conform engine ops plan t ht
  have read : (s.rows Engine.storage w).1.toOption =
      some [[.int 7, .null], [.int 8, .decimal { toInt := 0 } 1]] := by decide +kernel
  rw [answered] at read
  have there : [.int 7, .null] ∈ rows := by
    rw [Option.some.inj read]
    exact List.mem_cons_self
  refine ⟨rows, answered, there, fun row hr => (conform row hr).1, ?_⟩
  exact (conform _ there).2 (by decide) _ ⟨rfl, .cons rfl (.cons rfl .nil)⟩

end Sink

end ResultSink
