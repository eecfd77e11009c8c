import ResultSink.Proofs.Sink.Course
import ResultSink.Proofs.Sink.Outcomes
import ResultSink.Proofs.Storage.Promotion

/-! The life of a result table. `Table.Ages` relates a table to what has become of it at a later
time: it goes by the same number and has moved to disk at most once. As long as its table is not
freed, a sink keeps its plan, and the table that was instantiated ages. -/

namespace ResultSink

/-! ### Tables -/

/-- A table and what has become of it: it goes by its number, it has not left the disk, and the
engine has counted one promotion if it is in another place, and none if it is not. -/
structure Table.Ages (t : Table) (w : Engine) (next : Table) (w' : Engine) : Prop where
  id : next.id = t.id
  disk : t.placement = .disk → next.placement = .disk
  promotions : w'.stats.promotions =
    w.stats.promotions + if next.placement = t.placement then 0 else 1

namespace Table.Ages

variable {t next last : Table} {w w' w'' : Engine}

theorem of_lasts (h : t.Lasts next) (counted : w'.stats.promotions = w.stats.promotions) :
    t.Ages w next w' where
  id := h.id
  disk place := h.placement.trans place
  promotions := by rw [if_pos h.placement, counted, Nat.add_zero]

theorem refl (t : Table) (w : Engine) : t.Ages w t w := of_lasts ⟨rfl, rfl, rfl⟩ rfl

theorem trans (h : t.Ages w next w') (h' : next.Ages w' last w'') : t.Ages w last w'' where
  id := h'.id.trans h.id
  disk place := h'.disk (h.disk place)
  promotions := by
    rw [h'.promotions, h.promotions]
    -- A table that has moved is on disk and stays there, so at most one of the two steps moved it.
    have stays := h.disk
    have stays' := h'.disk
    cases ht : t.placement <;> cases hn : next.placement <;> cases hl : last.placement <;>
      simp_all

theorem of_move (source : t.placement = .memory) (id : next.id = t.id)
    (place : next.placement = .disk) : t.Ages w next w.countPromotion where
  id := id
  disk other := by cases source.symm.trans other
  promotions := by
    have moved : ¬next.placement = t.placement := by simp [source, place]
    rw [if_neg moved]
    rfl

end Table.Ages

/-! ### Insertions -/

namespace Plan

variable {plan : Plan} {t t₁ : Table} {t' : Numbered Table} {records : List Record}
  {w w' : Engine} {calls : List (Call Table)}

/-- A table that an engine is asked to promote is copied to disk, or it stays and nothing is
counted. -/
theorem Serves.promotion (h : plan.Serves w.config t records) :
    (t.placement = .memory ∧ ∃ copy,
      Engine.storage.promote t w = (.ok copy, t, w.countPromotion) ∧
      copy.Holds w.config records ∧ t.CopyOf copy) ∨
    ∃ e, Engine.storage.promote t w = (.error e, t, w) := by
  cases place : t.placement with
  | disk => exact .inr ⟨_, by rw [storage_promote, Engine.promote_disk place]⟩
  | memory =>
    rcases w.promote_cases h.holds place with ⟨-, copy, promoted, made⟩ | ⟨-, e, promoted⟩
    · exact .inl ⟨rfl, copy, by rw [storage_promote, promoted], made⟩
    · exact .inr ⟨e, by rw [storage_promote, promoted]⟩

theorem Serves.promotes_ages (h : plan.Serves w.config t records)
    {answer : Except StorageError Unit}
    (hp : Promotes Engine.storage t w answer t' w' calls) :
    t.Ages w t'.table w' ∧ plan.Serves w'.config t'.table records := by
  rcases h.promotion with ⟨source, copy, promoted, copied, copyOf⟩ | ⟨e, promoted⟩
  · obtain ⟨opens, plain⟩ := h.copied copied copyOf
    cases hp with
    | failed hm => cases promoted.symm.trans hm
    | closed hm hk ho =>
      cases promoted.symm.trans hm
      obtain ⟨next, opened, -⟩ := opens hk
      rw [storage_openIndex, opened] at ho
      cases ho
    | opened hm hk ho =>
      cases promoted.symm.trans hm
      obtain ⟨next, opened, serves, id, place⟩ := opens hk
      rw [storage_openIndex, opened] at ho
      cases ho
      exact ⟨.of_move source id place, serves⟩
    | plain hm hk =>
      cases promoted.symm.trans hm
      exact ⟨.of_move source copyOf.id copyOf.placement, plain hk⟩
  · cases hp with
    | failed hm =>
      cases promoted.symm.trans hm
      exact ⟨.refl t w, h⟩
    | closed hm | opened hm | plain hm => cases promoted.symm.trans hm

theorem Serves.write_ages {config : Config} (h : plan.Serves config t records) {record : Record}
    {wrote : Except StorageError Unit}
    (hw : Engine.storage.write record t w = (wrote, t₁, w')) :
    t.Ages w t₁ w' ∧ ∀ e, wrote = .error e → t₁ = t ∧ w' = w := by
  obtain ⟨rfl, ⟨e, -, rfl, rfl⟩ | ⟨written, rfl⟩⟩ := storage_write_cases hw
  · exact ⟨.refl _ _, fun _ _ => ⟨rfl, rfl⟩⟩
  · exact ⟨.of_lasts (h.holds.write_ok written).2.lasts rfl, fun e failed => nomatch failed⟩

theorem Serves.course_ages (h : plan.Serves w.config t records) {record : Record}
    {answer : Except SinkError InsertOutcome}
    (hc : Course Engine.storage plan record t w answer t' w' calls) : t.Ages w t'.table w' := by
  cases hc with
  | settled hw => exact (h.write_ages hw).1
  | unmoved hw _ promotes =>
    obtain ⟨rfl, rfl⟩ := (h.write_ages hw).2 _ rfl
    exact (h.promotes_ages promotes).1
  | moved hw _ promotes hw' =>
    obtain ⟨rfl, rfl⟩ := (h.write_ages hw).2 _ rfl
    obtain ⟨moved, serves⟩ := h.promotes_ages promotes
    exact moved.trans (serves.write_ages hw').1

theorem Serves.insertion_ages (h : plan.Serves w.config t records) {eliminating : Bool}
    {payload : Record} {answer : Except SinkError InsertOutcome}
    (hi : Insertion Engine.storage plan eliminating payload t w answer t' w' calls) :
    t.Ages w t'.table w' := by
  cases hi with
  | unread _ hr | unsplit _ hr | found _ hr =>
    obtain ⟨rfl, rfl⟩ := storage_readHash_leaves hr
    exact .refl _ _
  | new _ hr _ course =>
    obtain ⟨rfl, rfl⟩ := storage_readHash_leaves hr
    exact h.course_ages course
  | unasked _ course => exact h.course_ages course

end Plan

/-! ### Sinks -/

namespace Sink

/-- The plan of the table, once one is provisioned. -/
def plan? {τ : Type} (s : Sink τ) : Option Plan := s.table.map fun t => t.plan

/-- Provisioning gives a sink its plan and freeing the table takes it away. No other operation
changes it. -/
theorem plan?_step {ω τ : Type} (storage : Storage ω τ) (op : Op) (s : Sink τ) (w : ω) :
    (step storage op s w).2.1.plan? =
      match op, (step storage op s w).1 with
      | .create request, .ok _ => some (Plan.resolve request s.shape)
      | .free, _ => none
      | _, _ => s.plan? := by
  cases op with
  | create request =>
    rcases ht : s.table with _ | other
    · simp only [step, create, ht]
      split
      · split
        · rfl
        · simp [plan?, ht]
      · rfl
    · simp [step, create, ht]
  | instantiate =>
    rcases ht : s.table with _ | ⟨plan, _ | t⟩
    · simp [step, instantiate, ht]
    · simp only [step, instantiate, ht]
      split <;> simp [plan?, withHandle, ht]
    · simp [step, instantiate, ht]
  | insert row =>
    rcases insert_reaches storage s row w with ⟨e, turned⟩ | ⟨plan, t, values, ht, hv⟩
    · simp [step, turned]
    · have projected : plan.project row = .ok values.encode := by rw [Plan.project, hv]; rfl
      obtain ⟨answer, t', w', calls, -, inserted, -⟩ :=
        Plan.insert_watched storage plan t w s.eliminating values.encode
      simp [step, insert_eq storage ht projected w inserted, plan?, table_settled, ht]
  | setEliminating on =>
    simp only [step, setEliminating]
    split <;> rfl
  | reset | cleanup =>
    rcases ht : s.table with _ | ⟨plan, _ | t⟩ <;>
      simp [step, cleanup, reset, ht, plan?, withHandle]
  | rows =>
    rcases ht : s.table with _ | ⟨plan, _ | t⟩ <;> simp [step, Sink.rows, ht, plan?, withHandle]
  | prepare shape | free | endOfRows | flush => rfl

/-- Elimination is on under a unique key. -/
def Keyed {τ : Type} (s : Sink τ) : Prop :=
  s.strategy? = some .uniqueKey → s.eliminating = true

theorem Keyed.step {ω τ : Type} (storage : Storage ω τ) {s : Sink τ} (h : s.Keyed) (op : Op)
    (w : ω) : (step storage op s w).2.1.Keyed := by
  cases op with
  | prepare shape => exact h
  | create request =>
    unfold Sink.step Sink.create
    dsimp only
    split
    · exact h
    · split
      · split
        · exact fun _ => rfl
        · exact h
      · exact fun _ => rfl
  | instantiate =>
    unfold Sink.step Sink.instantiate
    dsimp only
    split
    · exact h
    · exact h
    · next plan ht =>
      have same : s.strategy? = some plan.strategy := by rw [strategy?, ht]; rfl
      split
      · exact fun unique => h (same.trans unique)
      · exact h
  | free => exact fun _ => rfl
  | insert row =>
    rcases insert_reaches storage s row w with ⟨e, turned⟩ | ⟨plan, t, values, ht, hv⟩
    · simpa [Sink.step, turned] using h
    · have same : s.strategy? = some plan.strategy := by rw [strategy?, ht]; rfl
      have projected : plan.project row = .ok values.encode := by rw [Plan.project, hv]; rfl
      obtain ⟨answer, t', w', calls, -, inserted, -⟩ :=
        Plan.insert_watched storage plan t w s.eliminating values.encode
      simp only [Sink.step, insert_eq storage ht projected w inserted]
      intro unique
      rw [strategy?, table_settled] at unique
      rcases answer with e | _ | _ <;> exact h (same.trans unique)
  | setEliminating on =>
    unfold Sink.step setEliminating
    dsimp only
    split
    · exact h
    · next free =>
      intro unique
      have keyed : s.strategy? = some .uniqueKey := unique
      simpa [keyed] using free
  | endOfRows | flush => exact h
  | reset =>
    unfold Sink.step Sink.reset
    dsimp only
    split <;> exact fun _ => rfl
  | cleanup =>
    unfold Sink.step Sink.cleanup Sink.reset
    dsimp only
    split <;> exact fun _ => rfl
  | rows =>
    unfold Sink.step Sink.rows
    dsimp only
    split
    · exact h
    · exact h
    · next plan t ht =>
      have same : s.strategy? = some plan.strategy := by rw [strategy?, ht]; rfl
      exact fun unique => h (same.trans unique)

theorem Keyed.run {ω τ : Type} (storage : Storage ω τ) {s : Sink τ} (h : s.Keyed) (ops : List Op)
    (w : ω) : (run storage ops s w).1.Keyed := by
  induction ops generalizing s w with
  | nil => exact h
  | cons op ops ih => exact ih (h.step storage op w) _

/-- What has become of a sink whose table was not freed: the table has its plan, and if it was
instantiated it has aged. -/
def Continues (s : Sink Table) (w : Engine) (next : Sink Table) (w' : Engine) : Prop :=
  ∀ plan handle, s.table = some ⟨plan, handle⟩ → ∃ left, next.table = some ⟨plan, left⟩ ∧
    ∀ t, handle = some t → ∃ t', left = some t' ∧ t.Ages w t' w'

namespace Continues

variable {s next last : Sink Table} {w w' w'' : Engine}

theorem of_table (same : next.table = s.table)
    (counted : w'.stats.promotions = w.stats.promotions) : s.Continues w next w' :=
  fun _ handle ht => ⟨handle, same.trans ht,
    fun t there => ⟨t, there, .of_lasts ⟨rfl, rfl, rfl⟩ counted⟩⟩

theorem of_none (none : s.table = none) : s.Continues w next w' :=
  fun _ _ ht => nomatch none.symm.trans ht

theorem of_ages {plan : Plan} {t t' : Table} (ht : s.table = some ⟨plan, some t⟩)
    (ht' : next.table = some ⟨plan, some t'⟩) (ages : t.Ages w t' w') : s.Continues w next w' := by
  intro other handle there
  cases ht.symm.trans there
  exact ⟨some t', ht', fun _ same => ⟨t', rfl, Option.some.inj same ▸ ages⟩⟩

theorem refl (s : Sink Table) (w : Engine) : s.Continues w s w := of_table rfl rfl

theorem trans (h : s.Continues w next w') (h' : next.Continues w' last w'') :
    s.Continues w last w'' := by
  intro plan handle ht
  obtain ⟨left, ht', ages⟩ := h plan handle ht
  obtain ⟨left', ht'', ages'⟩ := h' plan left ht'
  refine ⟨left', ht'', fun t there => ?_⟩
  obtain ⟨t', there', older⟩ := ages t there
  obtain ⟨t'', there'', oldest⟩ := ages' t' there'
  exact ⟨t'', there'', older.trans oldest⟩

theorem strategy? (h : s.Continues w next w') {strategy : Strategy}
    (hs : s.strategy? = some strategy) : next.strategy? = some strategy := by
  rcases ht : s.table with _ | ⟨plan, handle⟩
  · rw [Sink.strategy?, ht] at hs
    cases hs
  · obtain ⟨left, ht', -⟩ := h plan handle ht
    rw [Sink.strategy?, ht] at hs
    rw [Sink.strategy?, ht']
    exact hs

theorem handle? (h : s.Continues w next w') {t : Table} (there : s.handle? = some t) :
    ∃ t', next.handle? = some t' ∧ t.Ages w t' w' := by
  rcases ht : s.table with _ | ⟨plan, handle⟩
  · rw [Sink.handle?, ht] at there
    cases there
  · obtain ⟨left, ht', ages⟩ := h plan handle ht
    rw [Sink.handle?, ht] at there
    rw [Sink.handle?, ht']
    exact ages t there

end Continues

namespace Keeps

variable {s : Sink Table} {w : Engine} {rows : List Row}

/-- Only freeing its table keeps a sink from continuing. -/
theorem step_continues (h : s.Keeps w rows) {op : Op} (kept : op ≠ .free) :
    s.Continues w (Sink.step Engine.storage op s w).2.1 (Sink.step Engine.storage op s w).2.2 := by
  cases op with
  | prepare shape => exact .of_table rfl rfl
  | create request =>
    cases ht : s.table with
    | none => exact .of_none ht
    | some other =>
      simp only [Sink.step, Sink.create, ht]
      exact .refl s w
  | instantiate =>
    rcases ht : s.table with _ | ⟨plan, _ | t⟩
    · exact .of_none ht
    · -- There was no table yet, so none has to age.
      intro other handle there
      cases ht.symm.trans there
      rcases ha : plan.allocate Engine.storage w with ⟨e | t, w'⟩
      · simp only [Sink.step, Sink.instantiate, ht, ha]
        exact ⟨none, rfl, fun t missing => by cases missing⟩
      · simp only [Sink.step, Sink.instantiate, ht, ha]
        exact ⟨some t, rfl, fun t missing => by cases missing⟩
    · simp only [Sink.step, Sink.instantiate, ht]
      exact .refl s w
  | free => exact absurd rfl kept
  | insert row =>
    rcases insert_cases s row w with ⟨e, turned⟩ | ⟨plan, t, values, ht, hv⟩
    · simp only [Sink.step, turned]
      exact .refl s w
    · have projected : plan.project row = .ok values.encode := by rw [Plan.project, hv]; rfl
      obtain ⟨answer, t', w', calls, insertion, inserted, -⟩ :=
        Plan.insert_watched Engine.storage plan t w s.eliminating values.encode
      simp only [Sink.step, insert_eq Engine.storage ht projected w inserted]
      exact .of_ages ht (table_settled s plan t'.table answer)
        ((h.serves plan t ht).insertion_ages insertion)
  | setEliminating on =>
    refine .of_table ?_ rfl
    unfold Sink.step Sink.setEliminating
    dsimp only
    split <;> rfl
  | endOfRows | flush => exact .refl s w
  | reset | cleanup =>
    rcases ht : s.table with _ | ⟨plan, _ | t⟩
    · exact .of_none ht
    · refine .of_table ?_ ?_ <;> simp [Sink.step, Sink.cleanup, Sink.reset, ht]
    · have serves := h.serves plan t ht
      simp only [Sink.step, Sink.cleanup, Sink.reset, ht, serves.clear.1]
      exact .of_ages ht rfl (.of_lasts serves.holds.clear.2.lasts rfl)
  | rows =>
    rcases ht : s.table with _ | ⟨plan, _ | t⟩
    · exact .of_none ht
    · simp only [Sink.step, Sink.rows, ht]
      exact .refl s w
    · obtain ⟨read, answer, -⟩ := h.rows_eq ht
      simp only [Sink.step, answer]
      exact .refl s w

theorem run_continues (h : s.Keeps w rows) {ops : List Op} (kept : Op.free ∉ ops) :
    s.Continues w (Sink.run Engine.storage ops s w).1 (Sink.run Engine.storage ops s w).2 := by
  induction ops generalizing s w rows with
  | nil => exact .refl s w
  | cons op ops ih =>
    rw [List.mem_cons, not_or] at kept
    exact (h.step_continues (Ne.symm kept.1)).trans (ih (h.step op) kept.2)

theorem rowCount_of_handle?_none (h : s.Keeps w rows) (none : s.handle? = none) :
    s.rowCount = 0 := by
  rcases ht : s.table with _ | ⟨plan, _ | t⟩
  · rw [h.rowCount, ht]
    rfl
  · rw [h.rowCount, ht, h.pending plan ht]
    rfl
  · rw [handle?, ht] at none
    cases none

end Keeps

/-- After any run a sink without an instantiated table counts no rows, a unique key eliminates
duplicates, and an instantiated table is set up as its plan asks and has as many rows as the sink
counts and returns. Until it is freed the table keeps its strategy and its number, and it moves to
disk at most once, whatever operations follow. -/
theorem run_lifecycle (engine : Engine) (ops : List Op) :
    let s := (run Engine.storage ops {} engine).1
    let w := (run Engine.storage ops {} engine).2
    (s.handle? = none → s.rowCount = 0) ∧
    (s.strategy? = some .uniqueKey → s.eliminating = true) ∧
    (∀ plan t, s.table = some ⟨plan, some t⟩ →
      s.rowCount = t.rowCount ∧
      (∃ rows, (s.rows Engine.storage w).1 = .ok rows ∧ rows.length = s.rowCount) ∧
      t.ignoresDuplicates = true ∧
      (t.index.isOpen = true ↔ plan.strategy = .hashKey) ∧
      t.spec = plan.tableSpec) ∧
    ∀ later, Op.free ∉ later →
      let next := (run Engine.storage later s w).1
      let w' := (run Engine.storage later s w).2
      (∀ strategy, s.strategy? = some strategy → next.strategy? = some strategy) ∧
      ∀ t, s.handle? = some t → ∃ t', next.handle? = some t' ∧ t'.id = t.id ∧
        (t.placement = .disk → t'.placement = .disk) ∧
        w'.stats.promotions =
          w.stats.promotions + if t'.placement = t.placement then 0 else 1 := by
  intro s w
  have h : s.Keeps w (ledger Engine.storage ops {} engine []) := (Keeps.init engine).run ops
  have start : ({} : Sink Table).Keyed := fun _ => rfl
  have keyed : s.Keyed := start.run Engine.storage ops engine
  refine ⟨h.rowCount_of_handle?_none, keyed, fun plan t ht => ?_, ?_⟩
  · have serves := h.serves plan t ht
    obtain ⟨rows, answered, order⟩ := h.rows_eq ht
    have count : s.rowCount = (ledger Engine.storage ops {} engine []).length := by
      rw [h.rowCount, ht]
      rfl
    have length : rows.length = s.rowCount := by
      rw [count]
      split at order
      · exact order.1.length_eq
      · rw [order]
    refine ⟨?_, ⟨rows, by rw [answered], length⟩, serves.ignoresDuplicates, serves.isOpen_iff,
      serves.spec⟩
    rw [serves.holds.rowCount, List.length_map, count]
  · intro later kept next w'
    have continues : s.Continues w next w' := h.run_continues kept
    refine ⟨fun strategy hs => continues.strategy? hs, fun t there => ?_⟩
    obtain ⟨t', there', ages⟩ := continues.handle? there
    exact ⟨t', there', ages.id, ages.disk, ages.promotions⟩

/-- The second row moves the table to disk, where a later shape and an emptying leave it, and where
it stays the table that was instantiated. -/
theorem run_lifecycle_moved :
    let ops : List Op := [.create numbersRequest, .insert [.int 2]]
    let later : List Op := [.insert [.int 1], .prepare { mixed := true }, .reset]
    let s := (run Engine.storage ops {} (oneRowEngine {})).1
    let w := (run Engine.storage ops {} (oneRowEngine {})).2
    let next := (run Engine.storage later s w).1
    s.strategy? = some .uniqueKey ∧ s.eliminating = true ∧
      next.strategy? = some .uniqueKey ∧
      ∃ t t', s.handle? = some t ∧ next.handle? = some t' ∧ t'.id = t.id ∧
        t.placement = .memory ∧ t'.placement = .disk ∧ t.spec.key = .unique := by
  intro ops later s w next
  obtain ⟨-, keyed, setUp, lasts⟩ := run_lifecycle (oneRowEngine {}) ops
  obtain ⟨strategy, ages⟩ := lasts later (by simp [later])
  have unique : s.strategy? = some .uniqueKey := by decide
  obtain ⟨t', there, id, -⟩ := ages _ rfl
  have place : next.handle?.map Table.placement = some .disk := by decide
  rw [there] at place
  obtain ⟨-, -, -, -, spec⟩ := setUp _ _ rfl
  exact ⟨unique, keyed unique, strategy _ unique, _, t', rfl, there, id, rfl,
    Option.some.inj place, by rw [spec]; rfl⟩

end Sink

end ResultSink
