import ResultSink.Proofs.Sink.Ledger

/-! What a sink answers, in any state that a run leads to: how many rows it counts and which it
returns, which rows it rejects as duplicates, and for which causes it cannot take a row. -/

namespace ResultSink

namespace Sink

/-- Only an expression that is neither recursive nor mixed gets a unique key. -/
theorem resolve_uniqueKey {request : TableRequest} {shape : Shape}
    (h : (Plan.resolve request shape).strategy = .uniqueKey) :
    shape.recursive = false ∧ shape.mixed = false := by
  have chosen : Strategy.select request.distinct shape = .uniqueKey := by
    have strategy := h
    simp only [Plan.resolve, Plan.chooseStrategy] at strategy
    split at strategy
    · cases strategy
    · exact strategy
  unfold Strategy.select at chosen
  split at chosen
  · cases chosen
  · split at chosen
    · cases chosen
    · next plain => simpa using plain

/-- After any run the count is of the rows of the ledger, a row is rejected exactly if its
projection is among them and duplicates are eliminated, and an instantiated table returns them in
their order, which is that of their records under a unique key on disk. -/
theorem run_faithful (engine : Engine) (ops : List Op) :
    let s := (run Engine.storage ops {} engine).1
    let w := (run Engine.storage ops {} engine).2
    let kept := ledger Engine.storage ops {} engine []
    s.rowCount = (if s.table.isSome then kept.length else 0) ∧
    (∀ row outcome, (s.insert Engine.storage row w).1 = .ok outcome →
      ∃ plan t values, s.table = some ⟨plan, some t⟩ ∧ plan.projectValues row = .ok values ∧
        (outcome = .duplicateRejected ↔ values.canonical ∈ kept ∧
          (plan.strategy = .uniqueKey ∨ plan.strategy = .hashKey ∧ s.eliminating))) ∧
    ∀ plan t, s.table = some ⟨plan, some t⟩ →
      (∃ request shape, plan = Plan.resolve request shape ∧
        (plan.strategy = .uniqueKey → shape.recursive = false ∧ shape.mixed = false)) ∧
      ∃ rows, (s.rows Engine.storage w).1 = .ok rows ∧
        if t.placement = .disk ∧ plan.strategy = .uniqueKey then
          rows.Perm kept ∧ rows.Pairwise fun a b => Record.Before a.encode b.encode
        else rows = kept := by
  intro s w kept
  have h : s.Keeps w kept := (Keeps.init engine).run ops
  refine ⟨h.rowCount, fun row outcome answered => ?_, fun plan t ht => ⟨?_, ?_⟩⟩
  · rcases insert_cases s row w with ⟨e, turned⟩ | ⟨plan, t, values, ht, hv⟩
    · rw [turned] at answered
      cases answered
    refine ⟨plan, t, values, ht, hv, ?_⟩
    obtain ⟨answer, next, world, held, inserted, -, -, inserts⟩ := h.insert_reached ht hv
    rw [inserted] at answered
    cases answer with
    | error e => cases answered
    | ok told =>
      cases answered
      rw [inserts.rejected_iff (h.serves plan t ht).key]
      exact and_congr (h.mem_records_iff plan values) Iff.rfl
  · obtain ⟨request, shape, resolved⟩ := h.resolved _ ht
    have plan_eq : plan = Plan.resolve request shape := resolved
    exact ⟨request, shape, plan_eq, fun hs => resolve_uniqueKey (plan_eq ▸ hs)⟩
  · obtain ⟨rows, answered, order⟩ := h.rows_eq ht
    exact ⟨rows, by rw [answered], order⟩

/-- An engine on a machine without directories but its own, whose tables hold one row in memory. -/
def oneRowEngine (config : Config) : Engine where
  config := { config with memoryRows := some 1 }
  hasDirectory := Option.isNone

/-- A request for distinct whole numbers. -/
def numbersRequest : TableRequest :=
  { columns := [{ name := "n", dataType := .int }], distinct := true, name := "u" }

/-- The count follows the table, not the ledger: it is gone with a freed table. -/
theorem rowCount_after_free :
    let engine := oneRowEngine {}
    let ops : List Op := [.create numbersRequest, .insert [.int 1], .free]
    (run Engine.storage ops {} engine).1.rowCount = 0 ∧
      (ledger Engine.storage ops {} engine []).length = 1 := by
  decide

/-- The second row moves the table to disk, where a text of the first is still a duplicate. -/
theorem run_faithful_moved :
    let engine := oneRowEngine {}
    let ops : List Op := [.create numbersRequest, .insert [.int 2], .insert [.int 1]]
    let s := (run Engine.storage ops {} engine).1
    let w := (run Engine.storage ops {} engine).2
    s.rowCount = 2 ∧ (s.insert Engine.storage [.string "2"] w).1 = .ok .duplicateRejected ∧
      (∃ plan values, Plan.projectValues plan [.string "2"] = .ok values ∧
        values.canonical ∈ [[.int 2], [.int 1]]) ∧
      ∃ rows, (s.rows Engine.storage w).1 = .ok rows ∧ rows.Perm [[.int 2], [.int 1]] ∧
        rows.Pairwise fun a b => Record.Before a.encode b.encode := by
  intro engine ops s w
  obtain ⟨count, inserts, reads⟩ := run_faithful engine ops
  have kept : ledger Engine.storage ops {} engine [] = [[.int 2], [.int 1]] := by decide
  have rejected : (s.insert Engine.storage [.string "2"] w).1 = .ok .duplicateRejected := by rfl
  have place : s.handle?.map Table.placement = some .disk := by decide
  have strategy : s.strategy? = some .uniqueKey := by decide
  obtain ⟨plan, t, values, ht, hv, told⟩ := inserts _ _ rejected
  obtain ⟨-, rows, read, order⟩ := reads plan t ht
  rw [handle?, ht] at place
  rw [strategy?, ht] at strategy
  rw [if_pos ⟨Option.some.inj place, Option.some.inj strategy⟩, kept] at order
  rw [kept] at told
  exact ⟨count.trans (by decide), rejected, ⟨plan, values, hv, (told.1 rfl).1⟩, rows, read, order⟩

/-- A row that is stored already is rejected as a duplicate, unless a unique key is asked where no
place has room; either way what is stored stays. -/
theorem insert_stored (engine : Engine) (ops : List Op) :
    let s := (run Engine.storage ops {} engine).1
    let w := (run Engine.storage ops {} engine).2
    ∀ plan t stored row payload, s.table = some ⟨plan, some t⟩ → t.scan = .ok stored →
      plan.project row = .ok payload → plan.recordOf payload ∈ stored →
      plan.strategy = .uniqueKey ∨ plan.strategy = .hashKey ∧ s.eliminating →
      let after := s.insert Engine.storage row w
      let exhausted := w.Exhausted t stored (plan.recordOf payload).size
      (after.1 = .ok .duplicateRejected ↔ ¬(plan.strategy = .uniqueKey ∧ exhausted)) ∧
      (plan.strategy = .uniqueKey ∧ exhausted →
        ∃ e, after.1 = .error (.refused (plan.fatal e))) ∧
      after.2.1.rowCount = s.rowCount ∧
      ∃ next left, after.2.1.table = some ⟨plan, some next⟩ ∧ next.scan = .ok left ∧
        left.Perm stored ∧
        (next.placement = t.placement ∨ plan.strategy = .hashKey → left = stored) := by
  intro s w plan t stored row payload ht scanned projected there how after exhausted
  let records := (ledger Engine.storage ops {} engine []).map plan.rowRecord
  have h : s.Keeps w (ledger Engine.storage ops {} engine []) := (Keeps.init engine).run ops
  have serves := h.serves plan t ht
  have same := serves.scan_perm scanned
  have held : plan.recordOf payload ∈ records := same.mem_iff.1 there
  have small := Nat.not_lt_of_le (serves.holds.sizes held)
  have count : s.rowCount = records.length := by
    rw [h.rowCount, ht, List.length_map]
    rfl
  obtain ⟨values, hv, rfl⟩ := Plan.project_eq_ok projected
  obtain ⟨answer, next, world, left, inserted, frame, after_serves, inserts⟩ :=
    h.insert_reached ht hv
  obtain ⟨rfl, settled⟩ := inserts.of_held serves.key held how
  have cannot : (∃ e, w.CannotStore t records (plan.recordOf values.encode) e) ↔ exhausted := by
    rw [Engine.cannotStore_iff, ← Engine.exhausted_perm same]
    exact ⟨fun large => large.resolve_left small, .inr⟩
  rw [cannot] at settled
  obtain ⟨read, again, order⟩ := after_serves.holds.scan
  have unmoved (how : next.placement = t.placement ∨ plan.strategy = .hashKey) : read = stored := by
    have key : next.spec.key = t.spec.key := after_serves.key.trans serves.key.symm
    refine (serves.holds.readsAs scanned).eq order key (how.imp_right fun hs => ?_)
    rw [serves.key, hs]
    decide
  have after_eq : after = _ := inserted
  rw [after_eq, count]
  refine ⟨?_, ?_, rfl, next, read, rfl, again, order.perm.trans same.symm, unmoved⟩
  · rcases settled with ⟨rfl, room⟩ | ⟨e, rfl, unique, cause⟩
    · exact ⟨fun _ => room, fun _ => rfl⟩
    · exact ⟨fun ok => (nomatch ok), fun room => absurd ⟨unique, cannot.1 ⟨e, cause⟩⟩ room⟩
  · rintro full
    rcases settled with ⟨rfl, room⟩ | ⟨e, rfl, -⟩
    · exact absurd full room
    · exact ⟨e, rfl⟩

/-- Where no file can be made, a full table under a unique key refuses even a row it holds. -/
theorem insert_stored_without_room :
    let engine := oneRowEngine { directory := some "/nonexistent/x" }
    let ops : List Op := [.create numbersRequest, .insert [.int 1]]
    let s := (run Engine.storage ops {} engine).1
    let w := (run Engine.storage ops {} engine).2
    ∃ plan t stored payload, s.table = some ⟨plan, some t⟩ ∧ plan.strategy = .uniqueKey ∧
      t.scan = .ok stored ∧ plan.project [.int 1] = .ok payload ∧
      plan.recordOf payload ∈ stored ∧
      (s.insert Engine.storage [.int 1] w).1 = .error (.refused (plan.fatal .system)) :=
  ⟨_, _, _, _, rfl, rfl, rfl, rfl, by decide, rfl⟩

/-- A duplicate that is told only after it has moved the table to disk. -/
theorem insert_stored_moving :
    let engine := oneRowEngine {}
    let ops : List Op := [.create numbersRequest, .insert [.int 1]]
    let s := (run Engine.storage ops {} engine).1
    let w := (run Engine.storage ops {} engine).2
    (s.insert Engine.storage [.int 1] w).1 = .ok .duplicateRejected ∧
      (s.insert Engine.storage [.int 1] w).2.1.rowCount = 1 := by
  intro engine ops s w
  obtain ⟨told, -, count, -⟩ :=
    insert_stored engine ops _ _ _ [.int 1] _ rfl rfl rfl (by decide) (.inl rfl)
  exact ⟨told.2 (by decide), count.trans (by decide)⟩

end Sink

end ResultSink
