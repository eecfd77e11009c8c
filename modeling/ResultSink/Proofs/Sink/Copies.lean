import Mathlib.Algebra.BigOperators.Group.Finset.Basic
import ResultSink.Proofs.Sink.Lifecycle

/-! The copies of a row under a hash key. Rows that arrive while duplicates are kept are all stored,
and one that arrives while they are eliminated is stored only if it is the first of its kind.
`copies` counts both over the rows that arrive in a run, and a table holds as many copies of each
row. -/

namespace ResultSink

/-! ### Rows that arrive -/

/-- A row that arrives, in the form in which it is stored, and whether duplicates were being
eliminated then. -/
structure Arrival where
  row : Row
  eliminating : Bool

namespace Arrival

/-- The rows that are kept after one more has arrived. -/
def absorbed (kept : List Row) (a : Arrival) : List Row :=
  if a.eliminating ∧ a.row ∈ kept then kept else kept ++ [a.row]

/-- How often a row arrived while duplicates were kept. -/
def kept (row : Row) (arrived : List Arrival) : Nat :=
  arrived.countP fun a => a.row = row ∧ a.eliminating = false

/-- Whether duplicates were being eliminated when a row arrived first. -/
def firstEliminating (row : Row) (arrived : List Arrival) : Bool :=
  (arrived.find? fun a => a.row = row).any Arrival.eliminating

/-- The copies of a row that are stored: one for each arrival while duplicates were kept, and one
for the first arrival if they were eliminated then. -/
def copies (row : Row) (arrived : List Arrival) : Nat :=
  kept row arrived + if firstEliminating row arrived then 1 else 0

theorem count_absorbed (row : Row) (before : List Row) (a : Arrival) :
    (absorbed before a).count row =
      before.count row + if a.row = row ∧ ¬(a.eliminating ∧ a.row ∈ before) then 1 else 0 := by
  unfold absorbed
  by_cases old : a.eliminating ∧ a.row ∈ before
  · simp [old]
  · rw [if_neg old, List.count_append]
    by_cases same : a.row = row
    · subst same
      simp [old]
    · simp [same]

theorem mem_absorbed (row : Row) (before : List Row) (a : Arrival) :
    row ∈ absorbed before a ↔ row ∈ before ∨ a.row = row := by
  unfold absorbed
  split
  · next old => exact ⟨.inl, fun h => h.elim id fun same => same ▸ old.2⟩
  · simp [eq_comm]

/-- Behind rows that are kept already, those that arrive add their copies, but for the first of a
row that is kept. -/
theorem count_foldl_absorbed (row : Row) (arrived : List Arrival) (before : List Row) :
    (arrived.foldl absorbed before).count row =
      before.count row + kept row arrived +
        if row ∉ before ∧ firstEliminating row arrived then 1 else 0 := by
  induction arrived generalizing before with
  | nil => simp [kept, firstEliminating]
  | cons a arrived ih =>
    rw [List.foldl_cons, ih, count_absorbed]
    simp only [mem_absorbed]
    by_cases same : a.row = row
    · subst same
      -- The row is kept from here on, so only this arrival can have been its first.
      cases mode : a.eliminating with
      | false =>
        simp [kept, firstEliminating, mode]
        omega
      | true =>
        by_cases old : a.row ∈ before
        · simp [kept, firstEliminating, mode, old]
        · simp [kept, firstEliminating, mode, old]
          omega
    · simp [kept, firstEliminating, same]

theorem count_absorbed_all (row : Row) (arrived : List Arrival) :
    (arrived.foldl absorbed []).count row = copies row arrived := by
  rw [count_foldl_absorbed]
  simp [copies]

theorem mem_foldl_absorbed (row : Row) (arrived : List Arrival) (before : List Row) :
    row ∈ arrived.foldl absorbed before ↔ row ∈ before ∨ row ∈ arrived.map Arrival.row := by
  induction arrived generalizing before with
  | nil => simp
  | cons a arrived ih =>
    rw [List.foldl_cons, ih, mem_absorbed, List.map_cons, List.mem_cons, or_assoc, eq_comm]

/-- While duplicates are eliminated no row is stored twice. -/
theorem copies_le_one {arrived : List Arrival}
    (eliminating : ∀ a ∈ arrived, a.eliminating = true) (row : Row) : copies row arrived ≤ 1 := by
  have none : kept row arrived = 0 := by
    refine List.countP_eq_zero.2 fun a ha => ?_
    simp [eliminating a ha]
  rw [copies, none]
  split <;> omega

end Arrival

/-! ### Episodes -/

namespace Sink

/-- Whether duplicates are eliminated after an operation, given whether they were before it. -/
def Op.mode (eliminating : Bool) : Op → Bool
  | .setEliminating on => on
  | _ => eliminating

/-- The operations that neither free a table nor empty it. -/
def Op.withinEpisode : Op → Bool
  | .free | .reset | .cleanup => false
  | _ => true

/-- Whether none of some operations fails. -/
def succeeds {ω τ : Type} (storage : Storage ω τ) : List Op → Sink τ → ω → Bool
  | [], _, _ => true
  | op :: ops, s, w =>
    let after := step storage op s w
    after.1.isOk && succeeds storage ops after.2.1 after.2.2

end Sink

namespace Plan

/-- The row that an operation hands over, if it can be stored in the columns of a plan. -/
def arrival? (plan : Plan) (eliminating : Bool) : Sink.Op → Option Arrival
  | .insert row =>
    (plan.projectValues row).toOption.map fun values => ⟨values.canonical, eliminating⟩
  | _ => none

/-- The rows that arrive while operations are carried out one after another. -/
def arrivals (plan : Plan) : Bool → List Sink.Op → List Arrival
  | _, [] => []
  | eliminating, op :: ops =>
    (plan.arrival? eliminating op).toList ++ arrivals plan (op.mode eliminating) ops

end Plan

namespace Sink.Keeps

variable {s next : Sink Table} {w w' : Engine} {rows : List Row} {plan : Plan} {t : Table}

theorem noted_insert {s : Sink Table} (ht : s.table = some ⟨plan, some t⟩) {row values : Row}
    (hv : plan.projectValues row = .ok values) (outcome : InsertOutcome) (rows : List Row) :
    s.noted (.insert row) (.ok (.outcome outcome)) rows =
      if outcome = .inserted then rows ++ [values.canonical] else rows := by
  cases outcome with
  | inserted => simp [noted, projection?_eq ht hv]
  | duplicateRejected => rfl

/-- Under a hash key an operation that succeeds leaves the ledger with the row that arrived
absorbed. -/
theorem noted_eq_absorbed (h : s.Keeps w rows) (ht : s.table = some ⟨plan, some t⟩)
    (hs : plan.strategy = .hashKey) {op : Op} (within : op.withinEpisode = true) {reply : Reply}
    (answered : Sink.step Engine.storage op s w = (.ok reply, next, w')) :
    s.noted op (.ok reply) rows =
        (plan.arrival? s.eliminating op).toList.foldl Arrival.absorbed rows ∧
      next.eliminating = op.mode s.eliminating := by
  cases op with
  | prepare shape =>
    cases answered
    exact ⟨rfl, rfl⟩
  | create request => simp [Sink.step, Sink.create, ht] at answered
  | instantiate => simp [Sink.step, Sink.instantiate, ht] at answered
  | free | reset | cleanup => cases within
  | insert row =>
    rcases insert_cases s row w with ⟨e, turned⟩ | ⟨other, t', values, ht', hv⟩
    · simp [Sink.step, turned, Except.map] at answered
    cases ht.symm.trans ht'
    obtain ⟨answer, t', world, held, inserted, -, -, inserts⟩ := h.insert_reached ht hv
    have arrives : plan.arrival? s.eliminating (.insert row) =
        some ⟨values.canonical, s.eliminating⟩ := by
      rw [Plan.arrival?, hv]
      rfl
    rw [arrives]
    simp only [Sink.step, inserted] at answered
    cases answer with
    | error e => simp [Except.map] at answered
    | ok outcome =>
      obtain ⟨rfl, rfl, -⟩ : .outcome outcome = reply ∧ _ = next ∧ world = w' := by
        simpa [Except.map] using answered
      have rejected : outcome = .duplicateRejected ↔ s.eliminating ∧ values.canonical ∈ rows := by
        have told := inserts.rejected_iff (h.serves plan t ht).key
        have there := h.mem_records_iff plan values
        rw [Plan.rowRecord] at there
        rw [told, there, hs]
        simp [and_comm]
      refine ⟨?_, rfl⟩
      rw [noted_insert ht hv]
      cases outcome with
      | inserted =>
        have new : ¬(s.eliminating ∧ values.canonical ∈ rows) := fun old => by
          cases rejected.2 old
        exact (if_neg new).symm
      | duplicateRejected => exact (if_pos (rejected.1 rfl)).symm
  | setEliminating on =>
    have free : (!on && s.strategy? = some .uniqueKey) = false := by simp [strategy?, ht, hs]
    simp [Sink.step, Sink.setEliminating, free] at answered
    obtain ⟨-, rfl, -⟩ := answered
    exact ⟨rfl, rfl⟩
  | endOfRows | flush =>
    cases answered
    exact ⟨rfl, rfl⟩
  | rows =>
    obtain ⟨read, answer, -⟩ := h.rows_eq ht
    simp [Sink.step, answer] at answered
    obtain ⟨-, rfl, -⟩ := answered
    exact ⟨rfl, rfl⟩

theorem ledger_eq_absorbed (h : s.Keeps w rows) (ht : s.table = some ⟨plan, some t⟩)
    (hs : plan.strategy = .hashKey) {ops : List Op} (within : ∀ op ∈ ops, op.withinEpisode = true)
    (ok : succeeds Engine.storage ops s w = true) :
    ledger Engine.storage ops s w rows =
      (plan.arrivals s.eliminating ops).foldl Arrival.absorbed rows := by
  induction ops generalizing s w rows t with
  | nil => rfl
  | cons op ops ih =>
    obtain ⟨first, rest⟩ := Bool.and_eq_true_iff.1 ok
    have inside := within op List.mem_cons_self
    have unfreed : op ≠ .free := fun free => by
      rw [free] at inside
      cases inside
    -- The plan of the table says what arrives, and it is the same for the operations that follow.
    obtain ⟨left, ht', kept⟩ := h.step_continues unfreed plan (some t) ht
    obtain ⟨t', rfl, -⟩ := kept t rfl
    have later := ih (h.step op) ht' (fun op there => within op (List.mem_cons_of_mem _ there)) rest
    cases answered : (Sink.step Engine.storage op s w).1 with
    | error e =>
      rw [answered] at first
      cases first
    | ok reply =>
      obtain ⟨noted, mode⟩ := h.noted_eq_absorbed ht hs inside (Prod.ext answered rfl)
      rw [ledger, Plan.arrivals, List.foldl_append, ← noted, ← answered, later, mode]

end Sink.Keeps

namespace Sink

/-- A table under a hash key that starts with no rows, as it does when it is provisioned and when it
is emptied, returns after any episode without a failure as many copies of each row as have arrived,
and counts them all. If duplicates are eliminated throughout, it returns each row that arrived once,
in whatever order they came. -/
theorem episode_copies (engine : Engine) (history : List Op) :
    let s := (run Engine.storage history {} engine).1
    let w := (run Engine.storage history {} engine).2
    ∀ plan t episode, s.table = some ⟨plan, some t⟩ → plan.strategy = .hashKey → s.rowCount = 0 →
      (∀ op ∈ episode, op.withinEpisode = true) → succeeds Engine.storage episode s w = true →
      let next := (run Engine.storage episode s w).1
      let w' := (run Engine.storage episode s w).2
      let arrived := plan.arrivals s.eliminating episode
      ∃ rows, (next.rows Engine.storage w').1 = .ok rows ∧
        (∀ row, rows.count row = Arrival.copies row arrived) ∧
        next.rowCount =
          ∑ row ∈ (arrived.map Arrival.row).toFinset, Arrival.copies row arrived ∧
        ((∀ a ∈ arrived, a.eliminating = true) →
          rows.Nodup ∧ ∀ row, row ∈ rows ↔ row ∈ arrived.map Arrival.row) := by
  intro s w plan t episode ht hs empty within ok next w' arrived
  have h : s.Keeps w (ledger Engine.storage history {} engine []) := (Keeps.init engine).run history
  have nothing : ledger Engine.storage history {} engine [] = [] := by
    have count := h.rowCount
    rw [empty, ht] at count
    exact List.eq_nil_of_length_eq_zero count.symm
  rw [nothing] at h
  have unfreed : Op.free ∉ episode := fun there => nomatch within _ there
  obtain ⟨left, ht', kept⟩ := h.run_continues unfreed plan (some t) ht
  obtain ⟨t', rfl, -⟩ := kept t rfl
  have h' : next.Keeps w' (arrived.foldl Arrival.absorbed []) :=
    h.ledger_eq_absorbed ht hs within ok ▸ h.run episode
  obtain ⟨rows, answered, order⟩ := h'.rows_eq ht'
  have notUnique : ¬(t'.placement = .disk ∧ plan.strategy = .uniqueKey) := by simp [hs]
  rw [if_neg notUnique] at order
  have counts (row : Row) : rows.count row = Arrival.copies row arrived := by
    rw [order, Arrival.count_absorbed_all]
  have members (row : Row) : row ∈ rows ↔ row ∈ arrived.map Arrival.row := by
    simp [order, Arrival.mem_foldl_absorbed]
  refine ⟨rows, by rw [answered], counts, ?_, fun eliminating => ⟨?_, members⟩⟩
  · have same : rows.toFinset = (arrived.map Arrival.row).toFinset := by
      ext row
      rw [List.mem_toFinset, List.mem_toFinset, members]
    have total : next.rowCount = rows.length := by
      rw [h'.rowCount, ht', order]
      rfl
    rw [total, ← List.sum_toFinset_count_eq_length, same]
    refine Finset.sum_congr rfl fun row _ => ?_
    convert counts row
  · rw [List.nodup_iff_count_le_one]
    intro row
    rw [counts]
    exact Arrival.copies_le_one eliminating row

/-- After an emptying, a row that arrives twice between looked-up arrivals is stored three times, on
disk from the second row on; and the same rows are stored once each where all are looked up. -/
theorem episode_copies_moved :
    let history : List Op :=
      [.prepare { mixed := true }, .create numbersRequest, .insert [.int 2], .reset]
    let mixed : List Op := [.insert [.int 2], .setEliminating false, .insert [.string "2"],
      .insert [.int 2], .insert [.int 1], .setEliminating true, .insert [.int 1], .insert [.int 2]]
    let distinct : List Op := [.insert [.int 2], .insert [.int 1], .insert [.string "2"]]
    let s := (run Engine.storage history {} (oneRowEngine {})).1
    let w := (run Engine.storage history {} (oneRowEngine {})).2
    (∃ rows, ((run Engine.storage mixed s w).1.rows Engine.storage
        (run Engine.storage mixed s w).2).1 = .ok rows ∧
      rows.count [.int 2] = 3 ∧ rows.count [.int 1] = 1) ∧
    ∃ rows, ((run Engine.storage distinct s w).1.rows Engine.storage
        (run Engine.storage distinct s w).2).1 = .ok rows ∧
      rows.Nodup ∧ ∀ row, row ∈ rows ↔ row ∈ [[.int 2], [.int 1], [.int 2]] := by
  intro history mixed distinct s w
  let plan := Plan.resolve numbersRequest { mixed := true }
  have known : s.table.map (fun t => (t.plan, t.handle.isSome)) = some (plan, true) := by
    decide +kernel
  obtain ⟨t, ht⟩ := exists_handle known
  have mode : s.eliminating = true := by decide +kernel
  have empty : s.rowCount = 0 := by decide +kernel
  have copies := episode_copies (oneRowEngine {}) history plan t
  refine ⟨?_, ?_⟩
  · obtain ⟨rows, answered, counts, -⟩ := copies mixed ht rfl empty
      (by simp [mixed, Op.withinEpisode]) (by decide +kernel)
    rw [mode] at counts
    have twos := counts [.int 2]
    have ones := counts [.int 1]
    exact ⟨rows, answered, twos.trans (by decide +kernel), ones.trans (by decide +kernel)⟩
  · obtain ⟨rows, answered, -, -, once⟩ := copies distinct ht rfl empty
      (by simp [distinct, Op.withinEpisode]) (by decide +kernel)
    rw [mode] at once
    exact ⟨rows, answered, once (by decide +kernel)⟩

end Sink

end ResultSink
