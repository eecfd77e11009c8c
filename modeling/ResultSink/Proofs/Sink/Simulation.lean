import ResultSink.Proofs.Sink.Course
import ResultSink.Sink.Run

/-! Sinks over two storages that behave alike. A `Likeness` says which tables, worlds and errors of
two storages count as the same, and a `Simulation` that every call keeps them so. From the calls it
follows that two sinks with like tables under one plan answer alike, operation by operation, until
one of them frees its table. -/

namespace ResultSink

variable {ω τ ω' τ' : Type}

/-- Which tables, worlds and errors of two storages count as the same. -/
structure Likeness (ω τ ω' τ' : Type) where
  tables : τ → τ' → Prop
  worlds : ω → ω' → Prop
  errors : StorageError → StorageError → Prop

namespace Likeness

/-- Calls on like tables that answer alike and leave like tables. -/
inductive Calls (like : Likeness ω τ ω' τ') {α α' : Type} (values : α → α' → Prop) :
    Except StorageError α × τ × ω → Except StorageError α' × τ' × ω' → Prop
  | ok {a : α} {a' : α'} {t : τ} {t' : τ'} {w : ω} {w' : ω'} :
      values a a' → like.tables t t' → like.worlds w w' →
      Calls like values (.ok a, t, w) (.ok a', t', w')
  | error {e e' : StorageError} {t : τ} {t' : τ'} {w : ω} {w' : ω'} :
      like.errors e e' → like.tables t t' → like.worlds w w' →
      Calls like values (.error e, t, w) (.error e', t', w')

/-- Answers that are the same, or that report like failures of the storage on one table. -/
inductive Answers (like : Likeness ω τ ω' τ') {ε α : Type} (report : SinkError → ε) :
    Except ε α → Except ε α → Prop
  | same (answer : Except ε α) : Answers like report answer answer
  | failed (name : String) {e e' : StorageError} : like.errors e e' →
      Answers like report (.error (report (.storage name e))) (.error (report (.storage name e')))

/-- Operations that answer alike and leave like states. -/
structure Results (like : Likeness ω τ ω' τ') {ε α σ σ' : Type} (report : SinkError → ε)
    (states : σ → σ' → Prop) (r : Except ε α × σ × ω) (r' : Except ε α × σ' × ω') : Prop where
  answers : like.Answers report r.1 r'.1
  states : states r.2.1 r'.2.1
  worlds : like.worlds r.2.2 r'.2.2

end Likeness

/-- Every call of two storages keeps what counts as the same. -/
structure Simulation (storage : Storage ω τ) (storage' : Storage ω' τ')
    (like : Likeness ω τ ω' τ') : Prop where
  refl : ∀ e, like.errors e e
  promote : ∀ {t t' w w'}, like.tables t t' → like.worlds w w' →
    like.Calls like.tables (storage.promote t w) (storage'.promote t' w')
  write : ∀ {t t' w w'} record, like.tables t t' → like.worlds w w' →
    like.Calls Eq (storage.write record t w) (storage'.write record t' w')
  openIndex : ∀ {t t' w w'}, like.tables t t' → like.worlds w w' →
    like.Calls Eq (storage.openIndex t w) (storage'.openIndex t' w')
  readHash : ∀ {t t' w w'} hash, like.tables t t' → like.worlds w w' →
    like.Calls Eq (storage.readHash hash t w) (storage'.readHash hash t' w')
  clear : ∀ {t t' w w'}, like.tables t t' → like.worlds w w' →
    like.Calls Eq (storage.clear t w) (storage'.clear t' w')
  scan : ∀ {t t' w w'}, like.tables t t' → like.worlds w w' →
    like.Calls Eq (storage.scan t w) (storage'.scan t' w')
  key : ∀ {t t'}, like.tables t t' → (storage'.spec t').key = (storage.spec t).key
  reaction : ∀ {t t' e e'}, like.tables t t' → like.errors e e' →
    storage'.reaction t' e' = storage.reaction t e
  isIgnorable : ∀ {t t' e e'}, like.tables t t' → like.errors e e' →
    storage'.isIgnorable t' e' = storage.isIgnorable t e

namespace Simulation

variable {storage : Storage ω τ} {storage' : Storage ω' τ'} {like : Likeness ω τ ω' τ'}
  {t : τ} {t' : τ'} {w : ω} {w' : ω'}

/-! ### Tables -/

theorem contains (sim : Simulation storage storage' like) (ht : like.tables t t')
    (hw : like.worlds w w') (payload : Record) (hash : UInt64) :
    like.Calls Eq (Plan.contains storage payload hash t w)
      (Plan.contains storage' payload hash t' w') := by
  have read := sim.readHash hash ht hw
  unfold Plan.contains
  generalize storage.readHash hash t w = r at read ⊢
  generalize storage'.readHash hash t' w' = r' at read ⊢
  cases read with
  | error he ht hw => exact .error he ht hw
  | @ok records _ _ _ _ _ same ht hw =>
    cases same
    dsimp only
    cases Plan.isAmong payload records with
    | error e => exact .error (sim.refl e) ht hw
    | ok there => exact .ok rfl ht hw

theorem moves (sim : Simulation storage storage' like) (ht : like.tables t t')
    (hw : like.worlds w w') :
    like.Calls Eq (Plan.promote storage t w) (Plan.promote storage' t' w') := by
  have promoted := sim.promote ht hw
  unfold Plan.promote
  generalize storage.promote t w = r at promoted ⊢
  generalize storage'.promote t' w' = r' at promoted ⊢
  cases promoted with
  | error he ht hw => exact .error he ht hw
  | @ok moved moved' _ _ _ _ alike ht hw =>
    dsimp only
    rw [sim.key alike]
    split
    · have opened := sim.openIndex alike hw
      generalize storage.openIndex moved _ = r at opened ⊢
      generalize storage'.openIndex moved' _ = r' at opened ⊢
      cases opened with
      | error he _ hw => exact .error he ht hw
      | ok _ alike hw => exact .ok rfl alike hw
    · exact .ok rfl alike hw

theorem retry (sim : Simulation storage storage' like) (ht : like.tables t t')
    (hw : like.worlds w w') (plan : Plan) (record : Record) :
    like.Results id like.tables (Plan.retry storage plan record t w)
      (Plan.retry storage' plan record t' w') := by
  have wrote := sim.write record ht hw
  unfold Plan.retry
  generalize storage.write record t w = r at wrote ⊢
  generalize storage'.write record t' w' = r' at wrote ⊢
  cases wrote with
  | ok _ ht hw => exact ⟨.same _, ht, hw⟩
  | error he ht hw =>
    dsimp only
    rw [sim.isIgnorable ht he]
    split
    · exact ⟨.same _, ht, hw⟩
    · exact ⟨.failed plan.name he, ht, hw⟩

theorem store (sim : Simulation storage storage' like) (ht : like.tables t t')
    (hw : like.worlds w w') (plan : Plan) (record : Record) :
    like.Results id like.tables (Plan.store storage plan record t w)
      (Plan.store storage' plan record t' w') := by
  have wrote := sim.write record ht hw
  unfold Plan.store
  generalize storage.write record t w = r at wrote ⊢
  generalize storage'.write record t' w' = r' at wrote ⊢
  cases wrote with
  | ok _ ht hw => exact ⟨.same _, ht, hw⟩
  | @error e e' t₁ t₁' w₁ w₁' he ht hw =>
    dsimp only
    rw [sim.reaction ht he]
    cases storage.reaction t₁ e with
    | ignorable => exact ⟨.same _, ht, hw⟩
    | other => exact ⟨.failed plan.name he, ht, hw⟩
    | capacityExceeded =>
      dsimp only
      have moved := sim.moves ht hw
      generalize Plan.promote storage t₁ w₁ = r at moved ⊢
      generalize Plan.promote storage' t₁' w₁' = r' at moved ⊢
      cases moved with
      | ok _ ht hw => exact sim.retry ht hw plan record
      | error he ht hw => exact ⟨.failed plan.name he, ht, hw⟩

theorem insert (sim : Simulation storage storage' like) (ht : like.tables t t')
    (hw : like.worlds w w') (plan : Plan) (eliminating : Bool) (payload : Record) :
    like.Results id like.tables (plan.insert storage eliminating payload t w)
      (plan.insert storage' eliminating payload t' w') := by
  unfold Plan.insert
  split
  · have looked := sim.contains ht hw payload (Record.hash payload)
    generalize Plan.contains storage payload (Record.hash payload) t w = r at looked ⊢
    generalize Plan.contains storage' payload (Record.hash payload) t' w' = r' at looked ⊢
    cases looked with
    | error he ht hw => exact ⟨.failed plan.name he, ht, hw⟩
    | @ok there _ _ _ _ _ same ht hw =>
      cases same
      cases there with
      | true => exact ⟨.same _, ht, hw⟩
      | false => exact sim.store ht hw plan (plan.recordOf payload)
  · exact sim.store ht hw plan (plan.recordOf payload)

theorem rows (sim : Simulation storage storage' like) (ht : like.tables t t')
    (hw : like.worlds w w') (plan : Plan) :
    like.Results id like.tables (plan.rows storage t w) (plan.rows storage' t' w') := by
  have scanned := sim.scan ht hw
  unfold Plan.rows
  generalize storage.scan t w = r at scanned ⊢
  generalize storage'.scan t' w' = r' at scanned ⊢
  cases scanned with
  | error he ht hw => exact ⟨.failed plan.name he, ht, hw⟩
  | ok same ht hw =>
    cases same
    exact ⟨.same _, ht, hw⟩

theorem empties (sim : Simulation storage storage' like) (ht : like.tables t t')
    (hw : like.worlds w w') (plan : Plan) :
    like.Results id like.tables (plan.clear storage t w) (plan.clear storage' t' w') := by
  have cleared := sim.clear ht hw
  unfold Plan.clear
  generalize storage.clear t w = r at cleared ⊢
  generalize storage'.clear t' w' = r' at cleared ⊢
  cases cleared with
  | error he ht hw => exact ⟨.failed plan.name he, ht, hw⟩
  | ok _ ht hw => exact ⟨.same _, ht, hw⟩

end Simulation

/-! ### Sinks -/

/-- Two sinks with like tables under one plan, which count the same rows and eliminate duplicates
alike. -/
structure Likeness.Sinks (like : Likeness ω τ ω' τ') (plan : Plan) (s : Sink τ) (s' : Sink τ') :
    Prop where
  rowCount : s'.rowCount = s.rowCount
  eliminating : s'.eliminating = s.eliminating
  tables : ∃ t t', s.table = some ⟨plan, some t⟩ ∧ s'.table = some ⟨plan, some t'⟩ ∧
    like.tables t t'

namespace Likeness

variable {like : Likeness ω τ ω' τ'} {plan : Plan} {s : Sink τ} {s' : Sink τ'} {t : τ} {t' : τ'}
  {w : ω} {w' : ω'}

theorem Answers.map {ε α β : Type} {report : SinkError → ε} {a a' : Except ε α}
    (h : like.Answers report a a') (f : α → β) : like.Answers report (a.map f) (a'.map f) := by
  cases h with
  | same => exact .same _
  | failed name he => exact .failed name he

theorem Answers.refused {α : Type} {a a' : Except SinkError α} (h : like.Answers id a a') :
    like.Answers Failure.refused (a.mapError .refused) (a'.mapError .refused) := by
  cases h with
  | same => exact .same _
  | failed name he => exact .failed name he

theorem Sinks.withHandle (h : like.Sinks plan s s') (ht : like.tables t t') :
    like.Sinks plan (s.withHandle plan t) (s'.withHandle plan t') :=
  ⟨h.rowCount, h.eliminating, t, t', rfl, rfl, ht⟩

theorem Sinks.settled (h : like.Sinks plan s s') (ht : like.tables t t')
    {answer answer' : Except SinkError InsertOutcome} (ha : like.Answers id answer answer') :
    like.Sinks plan (s.settled plan t answer) (s'.settled plan t' answer') := by
  cases ha with
  | failed => exact h.withHandle ht
  | same =>
    rcases answer with e | _ | _
    · exact h.withHandle ht
    · exact { h.withHandle ht with rowCount := congrArg (· + 1) h.rowCount }
    · exact h.withHandle ht

end Likeness

namespace Simulation

variable {storage : Storage ω τ} {storage' : Storage ω' τ'} {like : Likeness ω τ ω' τ'}
  {plan : Plan} {s : Sink τ} {s' : Sink τ'} {w : ω} {w' : ω'}

theorem reset (sim : Simulation storage storage' like) (h : like.Sinks plan s s')
    (hw : like.worlds w w') :
    like.Results id (like.Sinks plan) (s.reset storage w) (s'.reset storage' w') := by
  obtain ⟨-, -, t, t', ht, ht', alike⟩ := h
  have cleared := sim.empties alike hw plan
  unfold Sink.reset
  rw [ht, ht']
  exact ⟨cleared.answers, ⟨rfl, rfl, _, _, rfl, rfl, cleared.states⟩, cleared.worlds⟩

theorem insert_row (sim : Simulation storage storage' like) (h : like.Sinks plan s s')
    (hw : like.worlds w w') (row : Row) :
    like.Results Failure.refused (like.Sinks plan) (s.insert storage row w)
      (s'.insert storage' row w') := by
  obtain ⟨t, t', ht, ht', alike⟩ := h.tables
  cases projected : plan.project row with
  | error e =>
    simp only [Sink.insert, ht, ht', projected]
    exact ⟨.same _, h, hw⟩
  | ok payload =>
    have inserted := sim.insert alike hw plan s.eliminating payload
    rw [Sink.insert_eq storage ht projected w rfl, Sink.insert_eq storage' ht' projected w' rfl,
      h.eliminating]
    exact ⟨inserted.answers.refused, h.settled inserted.states inserted.answers, inserted.worlds⟩

/-- Until one of them frees its table, like sinks answer an operation alike and stay alike. -/
theorem step (sim : Simulation storage storage' like) (h : like.Sinks plan s s')
    (hw : like.worlds w w') {op : Sink.Op} (unfreed : op ≠ .free) :
    like.Results Failure.refused (like.Sinks plan) (Sink.step storage op s w)
      (Sink.step storage' op s' w') := by
  obtain ⟨t, t', ht, ht', alike⟩ := h.tables
  cases op with
  | prepare shape => exact ⟨.same _, ⟨h.rowCount, h.eliminating, h.tables⟩, hw⟩
  | create request =>
    simp only [Sink.step, Sink.create, ht, ht']
    exact ⟨.same _, h, hw⟩
  | instantiate =>
    simp only [Sink.step, Sink.instantiate, ht, ht']
    exact ⟨.same _, h, hw⟩
  | free => exact absurd rfl unfreed
  | insert row =>
    have inserted := sim.insert_row h hw row
    exact ⟨inserted.answers.map Sink.Reply.outcome, inserted.states, inserted.worlds⟩
  | setEliminating on =>
    have strategy : s'.strategy? = s.strategy? := by
      rw [Sink.strategy?, Sink.strategy?, ht, ht']
      rfl
    simp only [Sink.step, Sink.setEliminating, strategy]
    split
    · exact ⟨.same _, h, hw⟩
    · exact ⟨.same _, ⟨h.rowCount, rfl, h.tables⟩, hw⟩
  | endOfRows | flush => exact ⟨.same _, h, hw⟩
  | reset =>
    have emptied := sim.reset h hw
    exact ⟨(emptied.answers.map fun _ => Sink.Reply.done).refused, emptied.states, emptied.worlds⟩
  | cleanup =>
    have emptied := sim.reset h hw
    exact ⟨.same _, emptied.states, emptied.worlds⟩
  | rows =>
    have read := sim.rows alike hw plan
    simp only [Sink.step, Sink.rows, ht, ht']
    exact ⟨(read.answers.map Sink.Reply.rows).refused, h.withHandle read.states, read.worlds⟩

theorem run (sim : Simulation storage storage' like) (h : like.Sinks plan s s')
    (hw : like.worlds w w') {ops : List Sink.Op} (unfreed : Sink.Op.free ∉ ops) :
    like.Sinks plan (Sink.run storage ops s w).1 (Sink.run storage' ops s' w').1 ∧
      like.worlds (Sink.run storage ops s w).2 (Sink.run storage' ops s' w').2 := by
  induction ops generalizing s s' w w' with
  | nil => exact ⟨h, hw⟩
  | cons op ops ih =>
    rw [List.mem_cons, not_or] at unfreed
    have next := sim.step h hw (Ne.symm unfreed.1)
    exact ih next.states next.worlds unfreed.2

end Simulation

end ResultSink
