import ResultSink.Proofs.Sink.Course
import ResultSink.Sink.Run

/-! What an operation of a sink asks of its storage. `Sink.calls` are the calls that one operation
makes. Watching them changes neither what the operation answers nor what it leaves, and only the
insertion of a row ever writes. -/

namespace ResultSink

variable {ω τ : Type}

/-- A table is allocated alike over the watched storage, and nothing is written to it. -/
theorem Plan.allocate_watched (storage : Storage ω τ) (plan : Plan) (w : ω) :
    ∃ answer w' next calls,
      plan.allocate storage.watched (.start w) = (answer, ⟨w', next, calls⟩) ∧
      plan.allocate storage w = (answer.map Numbered.table, w') ∧ Call.writes calls = [] := by
  rcases hc : storage.create plan.tableSpec w with ⟨e | t, w₁⟩
  · have created := watched_create storage (.start w) hc
    exact ⟨_, _, _, _, by rw [allocate, created], by rw [allocate, hc]; rfl, rfl⟩
  · have created : storage.watched.create plan.tableSpec (.start w) =
        (.ok ⟨1, t⟩, ⟨w₁, 2, [.create plan.tableSpec (.ok ⟨1, t⟩)]⟩) :=
      watched_create storage (.start w) hc
    by_cases hs : plan.strategy = .hashKey
    · -- The table keeps its number when it is told to ignore duplicates.
      rcases ho : storage.openIndex (storage.ignoreDuplicates t) w₁ with ⟨e | _, t₁, w₂⟩
      · have opened := watched_openIndex storage (storage.watched.ignoreDuplicates ⟨1, t⟩)
          ⟨w₁, 2, [.create plan.tableSpec (.ok ⟨1, t⟩)]⟩ ho
        exact ⟨_, _, _, _, by simp only [allocate, created, if_pos hs, opened]; rfl,
          by simp only [allocate, hc, if_pos hs, ho]; rfl, rfl⟩
      · have opened := watched_openIndex storage (storage.watched.ignoreDuplicates ⟨1, t⟩)
          ⟨w₁, 2, [.create plan.tableSpec (.ok ⟨1, t⟩)]⟩ ho
        exact ⟨_, _, _, _, by simp only [allocate, created, if_pos hs, opened]; rfl,
          by simp only [allocate, hc, if_pos hs, ho]; rfl, rfl⟩
    · exact ⟨_, _, _, _, by simp only [allocate, created, if_neg hs]; rfl,
        by simp only [allocate, hc, if_neg hs]; rfl, rfl⟩

namespace Sink

/-- An operation over the watched storage comes to what it comes to over the storage itself, and
nothing is written. -/
def Quiet {ε α : Type} (r : Answer ω τ ε α) (r' : Answer (Watched ω τ) (Numbered τ) ε α) : Prop :=
  r = (r'.1, r'.2.1.map Numbered.table, r'.2.2.world) ∧ Call.writes r'.2.2.calls = []

section

variable (storage : Storage ω τ) (s : Sink τ) (w : ω)

theorem quiet_start {ε α : Type} (answer : Except ε α) :
    Quiet (answer, s, w) (answer, s.watched, .start w) :=
  ⟨by rw [map_watched]; rfl, rfl⟩

theorem create_quiet (request : TableRequest) :
    Quiet (s.create storage request w) (s.watched.create storage.watched request (.start w)) := by
  rcases s with ⟨shape, _ | table, rowCount, eliminating⟩
  · obtain ⟨answer, w', next, calls, watched, plain, unwritten⟩ :=
      (Plan.resolve request shape).allocate_watched storage w
    by_cases hi : (Plan.resolve request shape).instantiate = true
    · simp only [create, map, Option.map_none, if_pos hi, watched, plain]
      cases answer <;> exact ⟨rfl, unwritten⟩
    · simp only [create, map, Option.map_none, if_neg hi]
      exact ⟨rfl, rfl⟩
  · exact quiet_start _ w _

theorem instantiate_quiet :
    Quiet (s.instantiate storage w) (s.watched.instantiate storage.watched (.start w)) := by
  rcases s with ⟨shape, _ | ⟨plan, _ | t⟩, rowCount, eliminating⟩
  · exact quiet_start _ w _
  · obtain ⟨answer, w', next, calls, watched, plain, unwritten⟩ := plan.allocate_watched storage w
    simp only [instantiate, map, Option.map_some, Option.map_none, watched, plain]
    cases answer <;> exact ⟨rfl, unwritten⟩
  · exact quiet_start _ w _

theorem reset_quiet :
    Quiet (s.reset storage w) (s.watched.reset storage.watched (.start w)) := by
  rcases s with ⟨shape, _ | ⟨plan, _ | t⟩, rowCount, eliminating⟩
  · exact ⟨rfl, rfl⟩
  · exact ⟨rfl, rfl⟩
  · rcases hc : storage.clear t w with ⟨answer, t₁, w₁⟩
    have cleared := watched_clear storage ⟨0, t⟩ (.start w) hc
    simp only [reset, map, Option.map_some, Plan.clear, hc, cleared]
    cases answer <;> exact ⟨rfl, rfl⟩

theorem rows_quiet :
    Quiet (s.rows storage w) (s.watched.rows storage.watched (.start w)) := by
  rcases s with ⟨shape, _ | ⟨plan, _ | t⟩, rowCount, eliminating⟩
  · exact ⟨rfl, rfl⟩
  · exact ⟨rfl, rfl⟩
  · rcases hc : storage.scan t w with ⟨answer, t₁, w₁⟩
    have scanned := watched_scan storage ⟨0, t⟩ (.start w) hc
    simp only [Sink.rows, map, Option.map_some, Plan.rows, hc, scanned]
    cases answer <;> exact ⟨rfl, rfl⟩

end

/-- A row is turned away without a call, or its payload is inserted into the table that is there. -/
theorem insert_seen (storage : Storage ω τ) (s : Sink τ) (row : Row) (w : ω) :
    Quiet (s.insert storage row w) (s.watched.insert storage.watched row (.start w)) ∨
    ∃ plan t payload answer t' w' next calls, s.table = some ⟨plan, some t⟩ ∧
      plan.Insertion storage s.eliminating payload t w answer t' w' calls ∧
      s.insert storage row w = (answer.mapError .refused, s.settled plan t'.table answer, w') ∧
      s.watched.insert storage.watched row (.start w) =
        (answer.mapError .refused, s.watched.settled plan t' answer, ⟨w', next, calls⟩) := by
  rcases ht : s.table with _ | ⟨plan, handle⟩
  · have there : s.watched.table = none := by simp [map, ht]
    refine .inl ?_
    rw [insert, insert, ht, there]
    exact quiet_start s w _
  have there : s.watched.table = some ⟨plan, handle.map (Numbered.mk 0)⟩ := by simp [map, ht]
  cases projected : plan.project row with
  | error e =>
    refine .inl ?_
    rw [insert, insert, ht, there]
    simp only [projected]
    exact quiet_start s w _
  | ok payload =>
    cases handle with
    | none =>
      refine .inl ?_
      rw [insert, insert, ht, there]
      simp only [projected, Option.map_none]
      exact quiet_start s w _
    | some t =>
      obtain ⟨answer, t', w', calls, insertion, inserted, next, watched⟩ :=
        Plan.insert_watched storage plan t w s.eliminating payload
      exact .inr ⟨plan, t, payload, answer, t', w', next, calls, rfl, insertion,
        insert_eq storage ht projected w inserted,
        insert_eq storage.watched there projected (.start w) watched⟩

/-- The calls that an operation makes of the storage. -/
def calls (storage : Storage ω τ) (op : Op) (s : Sink τ) (w : ω) : List (Call τ) :=
  (step storage.watched op s.watched (.start w)).2.2.calls

/-- Watching the storage changes nothing of an operation, and the storage is written to only on the
course of an insertion. -/
theorem step_watched (storage : Storage ω τ) (op : Op) (s : Sink τ) (w : ω) :
    let after := step storage.watched op s.watched (.start w)
    step storage op s w = (after.1, after.2.1.map Numbered.table, after.2.2.world) ∧
    (Call.writes (s.calls storage op w) = [] ∨
      ∃ plan t payload answer t' w', s.table = some ⟨plan, some t⟩ ∧
        plan.Insertion storage s.eliminating payload t w answer t' w' (s.calls storage op w)) := by
  cases op with
  | prepare shape | free | endOfRows | flush =>
    rcases s with ⟨_, _ | ⟨plan, _ | t⟩, _, _⟩ <;> exact ⟨rfl, .inl rfl⟩
  | setEliminating on =>
    have strategy : s.watched.strategy? = s.strategy? := by
      rcases s with ⟨_, _ | ⟨plan, _ | t⟩, _, _⟩ <;> rfl
    simp only [calls, step, setEliminating, strategy]
    split <;> rcases s with ⟨_, _ | ⟨plan, _ | t⟩, _, _⟩ <;> exact ⟨rfl, .inl rfl⟩
  | create request =>
    obtain ⟨same, unwritten⟩ := s.create_quiet storage w request
    exact ⟨by simp only [step, same], .inl unwritten⟩
  | instantiate =>
    obtain ⟨same, unwritten⟩ := s.instantiate_quiet storage w
    exact ⟨by simp only [step, same], .inl unwritten⟩
  | insert row =>
    rcases s.insert_seen storage row w with ⟨same, unwritten⟩ |
      ⟨plan, t, payload, answer, t', w', next, calls, ht, insertion, plain, watched⟩
    · exact ⟨by simp only [step, same], .inl unwritten⟩
    · refine ⟨?_, .inr ⟨plan, t, payload, answer, t', w', ht, ?_⟩⟩
      · simp only [step, plain, watched, map_settled, map_watched]
      · simpa only [Sink.calls, step, watched] using insertion
  | reset =>
    obtain ⟨same, unwritten⟩ := s.reset_quiet storage w
    exact ⟨by simp only [step, same], .inl unwritten⟩
  | cleanup =>
    obtain ⟨same, unwritten⟩ := s.reset_quiet storage w
    exact ⟨by simp only [step, cleanup, same], .inl unwritten⟩
  | rows =>
    obtain ⟨same, unwritten⟩ := s.rows_quiet storage w
    exact ⟨by simp only [step, same], .inl unwritten⟩

end Sink

end ResultSink
