import ResultSink.Proofs.Storage.Calls
import ResultSink.Sink.Basic

/-! The course that an insertion takes over any storage. Nothing is assumed of the storage: each of
its calls may answer what it likes, and a course is told from these answers alone. `Promotes`,
`Course` and `Insertion` list all that can happen, each with the calls that are made of the storage;
a course over the watched storage is that over the storage itself. -/

namespace ResultSink

variable {ω τ : Type}

namespace Plan

/-- A table that is moved, or not: the answer, the table that is left to write on, the world and the
calls. The table to be moved has number 0 and its copy number 1. -/
inductive Promotes (storage : Storage ω τ) (t : τ) (w : ω) :
    Except StorageError Unit → Numbered τ → ω → List (Call τ) → Prop
  | failed {e : StorageError} {t₁ : τ} {w₁ : ω} :
      storage.promote t w = (.error e, t₁, w₁) →
      Promotes storage t w (.error e) ⟨0, t₁⟩ w₁ [.promote 0 (.error e)]
  | closed {e : StorageError} {moved moved₁ t₁ : τ} {w₁ w₂ : ω} :
      storage.promote t w = (.ok moved, t₁, w₁) → (storage.spec moved).key.hasHash = true →
      storage.openIndex moved w₁ = (.error e, moved₁, w₂) →
      Promotes storage t w (.error e) ⟨0, t₁⟩ w₂
        [.promote 0 (.ok ⟨1, moved⟩), .openIndex 1 (.error e)]
  | opened {moved moved₁ t₁ : τ} {w₁ w₂ : ω} :
      storage.promote t w = (.ok moved, t₁, w₁) → (storage.spec moved).key.hasHash = true →
      storage.openIndex moved w₁ = (.ok (), moved₁, w₂) →
      Promotes storage t w (.ok ()) ⟨1, moved₁⟩ w₂
        [.promote 0 (.ok ⟨1, moved⟩), .openIndex 1 (.ok ())]
  | plain {moved t₁ : τ} {w₁ : ω} :
      storage.promote t w = (.ok moved, t₁, w₁) → (storage.spec moved).key.hasHash = false →
      Promotes storage t w (.ok ()) ⟨1, moved⟩ w₁ [.promote 0 (.ok ⟨1, moved⟩)]

/-- What a write that is not followed by a move says of its record, given which errors pass for
duplicates. -/
def verdict (plan : Plan) (ignored : StorageError → Bool) :
    Except StorageError Unit → Except SinkError InsertOutcome
  | .ok () => .ok .inserted
  | .error e => if ignored e then .ok .duplicateRejected else .error (plan.fatal e)

/-- What storing a record can come to: the first write settles it, or a full table is not moved, or
it is moved and a second write settles the record. -/
inductive Course (storage : Storage ω τ) (plan : Plan) (record : Record) (t : τ) (w : ω) :
    Except SinkError InsertOutcome → Numbered τ → ω → List (Call τ) → Prop
  | settled {wrote : Except StorageError Unit} {t₁ : τ} {w₁ : ω} :
      storage.write record t w = (wrote, t₁, w₁) →
      (∀ e, wrote = .error e → storage.reaction t₁ e ≠ .capacityExceeded) →
      Course storage plan record t w
        (plan.verdict (fun e => storage.reaction t₁ e = .ignorable) wrote) ⟨0, t₁⟩ w₁
        [.write ⟨0, record, wrote, t₁⟩]
  | unmoved {full e : StorageError} {t₁ : τ} {t₂ : Numbered τ} {w₁ w₂ : ω}
      {calls : List (Call τ)} :
      storage.write record t w = (.error full, t₁, w₁) →
      storage.reaction t₁ full = .capacityExceeded →
      Promotes storage t₁ w₁ (.error e) t₂ w₂ calls →
      Course storage plan record t w (.error (plan.fatal e)) t₂ w₂
        (.write ⟨0, record, .error full, t₁⟩ :: calls)
  | moved {full : StorageError} {wrote : Except StorageError Unit} {t₁ t₃ : τ} {t₂ : Numbered τ}
      {w₁ w₂ w₃ : ω} {calls : List (Call τ)} :
      storage.write record t w = (.error full, t₁, w₁) →
      storage.reaction t₁ full = .capacityExceeded →
      Promotes storage t₁ w₁ (.ok ()) t₂ w₂ calls →
      storage.write record t₂.table w₂ = (wrote, t₃, w₃) →
      Course storage plan record t w (plan.verdict (storage.isIgnorable t₃) wrote)
        ⟨t₂.number, t₃⟩ w₃
        (.write ⟨0, record, .error full, t₁⟩ :: calls ++ [.write ⟨t₂.number, record, wrote, t₃⟩])

/-- What inserting a payload can come to. A payload that is looked up may not be read, may be among
records that have no hash, or may be found; else its record is stored. -/
inductive Insertion (storage : Storage ω τ) (plan : Plan) (eliminating : Bool) (payload : Record)
    (t : τ) (w : ω) : Except SinkError InsertOutcome → Numbered τ → ω → List (Call τ) → Prop
  | unread {e : StorageError} {t₁ : τ} {w₁ : ω} :
      plan.strategy = .hashKey ∧ eliminating →
      storage.readHash (Record.hash payload) t w = (.error e, t₁, w₁) →
      Insertion storage plan eliminating payload t w (.error (plan.fatal e)) ⟨0, t₁⟩ w₁
        [.readHash 0 (Record.hash payload) (.error e)]
  | unsplit {e : StorageError} {records : List Record} {t₁ : τ} {w₁ : ω} :
      plan.strategy = .hashKey ∧ eliminating →
      storage.readHash (Record.hash payload) t w = (.ok records, t₁, w₁) →
      isAmong payload records = .error e →
      Insertion storage plan eliminating payload t w (.error (plan.fatal e)) ⟨0, t₁⟩ w₁
        [.readHash 0 (Record.hash payload) (.ok records)]
  | found {records : List Record} {t₁ : τ} {w₁ : ω} :
      plan.strategy = .hashKey ∧ eliminating →
      storage.readHash (Record.hash payload) t w = (.ok records, t₁, w₁) →
      isAmong payload records = .ok true →
      Insertion storage plan eliminating payload t w (.ok .duplicateRejected) ⟨0, t₁⟩ w₁
        [.readHash 0 (Record.hash payload) (.ok records)]
  | new {records : List Record} {answer : Except SinkError InsertOutcome} {t₁ : τ}
      {t₂ : Numbered τ} {w₁ w₂ : ω} {calls : List (Call τ)} :
      plan.strategy = .hashKey ∧ eliminating →
      storage.readHash (Record.hash payload) t w = (.ok records, t₁, w₁) →
      isAmong payload records = .ok false →
      Course storage plan (plan.recordOf payload) t₁ w₁ answer t₂ w₂ calls →
      Insertion storage plan eliminating payload t w answer t₂ w₂
        (.readHash 0 (Record.hash payload) (.ok records) :: calls)
  | unasked {answer : Except SinkError InsertOutcome} {t₁ : Numbered τ} {w₁ : ω}
      {calls : List (Call τ)} :
      ¬(plan.strategy = .hashKey ∧ eliminating) →
      Course storage plan (plan.recordOf payload) t w answer t₁ w₁ calls →
      Insertion storage plan eliminating payload t w answer t₁ w₁ calls

section

variable (storage : Storage ω τ) (plan : Plan) (record : Record) (t : τ) (w : ω)

theorem promote_watched : ∃ answer t' w' calls, Promotes storage t w answer t' w' calls ∧
    promote storage t w = (answer, t'.table, w') ∧
    ∀ prior, promote storage.watched ⟨0, t⟩ ⟨w, 1, prior⟩ =
      (answer, t', ⟨w', 2, prior ++ calls⟩) := by
  rcases hp : storage.promote t w with ⟨e | moved, t₁, w₁⟩
  · refine ⟨_, _, _, _, .failed hp, by rw [promote, hp], fun prior => ?_⟩
    rw [promote, watched_promote storage _ _ hp]
    simp
  · have spec : storage.watched.spec ⟨1, moved⟩ = storage.spec moved := rfl
    cases hk : (storage.spec moved).key.hasHash with
    | false =>
      refine ⟨_, _, _, _, .plain hp hk, by simp [promote, hp, hk], fun prior => ?_⟩
      rw [promote, watched_promote storage _ _ hp]
      simp [spec, hk]
    | true =>
      rcases ho : storage.openIndex moved w₁ with ⟨e | _, moved₁, w₂⟩
      · refine ⟨_, _, _, _, .closed hp hk ho, by simp [promote, hp, hk, ho], fun prior => ?_⟩
        rw [promote, watched_promote storage _ _ hp]
        simp [spec, hk, watched_openIndex storage ⟨1, moved⟩ ⟨w₁, _, _⟩ ho]
      · refine ⟨_, _, _, _, .opened hp hk ho, by simp [promote, hp, hk, ho], fun prior => ?_⟩
        rw [promote, watched_promote storage _ _ hp]
        simp [spec, hk, watched_openIndex storage ⟨1, moved⟩ ⟨w₁, _, _⟩ ho]

/-- A second write says what became of its record. -/
theorem retry_eq {wrote : Except StorageError Unit} {t₁ : τ} {w₁ : ω}
    (h : storage.write record t w = (wrote, t₁, w₁)) :
    retry storage plan record t w =
      (plan.verdict (storage.isIgnorable t₁) wrote, t₁, w₁) := by
  rw [retry, h]
  cases wrote with
  | ok => rfl
  | error e => cases hi : storage.isIgnorable t₁ e <;> simp [verdict, hi]

/-- So does a first write, unless it calls for a move. -/
theorem store_settled {wrote : Except StorageError Unit} {t₁ : τ} {w₁ : ω}
    (h : storage.write record t w = (wrote, t₁, w₁))
    (enough : ∀ e, wrote = .error e → storage.reaction t₁ e ≠ .capacityExceeded) :
    store storage plan record t w =
      (plan.verdict (fun e => storage.reaction t₁ e = .ignorable) wrote, t₁, w₁) := by
  rw [store, h]
  cases wrote with
  | ok => rfl
  | error e =>
    cases hr : storage.reaction t₁ e with
    | capacityExceeded => exact absurd hr (enough e rfl)
    | ignorable | other => simp [verdict, hr]

theorem store_watched : ∃ answer t' w' calls, Course storage plan record t w answer t' w' calls ∧
    store storage plan record t w = (answer, t'.table, w') ∧
    ∀ prior, ∃ next, store storage.watched plan record ⟨0, t⟩ ⟨w, 1, prior⟩ =
      (answer, t', ⟨w', next, prior ++ calls⟩) := by
  rcases hw : storage.write record t w with ⟨wrote, t₁, w₁⟩
  by_cases enough : ∀ e, wrote = .error e → storage.reaction t₁ e ≠ .capacityExceeded
  · refine ⟨_, _, _, _, .settled hw enough, store_settled storage plan record t w hw enough,
      fun prior => ⟨1, ?_⟩⟩
    exact store_settled storage.watched plan record _ _ (watched_write storage _ _ hw) enough
  · simp only [Classical.not_forall, Decidable.not_not] at enough
    obtain ⟨full, rfl, exceeded⟩ := enough
    -- The watched storage judges an error by the table that it wraps.
    have exceeded' : storage.watched.reaction ⟨0, t₁⟩ full = .capacityExceeded := exceeded
    obtain ⟨answer, t₂, w₂, calls, promotes, promoted, watched⟩ := promote_watched storage t₁ w₁
    cases answer with
    | error e =>
      refine ⟨_, _, _, _, .unmoved hw exceeded promotes, by simp [store, hw, exceeded, promoted],
        fun prior => ⟨2, ?_⟩⟩
      rw [store, watched_write storage _ _ hw]
      simp [exceeded', watched]
    | ok done =>
      rcases hw' : storage.write record t₂.table w₂ with ⟨wrote, t₃, w₃⟩
      refine ⟨_, _, _, _, .moved hw exceeded promotes hw', ?_, fun prior => ⟨2, ?_⟩⟩
      · rw [store, hw]
        simp [exceeded, promoted, retry_eq storage plan record _ _ hw']
      · rw [store, watched_write storage _ _ hw]
        simp only [exceeded', watched]
        rw [retry_eq storage.watched plan record _ _ (watched_write storage t₂ _ hw')]
        simp
        rfl

theorem insert_unread {eliminating : Bool} {payload : Record}
    (looked : plan.strategy = .hashKey ∧ eliminating) {e : StorageError} {t₁ : τ} {w₁ : ω}
    (h : storage.readHash (Record.hash payload) t w = (.error e, t₁, w₁)) :
    plan.insert storage eliminating payload t w = (.error (plan.fatal e), t₁, w₁) := by
  rw [insert, if_pos looked, contains, h]

theorem insert_read {eliminating : Bool} {payload : Record}
    (looked : plan.strategy = .hashKey ∧ eliminating) {records : List Record} {t₁ : τ} {w₁ : ω}
    (h : storage.readHash (Record.hash payload) t w = (.ok records, t₁, w₁)) :
    plan.insert storage eliminating payload t w =
      match isAmong payload records with
      | .error e => (.error (plan.fatal e), t₁, w₁)
      | .ok true => (.ok .duplicateRejected, t₁, w₁)
      | .ok false => store storage plan (plan.recordOf payload) t₁ w₁ := by
  rw [insert, if_pos looked, contains, h]
  dsimp only
  rcases isAmong payload records with e | _ | _
  · rfl
  · rfl
  · rfl

theorem insert_watched (eliminating : Bool) (payload : Record) : ∃ answer t' w' calls,
    Insertion storage plan eliminating payload t w answer t' w' calls ∧
    plan.insert storage eliminating payload t w = (answer, t'.table, w') ∧
    ∃ next, plan.insert storage.watched eliminating payload ⟨0, t⟩ (.start w) =
      (answer, t', ⟨w', next, calls⟩) := by
  by_cases looked : plan.strategy = .hashKey ∧ eliminating
  · rcases hr : storage.readHash (Record.hash payload) t w with ⟨e | records, t₁, w₁⟩
    · have read := watched_readHash storage ⟨0, t⟩ (.start w) hr
      exact ⟨_, _, _, _, .unread looked hr, insert_unread storage plan t w looked hr, 1,
        insert_unread storage.watched plan _ _ looked read⟩
    · have read := watched_readHash storage ⟨0, t⟩ (.start w) hr
      have plain := insert_read storage plan t w looked hr
      have watched := insert_read storage.watched plan _ _ looked read
      cases among : isAmong payload records with
      | error e =>
        rw [among] at plain watched
        exact ⟨_, _, _, _, .unsplit looked hr among, plain, 1, watched⟩
      | ok there =>
        rw [among] at plain watched
        cases there with
        | true => exact ⟨_, _, _, _, .found looked hr among, plain, 1, watched⟩
        | false =>
          obtain ⟨answer, t', w', calls, course, stored, storedWatched⟩ :=
            store_watched storage plan (plan.recordOf payload) t₁ w₁
          obtain ⟨next, storedWatched⟩ :=
            storedWatched [.readHash 0 (Record.hash payload) (.ok records)]
          exact ⟨_, _, _, _, .new looked hr among course, plain.trans stored, next,
            watched.trans storedWatched⟩
  · obtain ⟨answer, t', w', calls, course, stored, watched⟩ :=
      store_watched storage plan (plan.recordOf payload) t w
    obtain ⟨next, watched⟩ := watched []
    refine ⟨_, _, _, _, .unasked looked course, ?_, next, ?_⟩
    · rw [insert, if_neg looked, stored]
    · rw [insert, if_neg looked]
      exact watched

end

end Plan

namespace Sink

theorem exists_handle {s : Sink τ} {plan : Plan}
    (known : s.table.map (fun t => (t.plan, t.handle.isSome)) = some (plan, true)) :
    ∃ t, s.table = some ⟨plan, some t⟩ := by
  rcases ht : s.table with _ | ⟨other, _ | t⟩ <;> rw [ht] at known <;> cases known
  exact ⟨t, rfl⟩

/-- The sink after a row was handed to its table. -/
def settled (s : Sink τ) (plan : Plan) (t : τ) : Except SinkError InsertOutcome → Sink τ
  | .ok .inserted => { s.withHandle plan t with rowCount := s.rowCount + 1 }
  | _ => s.withHandle plan t

theorem insert_eq (storage : Storage ω τ) {s : Sink τ} {plan : Plan} {t : τ}
    (ht : s.table = some ⟨plan, some t⟩) {row : Row} {payload : Record}
    (projected : plan.project row = .ok payload) (w : ω) {answer : Except SinkError InsertOutcome}
    {t' : τ} {w' : ω}
    (h : plan.insert storage s.eliminating payload t w = (answer, t', w')) :
    s.insert storage row w = (answer.mapError .refused, s.settled plan t' answer, w') := by
  rw [insert, ht]
  dsimp only
  rw [projected]
  dsimp only
  rw [h]
  rcases answer with e | _ | _ <;> rfl

/-- The sink with another kind of table in place of its own. -/
def map {τ' : Type} (f : τ → τ') (s : Sink τ) : Sink τ' where
  shape := s.shape
  table := s.table.map fun t => { plan := t.plan, handle := t.handle.map f }
  rowCount := s.rowCount
  eliminating := s.eliminating

/-- The sink over the watched storage. -/
abbrev watched (s : Sink τ) : Sink (Numbered τ) := s.map (Numbered.mk 0)

theorem map_settled {τ' : Type} (f : τ → τ') (s : Sink τ) (plan : Plan) (t : τ)
    (answer : Except SinkError InsertOutcome) :
    (s.settled plan t answer).map f = (s.map f).settled plan (f t) answer := by
  rcases answer with e | _ | _ <;> rfl

theorem map_watched (s : Sink τ) : s.watched.map Numbered.table = s := by
  rcases s with ⟨shape, _ | ⟨plan, _ | t⟩, rowCount, eliminating⟩ <;> rfl

theorem table_settled (s : Sink τ) (plan : Plan) (t : τ)
    (answer : Except SinkError InsertOutcome) :
    (s.settled plan t answer).table = some ⟨plan, some t⟩ := by
  rcases answer with e | _ | _ <;> rfl

theorem settled_of_ne {s : Sink τ} {plan : Plan} {t : τ}
    {answer : Except SinkError InsertOutcome} (h : answer ≠ .ok .inserted) :
    s.settled plan t answer = s.withHandle plan t := by
  rcases answer with e | _ | _
  · rfl
  · exact absurd rfl h
  · rfl

end Sink

end ResultSink
