import ResultSink.Proofs.Sink.Protocol
import ResultSink.Proofs.Storage.Faults

/-! Operations that fail. On an engine whose calls may be made to fail at any point, an operation
that fails leaves the sink as it was, but that an insertion may have moved its table to disk; then
the whole table was moved. -/

namespace ResultSink

/-- A table was moved to disk as a whole, with the index open under a hash key. -/
structure Table.Relocated (t next : Table) : Prop where
  source : t.placement = .memory
  placement : next.placement = .disk
  id : next.id = t.id
  spec : next.spec = t.spec
  ignoresDuplicates : next.ignoresDuplicates = t.ignoresDuplicates
  isOpen : next.spec.key = .hash → next.index.isOpen = true
  rowCount : next.rowCount = t.rowCount
  dataBytes : next.dataBytes = t.dataBytes
  scan : ∃ read left, t.scan = .ok read ∧ next.scan = .ok left ∧ left.Perm read

namespace Plan

variable {plan : Plan} {t : Table} {t' : Numbered Table} {records : List Record}
  {w w' : FaultyEngine} {calls : List (Call Table)}

theorem Serves.relocated {config : Config} {next : Table} (h : plan.Serves config t records)
    (h' : plan.Serves config next records) (source : t.placement = .memory)
    (placement : next.placement = .disk) (id : next.id = t.id) : t.Relocated next := by
  obtain ⟨read, scanned, order⟩ := h.holds.scan
  obtain ⟨left, scanned', order'⟩ := h'.holds.scan
  exact {
    source, placement, id
    spec := h'.spec.trans h.spec.symm
    ignoresDuplicates := h'.ignoresDuplicates.trans h.ignoresDuplicates.symm
    isOpen := fun hk => h'.isOpen (Strategy.key_eq_hash.1 (h'.key.symm.trans hk))
    rowCount := h'.holds.rowCount.trans h.holds.rowCount.symm
    dataBytes := h'.holds.dataBytes.trans h.holds.dataBytes.symm
    scan := ⟨read, left, scanned, scanned', order'.perm.trans order.perm.symm⟩ }

theorem Serves.frame (h : plan.Serves w.engine.config t records) (hf : w.Frame w') :
    plan.Serves w'.engine.config t records := hf.engine.config ▸ h

theorem allocate_faulty {answer : Except (Failure SinkError) Table}
    (h : plan.allocate FaultyEngine.storage w = (answer, w')) :
    w.Frame w' ∧ ∀ t, answer = .ok t → plan.Serves w.engine.config t [] := by
  unfold allocate at h
  rcases hc : FaultyEngine.storage.create plan.tableSpec w with ⟨e | t, w₁⟩
  · obtain ⟨frame, -⟩ := FaultyEngine.create_spec hc
    rw [hc] at h
    cases h
    exact ⟨frame, fun t made => nomatch made⟩
  · obtain ⟨frame, created⟩ := FaultyEngine.create_spec hc
    obtain ⟨holds, spec⟩ := created t rfl
    have serves := plan.serves_new holds spec
    rw [hc] at h
    dsimp only at h
    by_cases hs : plan.strategy = .hashKey
    · rw [if_pos hs] at serves h
      obtain ⟨next, opened, serves⟩ := serves
      rcases ho : FaultyEngine.storage.openIndex (FaultyEngine.storage.ignoreDuplicates t) w₁ with
        ⟨e | _, t', w₂⟩
      · obtain ⟨frame', -⟩ := FaultyEngine.guarded_spec ho
        rw [ho] at h
        cases h
        exact ⟨frame.trans frame', fun t made => nomatch made⟩
      · obtain ⟨frame', ⟨-, opened'⟩ | ⟨e, failed, -⟩⟩ := FaultyEngine.guarded_spec ho
        · rw [ho] at h
          cases h
          refine ⟨frame.trans frame', ?_⟩
          rintro _ ⟨⟩
          cases opened.symm.trans opened'
          exact serves
        · cases failed
    · rw [if_neg hs] at serves h
      cases h
      refine ⟨frame, ?_⟩
      rintro _ ⟨⟩
      exact serves

/-- A table that is not moved stays, and one that is moved is moved as a whole. -/
theorem Serves.promotes (h : plan.Serves w.engine.config t records) (honest : w.Honest)
    {answer : Except StorageError Unit}
    (hp : Promotes FaultyEngine.storage t w answer t' w' calls) :
    w.Frame w' ∧ plan.Serves w.engine.config t'.table records ∧
      ((∃ e, answer = .error e) ∧ t'.table = t ∨ answer = .ok () ∧ t.Relocated t'.table) := by
  cases hp with
  | failed hm =>
    obtain ⟨frame, rfl, -⟩ := FaultyEngine.promote_spec honest h.holds hm
    exact ⟨frame, h, .inl ⟨⟨_, rfl⟩, rfl⟩⟩
  | closed hm _ ho =>
    -- The copy is complete but for its index, and it is dropped.
    obtain ⟨frame, rfl, -⟩ := FaultyEngine.promote_spec honest h.holds hm
    obtain ⟨frame', -⟩ := FaultyEngine.guarded_spec ho
    exact ⟨frame.trans frame', h, .inl ⟨⟨_, rfl⟩, rfl⟩⟩
  | opened hm hk ho =>
    obtain ⟨frame, -, made⟩ := FaultyEngine.promote_spec honest h.holds hm
    obtain ⟨source, copied, copyOf⟩ := made _ rfl
    obtain ⟨frame', ⟨-, opened⟩ | ⟨e, failed, -⟩⟩ := FaultyEngine.guarded_spec ho
    · obtain ⟨next, opened', serves, id, place⟩ := (h.copied copied copyOf).1 hk
      cases opened'.symm.trans opened
      exact ⟨frame.trans frame', serves, .inr ⟨rfl, h.relocated serves source place id⟩⟩
    · cases failed
  | plain hm hk =>
    obtain ⟨frame, -, made⟩ := FaultyEngine.promote_spec honest h.holds hm
    obtain ⟨source, copied, copyOf⟩ := made _ rfl
    have serves := (h.copied copied copyOf).2 hk
    exact ⟨frame, serves, .inr ⟨rfl, h.relocated serves source copyOf.placement copyOf.id⟩⟩

/-- What becomes of a table whose record was not taken: it stays, or it was moved to disk as a
whole. -/
def Kept (plan : Plan) (config : Config) (t : Table) (records : List Record)
    (next : Numbered Table) : Prop :=
  plan.Serves config next.table records ∧
    (next.table = t ∨ next.number ≠ 0 ∧ t.Relocated next.table)

theorem Serves.course (h : plan.Serves w.engine.config t records) (honest : w.Honest)
    {record : Record} {answer : Except SinkError InsertOutcome}
    (hc : Course FaultyEngine.storage plan record t w answer t' w' calls) :
    w.Frame w' ∧ (answer = .ok .inserted ∧
        plan.Serves w.engine.config t'.table (records ++ [record])
      ∨ answer ≠ .ok .inserted ∧ plan.Kept w.engine.config t records t') := by
  cases hc with
  | settled hw =>
    obtain ⟨frame, ⟨rfl, written⟩ | ⟨e, rfl, rfl⟩⟩ := FaultyEngine.guarded_spec hw
    · exact ⟨frame, .inl ⟨rfl, h.write_ok written⟩⟩
    · refine ⟨frame, .inr ⟨fun taken => ?_, h, .inl rfl⟩⟩
      cases verdict_eq_inserted.1 taken
  | unmoved hw _ promotes =>
    obtain ⟨frame, ⟨failed, -⟩ | ⟨e, -, rfl⟩⟩ := FaultyEngine.guarded_spec hw
    · cases failed
    · have there := h.frame frame
      obtain ⟨frame', -, ⟨-, rfl⟩ | ⟨done, -⟩⟩ := there.promotes (honest.frame frame) promotes
      · exact ⟨frame.trans frame', .inr ⟨fun taken => (nomatch taken), h, .inl rfl⟩⟩
      · cases done
  | moved hw _ promotes hw' =>
    have number := promotes.calls_eq.2.2.1.2 rfl
    obtain ⟨frame, ⟨failed, -⟩ | ⟨e, -, rfl⟩⟩ := FaultyEngine.guarded_spec hw
    · cases failed
    · have there := h.frame frame
      obtain ⟨frame', serves, ⟨⟨_, failed⟩, -⟩ | ⟨-, relocated⟩⟩ :=
        there.promotes (honest.frame frame) promotes
      · cases failed
      · rw [frame.engine.config] at serves
        obtain ⟨frame'', ⟨rfl, written⟩ | ⟨e', rfl, rfl⟩⟩ := FaultyEngine.guarded_spec hw'
        · exact ⟨(frame.trans frame').trans frame'', .inl ⟨rfl, serves.write_ok written⟩⟩
        · refine ⟨(frame.trans frame').trans frame'', .inr ⟨fun taken => ?_, serves, ?_⟩⟩
          · cases verdict_eq_inserted.1 taken
          · exact .inr ⟨number, relocated⟩

theorem Serves.insertion (h : plan.Serves w.engine.config t records) (honest : w.Honest)
    {eliminating : Bool} {payload : Record} {answer : Except SinkError InsertOutcome}
    (hi : Insertion FaultyEngine.storage plan eliminating payload t w answer t' w' calls) :
    w.Frame w' ∧ (answer = .ok .inserted ∧
        plan.Serves w.engine.config t'.table (records ++ [plan.recordOf payload])
      ∨ answer ≠ .ok .inserted ∧ plan.Kept w.engine.config t records t') := by
  cases hi with
  | unread _ hr | unsplit _ hr | found _ hr =>
    obtain ⟨frame, rfl, -⟩ := FaultyEngine.guardedRecords_spec hr
    exact ⟨frame, .inr ⟨fun taken => (nomatch taken), h, .inl rfl⟩⟩
  | new _ hr _ course =>
    obtain ⟨frame, rfl, -⟩ := FaultyEngine.guardedRecords_spec hr
    have there := h.frame frame
    obtain ⟨frame', outcome⟩ := there.course (honest.frame frame) course
    rw [frame.engine.config] at outcome
    exact ⟨frame.trans frame', outcome⟩
  | unasked _ course => exact h.course honest course

theorem Serves.clear_faulty (h : plan.Serves w.engine.config t records) {next : Table}
    {answer : Except SinkError Unit}
    (hc : plan.clear FaultyEngine.storage t w = (answer, next, w')) :
    w.Frame w' ∧ ∃ held, plan.Serves w.engine.config next held := by
  rcases cleared : FaultyEngine.storage.clear t w with ⟨told, t', w₁⟩
  obtain ⟨frame, left⟩ := FaultyEngine.clear_spec cleared
  have same : next = t' ∧ w' = w₁ := by
    rw [Plan.clear, cleared] at hc
    rcases told with e | _ <;> cases hc <;> exact ⟨rfl, rfl⟩
  obtain ⟨rfl, rfl⟩ := same
  refine ⟨frame, ?_⟩
  rcases left with rfl | rfl
  · exact ⟨records, h⟩
  · exact ⟨[], h.clear.2⟩

theorem rows_faulty (honest : w.Honest) {next : Table} {answer : Except SinkError (List Row)}
    (hr : plan.rows FaultyEngine.storage t w = (answer, next, w')) : w.Frame w' ∧ next = t := by
  rcases scanned : FaultyEngine.storage.scan t w with ⟨told, t', w₁⟩
  obtain ⟨frame, rfl, -⟩ := FaultyEngine.scan_spec honest scanned
  rw [Plan.rows, scanned] at hr
  rcases told with e | _ <;> cases hr <;> exact ⟨frame, rfl⟩

end Plan

namespace Sink

/-- A sink whose table, if it has one, serves its plan on an engine that makes up no scan. -/
structure Sound (s : Sink Table) (w : FaultyEngine) : Prop where
  honest : w.Honest
  serves : ∀ plan t, s.table = some ⟨plan, some t⟩ →
    ∃ records, plan.Serves w.engine.config t records

/-- What an operation that failed leaves of a sink: the sink as it was, or with another table in
place of its own, which an insertion moved to disk. -/
def Spared (s : Sink Table) (w : FaultyEngine) (op : Op) (next : Sink Table) : Prop :=
  next = s ∨ ∃ row plan t t', op = .insert row ∧ s.table = some ⟨plan, some t⟩ ∧
    next = { s with table := some ⟨plan, some t'⟩ } ∧ t.Relocated t' ∧ FaultyEngine.storage.Moved
      (s.watched.insert FaultyEngine.storage.watched row (.start w)).2.2.calls

variable {s next : Sink Table} {w w' : FaultyEngine} {row : Row}

theorem Sound.frame (h : s.Sound w) (hf : w.Frame w') (ht : next.table = s.table) :
    next.Sound w' where
  honest := h.honest.frame hf
  serves plan t there := by
    obtain ⟨records, serves⟩ := h.serves plan t (ht ▸ there)
    exact ⟨records, serves.frame hf⟩

theorem Sound.of_serves (honest : w.Honest) (hf : w.Frame w') {plan : Plan} {t : Table}
    {records : List Record} (serves : plan.Serves w.engine.config t records)
    (there : next.table = some ⟨plan, some t⟩) : next.Sound w' where
  honest := honest.frame hf
  serves other t' same := by
    cases there.symm.trans same
    exact ⟨records, serves.frame hf⟩

theorem Sound.create (h : s.Sound w) (request : TableRequest)
    {answer : Except (Failure SinkError) Unit}
    (hc : s.create FaultyEngine.storage request w = (answer, next, w')) :
    next.Sound w' ∧ ∀ e, answer = .error e → next = s := by
  unfold Sink.create at hc
  split at hc
  · cases hc
    exact ⟨h, fun _ _ => rfl⟩
  · dsimp only at hc
    split at hc
    · split at hc
      · next t w₁ allocated =>
        cases hc
        obtain ⟨frame, made⟩ := Plan.allocate_faulty allocated
        exact ⟨.of_serves h.honest frame (made t rfl) rfl, fun e failed => nomatch failed⟩
      · next e w₁ allocated =>
        cases hc
        obtain ⟨frame, -⟩ := Plan.allocate_faulty allocated
        exact ⟨h.frame frame rfl, fun _ _ => rfl⟩
    · cases hc
      exact ⟨⟨h.honest, fun _ _ there => nomatch there⟩, fun e failed => nomatch failed⟩

theorem Sound.instantiate (h : s.Sound w) {answer : Except (Failure SinkError) Unit}
    (hc : s.instantiate FaultyEngine.storage w = (answer, next, w')) :
    next.Sound w' ∧ ∀ e, answer = .error e → next = s := by
  unfold Sink.instantiate at hc
  split at hc
  · cases hc
    exact ⟨h, fun _ _ => rfl⟩
  · cases hc
    exact ⟨h, fun _ _ => rfl⟩
  · split at hc
    · next t w₁ allocated =>
      cases hc
      obtain ⟨frame, made⟩ := Plan.allocate_faulty allocated
      exact ⟨.of_serves h.honest frame (made t rfl) rfl, fun e failed => nomatch failed⟩
    · next e w₁ allocated =>
      cases hc
      obtain ⟨frame, -⟩ := Plan.allocate_faulty allocated
      exact ⟨h.frame frame rfl, fun _ _ => rfl⟩

theorem Sound.insert (h : s.Sound w) {answer : Except (Failure SinkError) InsertOutcome}
    (hi : s.insert FaultyEngine.storage row w = (answer, next, w')) :
    next.Sound w' ∧ ∀ e, answer = .error e → Spared s w (.insert row) next := by
  rcases insert_reaches FaultyEngine.storage s row w with ⟨e, turned⟩ | ⟨plan, t, values, ht, hv⟩
  · cases hi.symm.trans turned
    exact ⟨h, fun _ _ => .inl rfl⟩
  obtain ⟨records, serves⟩ := h.serves plan t ht
  have projected : plan.project row = .ok values.encode := by rw [Plan.project, hv]; rfl
  obtain ⟨result, t', w₁, calls, insertion, inserted, number, watched⟩ :=
    Plan.insert_watched FaultyEngine.storage plan t w s.eliminating values.encode
  cases hi.symm.trans (insert_eq FaultyEngine.storage ht projected w inserted)
  obtain ⟨frame, ⟨rfl, held⟩ | ⟨untaken, kept, unmoved | ⟨copied, relocated⟩⟩⟩ :=
    serves.insertion h.honest insertion
  · exact ⟨.of_serves h.honest frame held rfl, fun e failed => by cases failed⟩
  · rw [settled_of_ne untaken, unmoved, withHandle_self ht]
    exact ⟨h.frame frame rfl, fun _ _ => .inl rfl⟩
  · rw [settled_of_ne untaken]
    refine ⟨.of_serves h.honest frame kept rfl,
      fun _ _ => .inr ⟨row, plan, t, t'.table, rfl, ht, rfl, relocated, ?_⟩⟩
    have there : s.watched.table = some ⟨plan, some ⟨0, t⟩⟩ := by simp [map, ht]
    rw [insert_eq FaultyEngine.storage.watched there projected (.start w) watched]
    exact insertion.protocol.replaced_iff.1 copied

theorem Sound.reset (h : s.Sound w) {answer : Except SinkError Unit}
    (hr : s.reset FaultyEngine.storage w = (answer, next, w')) : next.Sound w' := by
  unfold Sink.reset at hr
  dsimp only at hr
  split at hr
  · next plan t ht =>
    obtain ⟨records, serves⟩ := h.serves plan t ht
    rcases hc : plan.clear FaultyEngine.storage t w with ⟨told, t', w₁⟩
    obtain ⟨frame, held, serves'⟩ := serves.clear_faulty hc
    rw [hc] at hr
    cases hr
    exact .of_serves h.honest frame serves' rfl
  · cases hr
    exact h.frame (.refl w) rfl

theorem Sound.rows (h : s.Sound w) {answer : Except SinkError (List Row)}
    (hr : s.rows FaultyEngine.storage w = (answer, next, w')) : next.Sound w' ∧ next = s := by
  unfold Sink.rows at hr
  split at hr
  · cases hr
    exact ⟨h, rfl⟩
  · cases hr
    exact ⟨h, rfl⟩
  · next plan t ht =>
    rcases read : plan.rows FaultyEngine.storage t w with ⟨told, t', w₁⟩
    obtain ⟨frame, rfl⟩ := Plan.rows_faulty h.honest read
    rw [read] at hr
    cases hr
    rw [withHandle_self ht]
    exact ⟨h.frame frame rfl, rfl⟩

/-- Every operation keeps a sink sound, and all but a reset spare it when they fail. -/
theorem Sound.step (h : s.Sound w) (op : Op) :
    let after := Sink.step FaultyEngine.storage op s w
    after.2.1.Sound after.2.2 ∧
      (op ≠ .reset → ∀ e, after.1 = .error e → s.Spared w op after.2.1) := by
  cases op with
  | prepare shape => exact ⟨h.frame (.refl w) rfl, fun _ e failed => by cases failed⟩
  | create request =>
    rcases hc : s.create FaultyEngine.storage request w with ⟨answer, next, w'⟩
    obtain ⟨sound, same⟩ := h.create request hc
    simp only [Sink.step, hc]
    refine ⟨sound, fun _ e failed => .inl ?_⟩
    cases answer with
    | ok => cases failed
    | error e => exact same e rfl
  | instantiate =>
    rcases hc : s.instantiate FaultyEngine.storage w with ⟨answer, next, w'⟩
    obtain ⟨sound, same⟩ := h.instantiate hc
    simp only [Sink.step, hc]
    refine ⟨sound, fun _ e failed => .inl ?_⟩
    cases answer with
    | ok => cases failed
    | error e => exact same e rfl
  | free => exact ⟨⟨h.honest, fun _ _ none => by cases none⟩, fun _ e failed => by cases failed⟩
  | insert row =>
    rcases hi : s.insert FaultyEngine.storage row w with ⟨answer, next, w'⟩
    obtain ⟨sound, spared⟩ := h.insert hi
    simp only [Sink.step, hi]
    refine ⟨sound, fun _ e failed => ?_⟩
    cases answer with
    | ok => cases failed
    | error e => exact spared e rfl
  | setEliminating on =>
    simp only [Sink.step, setEliminating]
    split
    · exact ⟨h, fun _ _ _ => .inl rfl⟩
    · exact ⟨h.frame (.refl w) rfl, fun _ e failed => by cases failed⟩
  | endOfRows | flush => exact ⟨h, fun _ e failed => by cases failed⟩
  | reset =>
    rcases hr : s.reset FaultyEngine.storage w with ⟨answer, next, w'⟩
    simp only [Sink.step, hr]
    exact ⟨h.reset hr, fun other => absurd rfl other⟩
  | cleanup =>
    rcases hr : s.reset FaultyEngine.storage w with ⟨answer, next, w'⟩
    simp only [Sink.step, Sink.cleanup, hr]
    exact ⟨h.reset hr, fun _ e failed => by cases failed⟩
  | rows =>
    rcases hr : s.rows FaultyEngine.storage w with ⟨answer, next, w'⟩
    obtain ⟨sound, same⟩ := h.rows hr
    simp only [Sink.step, hr]
    exact ⟨sound, fun _ _ _ => .inl same⟩

theorem Sound.run (h : s.Sound w) (ops : List Op) :
    (Sink.run FaultyEngine.storage ops s w).1.Sound (Sink.run FaultyEngine.storage ops s w).2 := by
  induction ops generalizing s w with
  | nil => exact h
  | cons op ops ih => exact ih (h.step op).1

/-- Whichever calls of an engine fail, an operation that fails leaves the sink as it was, or with
its table moved to disk as a whole. A reset counts no rows even where the table cannot be emptied.
-/
theorem failed_step_spares (engine : Engine) (faults : List Fault)
    (honest : ∀ fault ∈ faults, fault.kind = .scan → ∃ e, fault.answer = .error e)
    (ops : List Op) (op : Op) :
    let s := (run FaultyEngine.storage ops {} ⟨engine, faults, []⟩).1
    let w := (run FaultyEngine.storage ops {} ⟨engine, faults, []⟩).2
    let after := step FaultyEngine.storage op s w
    op ≠ .reset → ∀ e, after.1 = .error e → s.Spared w op after.2.1 := by
  intro s w after
  have start : ({} : Sink Table).Sound ⟨engine, faults, []⟩ :=
    ⟨honest, fun _ _ none => by cases none⟩
  exact ((start.run ops).step op).2

theorem Spared.relocated {op : Op} (h : s.Spared w op next)
    (moved : next.handle?.map Table.placement ≠ s.handle?.map Table.placement) :
    next.rowCount = s.rowCount ∧ ∃ t t', s.handle? = some t ∧ next.handle? = some t' ∧
      t.Relocated t' := by
  rcases h with rfl | ⟨row, plan, t, t', -, ht, rfl, relocated, -⟩
  · exact absurd rfl moved
  · refine ⟨rfl, t, t', ?_, rfl, relocated⟩
    rw [handle?, ht]
    rfl

/-- The second row moves the table, and the write to the copy fails: the first row is there
still. -/
theorem failed_step_spares_moving :
    let broken : Fault := ⟨.write, some 3, .error .system⟩
    let start := run FaultyEngine.storage [.create numbersRequest, .insert [.int 1]] {}
      ⟨oneRowEngine {}, [broken], []⟩
    let after := step FaultyEngine.storage (.insert [.int 2]) start.1 start.2
    (∃ e, after.1 = .error e) ∧ after.2.1.rowCount = 1 ∧ ∃ t next, start.1.handle? = some t ∧
      after.2.1.handle? = some next ∧ t.Relocated next := by
  have honest : ∀ fault ∈ [(⟨.write, some 3, .error .system⟩ : Fault)],
      fault.kind = .scan → ∃ e, fault.answer = .error e := by simp
  have spared := failed_step_spares (oneRowEngine {}) _ honest
    [.create numbersRequest, .insert [.int 1]] (.insert [.int 2]) (fun other => by cases other)
    _ rfl
  obtain ⟨count, t, next, old, new, relocated⟩ := spared.relocated (by decide)
  exact ⟨⟨_, rfl⟩, count.trans (by decide), t, next, old, new, relocated⟩

end Sink

end ResultSink
