import ResultSink.Proofs.Storage.Engine
import ResultSink.Storage.Faults

/-! Calls that may be made to fail. A call on an engine with faults does what the engine does, or it
leaves the engine and the table alone; only records that are read may be made up. -/

namespace ResultSink.FaultyEngine

/-- What the calls of tables leave alone in an engine with faults. -/
structure Frame (w next : FaultyEngine) : Prop where
  engine : w.engine.Frame next.engine
  plan : next.plan = w.plan

theorem Frame.refl (w : FaultyEngine) : w.Frame w := ⟨.refl w.engine, rfl⟩

theorem Frame.trans {w next last : FaultyEngine} (h : w.Frame next) (h' : next.Frame last) :
    w.Frame last :=
  ⟨h.engine.trans h'.engine, h'.plan.trans h.plan⟩

/-- No fault makes up what a scan reads. -/
def Honest (w : FaultyEngine) : Prop :=
  ∀ fault ∈ w.plan, fault.kind = .scan → ∃ e, fault.answer = .error e

theorem Honest.frame {w next : FaultyEngine} (h : w.Honest) (hf : w.Frame next) : next.Honest := by
  intro fault planned
  exact h fault (hf.plan ▸ planned)

theorem frame_meet (kind : CallKind) (w : FaultyEngine) : w.Frame (meet kind w).2 :=
  ⟨.refl w.engine, rfl⟩

/-- What a fault answers in place of a scan is an error. -/
theorem Honest.meet_scan {w : FaultyEngine} (h : w.Honest) {answer : FaultAnswer}
    (hm : (meet .scan w).1 = some answer) : ∃ e, answer = .error e := by
  obtain ⟨fault, found, rfl⟩ := Option.map_eq_some_iff.1 hm
  have scan := List.find?_some found
  have planned := List.mem_of_find?_eq_some found
  exact h fault planned (by simpa using (of_decide_eq_true scan).1)

variable {w w' : FaultyEngine} {t t' : Table}

/-- A call that changes a table, under faults. -/
theorem guarded_spec {kind : CallKind} {change : Table → Except StorageError Table}
    {answer : Except StorageError Unit}
    (h : guarded kind (fun t engine => replacing (change t) t engine) t w = (answer, t', w')) :
    w.Frame w' ∧ (answer = .ok () ∧ change t = .ok t' ∨ ∃ e, answer = .error e ∧ t' = t) := by
  have frame := frame_meet kind w
  unfold guarded at h
  split at h
  · next e w₁ met =>
    cases h
    rw [met] at frame
    exact ⟨frame, .inr ⟨e, rfl, rfl⟩⟩
  · next w₁ _ met =>
    rw [met] at frame
    cases hc : change t with
    | ok next =>
      simp only [lift, hc, replacing_ok] at h
      cases h
      exact ⟨frame, .inl ⟨rfl, rfl⟩⟩
    | error e =>
      simp only [lift, hc, replacing_error] at h
      cases h
      exact ⟨frame, .inr ⟨e, rfl, rfl⟩⟩

theorem clear_spec {answer : Except StorageError Unit}
    (h : storage.clear t w = (answer, t', w')) : w.Frame w' ∧ (t' = t ∨ t' = t.clear) := by
  have cleared : guarded .clear (fun t engine => replacing (.ok t.clear) t engine) t w =
      (answer, t', w') := h
  obtain ⟨frame, ⟨-, done⟩ | ⟨-, -, same⟩⟩ := guarded_spec cleared
  · exact ⟨frame, .inr (Except.ok.inj done).symm⟩
  · exact ⟨frame, .inl same⟩

/-- A call that reads a table, under faults. -/
theorem guardedRecords_spec {kind : CallKind} {read : Table → Except StorageError (List Record)}
    {answer : Except StorageError (List Record)}
    (h : guardedRecords kind (fun t engine => (read t, t, engine)) t w = (answer, t', w')) :
    w.Frame w' ∧ t' = t ∧ (answer = read t ∨ (∃ e, answer = .error e) ∨
      ∃ records, (meet kind w).1 = some (.records records)) := by
  have frame := frame_meet kind w
  unfold guardedRecords at h
  split at h
  · next e w₁ met =>
    cases h
    rw [met] at frame
    exact ⟨frame, rfl, .inr (.inl ⟨e, rfl⟩)⟩
  · next records w₁ met =>
    cases h
    rw [met] at frame
    exact ⟨frame, rfl, .inr (.inr ⟨records, congrArg Prod.fst met⟩)⟩
  · next w₁ met =>
    cases h
    rw [met] at frame
    exact ⟨frame, rfl, .inl rfl⟩

theorem scan_spec (honest : w.Honest) {answer : Except StorageError (List Record)}
    (h : scan t w = (answer, t', w')) :
    w.Frame w' ∧ t' = t ∧ (answer = t.scan ∨ ∃ e, answer = .error e) := by
  obtain ⟨frame, same, real | failed | ⟨records, made⟩⟩ := guardedRecords_spec h
  · exact ⟨frame, same, .inl real⟩
  · exact ⟨frame, same, .inr failed⟩
  · obtain ⟨e, other⟩ := honest.meet_scan made
    cases other

theorem create_spec {spec : TableSpec} {answer : Except (Failure StorageError) Table}
    (h : create spec w = (answer, w')) :
    w.Frame w' ∧ ∀ t, answer = .ok t → t.Holds w.engine.config [] ∧ t.spec = spec := by
  have frame := frame_meet .create w
  obtain ⟨engineFrame, made⟩ := w.engine.create_spec spec
  unfold create at h
  split at h
  · next e w₁ met =>
    cases h
    rw [met] at frame
    exact ⟨frame, fun t made => nomatch made⟩
  · next w₁ _ met =>
    have engine : w₁.engine = w.engine := congrArg (fun r => r.2.engine) met.symm
    rw [met] at frame
    cases h
    rw [engine]
    refine ⟨⟨engineFrame, frame.plan⟩, fun t answered => ?_⟩
    obtain ⟨holds, spec, -⟩ := made t answered
    exact ⟨holds, spec⟩

/-- A promotion under faults leaves its source, and what it makes is a copy of it. -/
theorem promote_spec (honest : w.Honest) {config : Config} {records : List Record}
    (holds : t.Holds config records) {answer : Except StorageError Table}
    (h : promote t w = (answer, t', w')) :
    w.Frame w' ∧ t' = t ∧ ∀ copy, answer = .ok copy →
      t.placement = .memory ∧ copy.Holds w.engine.config records ∧ t.CopyOf copy := by
  have frame := frame_meet .promote w
  unfold promote at h
  split at h
  · next e w₁ met =>
    cases h
    rw [met] at frame
    exact ⟨frame, rfl, fun copy made => nomatch made⟩
  · next w₁ _ met =>
    have engine : w₁.engine = w.engine := congrArg (fun r => r.2.engine) met.symm
    rw [met] at frame
    split at h
    · cases h
      exact ⟨frame, rfl, fun copy made => nomatch made⟩
    · next empty opened =>
      obtain ⟨place, start, copyOf⟩ := Engine.of_openCopy opened
      -- The source is read by a call of its own, which may fail in its turn.
      split at h
      · next e t₁ w₂ scanned =>
        cases h
        obtain ⟨frame', same, -⟩ := scan_spec (honest.frame frame) scanned
        exact ⟨frame.trans frame', same, fun copy made => nomatch made⟩
      · next read t₁ w₂ scanned =>
        obtain ⟨frame', same, real | ⟨e, failed⟩⟩ := scan_spec (honest.frame frame) scanned
        · have all : read = records :=
            Except.ok.inj (real.trans (Engine.scan_memory holds place))
          have config : w₂.engine.config = w₁.engine.config := frame'.engine.config
          rw [← config] at start
          rcases Engine.fillCopy_empty start copyOf holds.admissible with
            ⟨-, copy, filled, copied, copyOf'⟩ | ⟨-, rows, bytes, filled⟩
          · rw [all, filled] at h
            cases h
            refine ⟨?_, same, ?_⟩
            · have counted := w₂.engine.frame_countPromotion
              exact ⟨(frame.engine.trans frame'.engine).trans counted, (frame.trans frame').plan⟩
            · rintro _ ⟨⟩
              rw [config, engine] at copied
              exact ⟨place, copied, copyOf'⟩
          · rw [all, filled] at h
            cases h
            exact ⟨frame.trans frame', same, fun copy made => nomatch made⟩
        · cases failed

end ResultSink.FaultyEngine
