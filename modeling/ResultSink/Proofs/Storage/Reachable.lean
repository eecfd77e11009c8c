import ResultSink.Proofs.Storage.Promotion

/-! Every table that can come about. A table is made empty, is changed by operations, or is the copy
that a promotion made of another; whichever way it came about, it holds a list of records. The
stages of a promotion say what a copy is filled with on the way. -/

namespace ResultSink

/-- The tables that come about: an empty one in either place, one after an operation, and the copy
of one that some engine moved to disk. -/
inductive Table.Reachable : Table → Prop
  | new (placement : Placement) (id : TableId) (spec : TableSpec) (config : Config) :
      Reachable (Table.new placement id spec config)
  | step {t : Table} (op : Table.Op) : Reachable t → Reachable (Table.step op t).2
  | promoted {t copy : Table} (engine : Engine) :
      Reachable t → (engine.promote t).1 = .ok copy → Reachable copy

/-- The stages of a promotion: the copy that is being filled, and the records of the source that are
still to be written to it, the next one first. -/
inductive Engine.Copying (engine : Engine) (t : Table) : FileTable → List Record → Prop
  | opened {copy : FileTable} {records : List Record} :
      engine.openCopy t = .ok copy → t.scan = .ok records → Copying engine t copy records
  | written {copy next : FileTable} {record : Record} {rest : List Record} :
      Copying engine t copy (record :: rest) → copy.write record = .ok next →
      Copying engine t next rest

namespace Engine

variable {engine : Engine} {t : Table} {copy : FileTable} {rest : List Record}

/-- Whatever is still to be written will decide whether the promotion succeeds. -/
theorem Copying.promote_eq (h : engine.Copying t copy rest) :
    engine.promote t = engine.fillCopy copy rest := by
  induction h with
  | opened opened scanned => rw [promote, opened, scanned]
  | written _ wrote ih =>
    rw [ih, fillCopy, fillCopy, List.foldlM_cons, wrote]
    rfl

/-- What is still to be written was read from the source. -/
theorem Copying.subset (h : engine.Copying t copy rest) {records : List Record}
    (scanned : t.scan = .ok records) : rest ⊆ records := by
  induction h with
  | opened _ scanned' =>
    cases scanned'.symm.trans scanned
    exact fun _ there => there
  | written _ _ ih => exact fun record there => ih (List.mem_cons_of_mem _ there)

/-- Writes that all succeed take a copy through its stages. -/
theorem Copying.foldlM (h : engine.Copying t copy rest) {last : FileTable}
    (filled : rest.foldlM FileTable.write copy = .ok last) : engine.Copying t last [] := by
  induction rest generalizing copy with
  | nil =>
    cases filled
    exact h
  | cons record rest ih =>
    rw [List.foldlM_cons] at filled
    cases wrote : copy.write record with
    | error e =>
      rw [wrote] at filled
      cases filled
    | ok next =>
      rw [wrote] at filled
      exact ih (h.written wrote) filled

/-- A promotion succeeds with a copy exactly if its stages lead to the copy with nothing left to
write. -/
theorem promote_eq_ok_iff {made : Table} :
    (engine.promote t).1 = .ok made ↔ ∃ file, made = .disk file ∧ engine.Copying t file [] := by
  constructor
  · intro promoted
    unfold promote at promoted
    split at promoted
    · cases promoted
    · next empty opened =>
      split at promoted
      · cases promoted
      · next records scanned =>
        unfold fillCopy at promoted
        split at promoted
        · cases promoted
        · next file filled =>
          cases promoted
          exact ⟨file, rfl, (Copying.opened opened scanned).foldlM filled⟩
  · rintro ⟨file, rfl, last⟩
    rw [last.promote_eq]
    rfl

end Engine

theorem Table.Reachable.run {t : Table} (h : t.Reachable) (ops : List Table.Op) :
    (Table.run ops t).Reachable := by
  induction ops generalizing t with
  | nil => exact h
  | cons op ops ih => exact ih (h.step op)

/-- However a table came about, it holds some records. -/
theorem Table.Reachable.holds {t : Table} (h : t.Reachable) :
    ∃ config records, t.Holds config records := by
  induction h with
  | new placement id spec config => exact ⟨config, [], holds_new placement id spec config⟩
  | step op _ ih =>
    obtain ⟨config, records, holds⟩ := ih
    exact ⟨config, _, (holds.step op).1⟩
  | @promoted t copy engine _ promoted ih =>
    obtain ⟨config, records, holds⟩ := ih
    cases place : t.placement with
    | disk =>
      rw [Engine.promote_disk place] at promoted
      cases promoted
    | memory =>
      rcases engine.promote_cases holds place with ⟨-, made, answer, copied, -⟩ | ⟨-, e, answer⟩
      · rw [answer] at promoted
        cases promoted
        exact ⟨engine.config, records, copied⟩
      · rw [answer] at promoted
        cases promoted

/-- What is assumed of the files of an engine holds of every table that comes about. -/
theorem Engine.storage_reliable : Engine.storage.Reliable Table.Reachable where
  write t w record what reachable := by
    obtain ⟨config, records, holds⟩ := reachable.holds
    rw [storage_write]
    cases refusal : Table.refusal? config t.placement t.spec.key records record with
    | none =>
      obtain ⟨next, written, -⟩ := holds.write_stored refusal
      rw [written]
      exact fun failed => nomatch failed
    | some e =>
      rw [holds.write_refused refusal]
      rintro ⟨⟩
      exact Table.refusal?_ne_io what refusal
  readHash t w hash what reachable := by
    obtain ⟨config, records, holds⟩ := reachable.holds
    rw [storage_readHash, holds.readHash_eq]
    split
    · exact fun failed => nomatch failed
    · exact fun failed => nomatch failed
  scan t w reachable := by
    obtain ⟨config, records, holds⟩ := reachable.holds
    obtain ⟨read, scanned, -⟩ := holds.scan
    exact ⟨read, scanned⟩
  clear t w _ := rfl

end ResultSink
