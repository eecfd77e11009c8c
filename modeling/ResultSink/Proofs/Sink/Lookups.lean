import ResultSink.Proofs.Sink.Lifecycle
import ResultSink.Proofs.Sink.Protocol
import ResultSink.Proofs.Sink.Watching
import ResultSink.Proofs.Storage.Reachable

/-! Look-ups by a hash. A look-up answers whether a payload is stored, however many payloads share
its hash and however often it is stored, as long as every stored record carries the hash of its own
payload. A sink writes no other records under a hash key, and a promotion copies no others. -/

namespace ResultSink

/-! ### Records that carry their hash -/

/-- A record is a payload with its hash behind it, for a function that hashes payloads. -/
def Record.Sealed (hash : Record → UInt64) (record : Record) : Prop :=
  ∃ payload, record = Record.appendHash payload (hash payload)

/-- Among records that carry their hashes, whether a payload is stored needs no look at the hash. -/
theorem Record.mem_of_sealed {hash : Record → UInt64} {records : List Record}
    (carried : ∀ record ∈ records, record.Sealed hash) (payload : Record) :
    Record.appendHash payload (hash payload) ∈ records ↔
      ∃ h, Record.appendHash payload h ∈ records := by
  refine ⟨fun there => ⟨_, there⟩, fun ⟨h, there⟩ => ?_⟩
  obtain ⟨found, same⟩ := carried _ there
  obtain ⟨rfl, rfl⟩ := Record.appendHash_inj.1 same
  exact there

theorem Plan.recordOf_sealed {plan : Plan} (hs : plan.strategy = .hashKey) (payload : Record) :
    (plan.recordOf payload).Sealed Record.hash := ⟨payload, if_pos hs⟩

/-! ### Tables -/

namespace Table

/-- A look-up of any payload by its hash answers whether a record with this payload is stored, and
leaves the table and the engine alone. -/
def LooksUp (hash : Record → UInt64) (t : Table) (stored : List Record) : Prop :=
  ∀ payload w, ∃ found,
    Plan.contains Engine.storage payload (hash payload) t w = (.ok found, t, w) ∧
      (found = true ↔ ∃ h, Record.appendHash payload h ∈ stored)

variable {config : Config} {t : Table} {records : List Record}

/-- Under any key but a unique one a table is read in the order it was written. -/
theorem Holds.scan_inOrder (h : t.Holds config records) (hk : t.spec.key ≠ .unique) :
    t.scan = .ok records := by
  obtain ⟨read, scanned, order⟩ := h.scan
  rw [ReadsAs, if_neg fun both => hk both.2] at order
  rw [scanned, order]

theorem Holds.looksUp (h : t.Holds config records) (hk : t.spec.key = .hash)
    (ho : t.index.isOpen = true) {hash : Record → UInt64}
    (carried : ∀ record ∈ records, record.Sealed hash) : t.LooksUp hash records := by
  intro payload w
  refine ⟨_, Plan.contains_held h hk ho payload (hash payload) w, ?_⟩
  rw [decide_eq_true_iff]
  exact Record.mem_of_sealed carried payload

end Table

/-! ### Writes -/

namespace Plan

variable {plan : Plan} {t t₁ : Table} {t' : Numbered Table} {records : List Record}
  {w w' : Engine} {calls : List (Call Table)}

theorem Serves.spec_of_write {config : Config} (h : plan.Serves config t records) {record : Record}
    {wrote : Except StorageError Unit} (hw : Engine.storage.write record t w = (wrote, t₁, w')) :
    t₁.spec = plan.tableSpec := by
  obtain ⟨-, ⟨e, -, -, rfl⟩ | ⟨written, -⟩⟩ := storage_write_cases hw
  · exact h.spec
  · exact (h.write_ok written).spec

/-- What is written on the course of storing a record is written to tables of the plan. -/
theorem Serves.course_specs (h : plan.Serves w.config t records) {record : Record}
    {answer : Except SinkError InsertOutcome}
    (hc : Course Engine.storage plan record t w answer t' w' calls) :
    ∀ call ∈ Call.writes calls, call.after.spec = plan.tableSpec := by
  cases hc with
  | settled hw => simpa using h.spec_of_write hw
  | unmoved hw _ promotes =>
    have none := promotes.calls_eq.1
    simpa [none] using h.spec_of_write hw
  | moved hw _ promotes hw' =>
    have none := promotes.calls_eq.1
    obtain ⟨rfl, rfl⟩ := (h.write_ages hw).2 _ rfl
    obtain ⟨-, serves⟩ := h.promotes_ages promotes
    simpa [none] using ⟨h.spec_of_write hw, serves.spec_of_write hw'⟩

theorem Serves.insertion_specs (h : plan.Serves w.config t records) {eliminating : Bool}
    {payload : Record} {answer : Except SinkError InsertOutcome}
    (hi : Insertion Engine.storage plan eliminating payload t w answer t' w' calls) :
    ∀ call ∈ Call.writes calls, call.after.spec = plan.tableSpec := by
  cases hi with
  | unread | unsplit | found => simp [List.filterMap_cons]
  | new _ hr _ course =>
    obtain ⟨rfl, rfl⟩ := storage_readHash_leaves hr
    simpa [List.filterMap_cons] using h.course_specs course
  | unasked _ course => exact h.course_specs course

end Plan

namespace Sink

theorem Keeps.writes_sealed {s : Sink Table} {w : Engine} {rows : List Row} (h : s.Keeps w rows)
    (op : Op) {call : WriteCall Table} (made : call ∈ Call.writes (s.calls Engine.storage op w))
    (hk : call.after.spec.key = .hash) : call.record.Sealed Record.hash := by
  rcases (s.step_watched Engine.storage op w).2 with none |
    ⟨plan, t, payload, answer, t', w', ht, insertion⟩
  · rw [none] at made
    cases made
  · rw [(h.serves plan t ht).insertion_specs insertion call made] at hk
    rw [insertion.protocol.record call made]
    exact plan.recordOf_sealed (Strategy.key_eq_hash.1 hk) payload

/-- A look-up by hash is exact in spite of collisions. Whatever function hashes the payloads, a
table with a hash key and an open index answers the look-up of a payload by whether it is stored,
however it came about and whichever place it is in, if its records carry their hashes. A sink that
has run any operations writes no other records to a table with a hash key, its own such table holds
no others and answers exactly, and a promotion of that table writes no others to the copy, even if
it fails on the way. -/
theorem lookups_exact (hash : Record → UInt64) (engine : Engine) (ops : List Op) (op : Op) :
    let s := (run Engine.storage ops {} engine).1
    let w := (run Engine.storage ops {} engine).2
    (∀ t : Table, t.Reachable → t.spec.key = .hash → t.index.isOpen = true →
      ∃ stored, t.scan = .ok stored ∧
        ((∀ record ∈ stored, record.Sealed hash) → t.LooksUp hash stored)) ∧
    (∀ call ∈ Call.writes (s.calls Engine.storage op w), call.after.spec.key = .hash →
      call.record.Sealed Record.hash) ∧
    ∀ plan t, s.table = some ⟨plan, some t⟩ → t.spec.key = .hash →
      (∃ stored, t.scan = .ok stored ∧ (∀ record ∈ stored, record.Sealed Record.hash) ∧
        t.LooksUp Record.hash stored) ∧
      ∀ copy record rest, w.Copying t copy (record :: rest) → record.Sealed Record.hash := by
  intro s w
  have h : s.Keeps w (ledger Engine.storage ops {} engine []) := (Keeps.init engine).run ops
  refine ⟨fun t reachable hk ho => ?_, fun call made hk => h.writes_sealed op made hk,
    fun plan t ht hk => ?_⟩
  · obtain ⟨config, records, holds⟩ := reachable.holds
    exact ⟨records, holds.scan_inOrder (by simp [hk]), holds.looksUp hk ho⟩
  · have serves := h.serves plan t ht
    have hs : plan.strategy = .hashKey := Strategy.key_eq_hash.1 (serves.key.symm.trans hk)
    have scanned := serves.holds.scan_inOrder (by simp [hk])
    have carried : ∀ record ∈ (ledger Engine.storage ops {} engine []).map plan.rowRecord,
        record.Sealed Record.hash := by
      intro record there
      obtain ⟨row, -, rfl⟩ := List.mem_map.1 there
      exact plan.recordOf_sealed hs row.encode
    refine ⟨⟨_, scanned, carried, serves.holds.looksUp hk (serves.isOpen hs) carried⟩, ?_⟩
    intro copy record rest copying
    exact carried record (copying.subset scanned List.mem_cons_self)

/-- Three records with one hash, two of them the same: the look-up tells the payloads apart. A row
that moves its table to disk is written twice, with the hash of its payload behind it, and the
record copied on the way carries its hash as well. -/
theorem lookups_exact_collision :
    let one : Record := ⟨#[1]⟩
    let two : Record := ⟨#[2]⟩
    let t := Table.run [.write (one.appendHash 7), .write (two.appendHash 7),
        .write (one.appendHash 7), .openIndex]
      (Table.new .disk .first { name := "t", key := .hash, columns := 1 } {})
    let ops : List Op := [.prepare { mixed := true }, .create numbersRequest, .insert [.int 2]]
    let s := (run Engine.storage ops {} (oneRowEngine {})).1
    let w := (run Engine.storage ops {} (oneRowEngine {})).2
    let written := Call.writes (s.calls Engine.storage (.insert [.int 1]) w)
    (Plan.contains Engine.storage two 7 t w).1 = .ok true ∧
      (Plan.contains Engine.storage ⟨#[3]⟩ 7 t w).1 = .ok false ∧
      written.length = 2 ∧ (∀ call ∈ written, call.record.Sealed Record.hash) ∧
      ∃ kept stored copy record, s.handle? = some kept ∧ kept.scan = .ok stored ∧
        (∀ record ∈ stored, record.Sealed Record.hash) ∧ w.Copying kept copy [record] ∧
        record.Sealed Record.hash := by
  intro one two t ops s w written
  obtain ⟨tables, writes, states⟩ :=
    lookups_exact (fun _ => 7) (oneRowEngine {}) ops (.insert [.int 1])
  have reachable : t.Reachable := (Table.Reachable.new _ _ _ _).run _
  have key : t.spec.key = .hash := by decide +kernel
  have isOpen : t.index.isOpen = true := by decide +kernel
  have records : t.scan.toOption =
      some [one.appendHash 7, two.appendHash 7, one.appendHash 7] := by decide +kernel
  obtain ⟨stored, scanned, looksUp⟩ := tables t reachable key isOpen
  rw [scanned] at records
  cases Option.some.inj records
  have exact := looksUp (by simp [Record.Sealed, Record.appendHash_inj])
  have hit : (Plan.contains Engine.storage two 7 t w).1 = .ok true := by
    obtain ⟨found, answer, there⟩ := exact two w
    rw [answer, there.2 ⟨7, by simp⟩]
  have miss : (Plan.contains Engine.storage ⟨#[3]⟩ 7 t w).1 = .ok false := by
    obtain ⟨found, answer, there⟩ := exact ⟨#[3]⟩ w
    cases found with
    | false => rw [answer]
    | true =>
      obtain ⟨h, same⟩ := there.1 rfl
      simp [one, two, Record.appendHash_inj] at same
  have keys : ∀ call ∈ written, call.after.spec.key = .hash := by decide +kernel
  have known : s.table.map (fun t => (t.plan, t.handle.isSome)) =
      some (Plan.resolve numbersRequest { mixed := true }, true) := by decide +kernel
  obtain ⟨kept, there⟩ := exists_handle known
  have keyed : s.handle?.map (fun t => t.spec.key) = some .hash := by decide +kernel
  have opens : s.handle?.map (fun t => (w.openCopy t).toOption.isSome) = some true := by
    decide +kernel
  have single : s.handle?.map (fun t => t.scan.toOption.map List.length) = some (some 1) := by
    decide +kernel
  have held : s.handle? = some kept := by rw [handle?, there]; rfl
  rw [held, Option.map_some] at keyed opens single
  obtain ⟨⟨stored, read, carried, -⟩, copies⟩ := states _ kept there (Option.some.inj keyed)
  rw [read] at single
  obtain ⟨record, rfl⟩ := List.length_eq_one_iff.1 (Option.some.inj (Option.some.inj single))
  cases opened : w.openCopy kept with
  | error e =>
    rw [opened] at opens
    cases opens
  | ok copy =>
    have copying : w.Copying kept copy [record] := .opened opened read
    exact ⟨hit, miss, by decide +kernel, fun call made => writes call made (keys call made),
      kept, [record], copy, record, held, read, carried, copying, copies copy record [] copying⟩

end Sink

end ResultSink
