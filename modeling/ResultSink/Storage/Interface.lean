import ResultSink.Storage.Engine

/-! What a sink asks of a storage. A storage has a world of its own, which every call may change,
and tables of some type; a call also says what it leaves of the table it was made on. -/

namespace ResultSink

/-- A call on a table: its answer, the table after it and the world after it. -/
abbrev TableCall (ω τ α : Type) := τ → ω → Except StorageError α × τ × ω

/-- The calls of a storage with tables of type `τ` in a world of type `ω`. Nothing is assumed about
them. -/
structure Storage (ω τ : Type) where
  create : TableSpec → ω → Except (Failure StorageError) τ × ω
  promote : TableCall ω τ τ
  write : Record → TableCall ω τ Unit
  openIndex : TableCall ω τ Unit
  readHash : UInt64 → TableCall ω τ (List Record)
  clear : TableCall ω τ Unit
  scan : TableCall ω τ (List Record)
  ignoreDuplicates : τ → τ
  spec : τ → TableSpec
  placement : τ → Placement
  reaction : τ → StorageError → Reaction
  isIgnorable : τ → StorageError → Bool

/-- A new table in place of the old one, or an error that leaves the old one. -/
def replacing {ω τ : Type} (answer : Except StorageError τ) (t : τ) (w : ω) :
    Except StorageError Unit × τ × ω :=
  match answer with
  | .ok t => (.ok (), t, w)
  | .error e => (.error e, t, w)

/-- A storage with reliable files: no call on a table that it can come to fails for a reason of the
operating system. -/
structure Storage.Reliable {ω τ : Type} (storage : Storage ω τ) (reachable : τ → Prop) : Prop where
  write : ∀ t w record what, reachable t → (storage.write record t w).1 ≠ .error (.io what)
  readHash : ∀ t w hash what, reachable t → (storage.readHash hash t w).1 ≠ .error (.io what)
  scan : ∀ t w, reachable t → ∃ records, (storage.scan t w).1 = .ok records
  clear : ∀ t w, reachable t → (storage.clear t w).1 = .ok ()

/-- The storage of an engine. Its files are assumed to be reliable: a file may fail to be made, but
once it is open it is written, read and cut as asked. -/
def Engine.storage : Storage Engine Table where
  create := Engine.create
  promote t w :=
    let (answer, w) := w.promote t
    (answer, t, w)
  write record t w := replacing (t.write record) t w
  openIndex t w := replacing t.openIndex t w
  readHash hash t w := (t.readHash hash, t, w)
  clear t w := (.ok (), t.clear, w)
  scan t w := (t.scan, t, w)
  ignoreDuplicates := Table.setIgnoresDuplicates true
  spec := Table.spec
  placement := Table.placement
  reaction := Table.reaction
  isIgnorable t e := t.reaction e = .ignorable

@[simp] theorem replacing_ok {ω τ : Type} (next t : τ) (w : ω) :
    replacing (.ok next) t w = (.ok (), next, w) := rfl

@[simp] theorem replacing_error {ω τ : Type} (e : StorageError) (t : τ) (w : ω) :
    replacing (.error e) t w = (.error e, t, w) := rfl

section

variable (t : Table) (w : Engine)

@[simp] theorem storage_create (spec : TableSpec) :
    Engine.storage.create spec w = w.create spec := rfl

@[simp] theorem storage_promote :
    Engine.storage.promote t w = ((w.promote t).1, t, (w.promote t).2) := rfl

@[simp] theorem storage_write (record : Record) :
    Engine.storage.write record t w = replacing (t.write record) t w := rfl

/-- A write is refused and changes nothing, or leaves the table that it answers. -/
theorem storage_write_cases {t t₁ : Table} {w w₁ : Engine} {record : Record}
    {wrote : Except StorageError Unit}
    (h : Engine.storage.write record t w = (wrote, t₁, w₁)) :
    w₁ = w ∧ ((∃ e, t.write record = .error e ∧ wrote = .error e ∧ t₁ = t) ∨
      t.write record = .ok t₁ ∧ wrote = .ok ()) := by
  rw [storage_write] at h
  cases written : t.write record with
  | error e =>
    rw [written] at h
    cases h
    exact ⟨rfl, .inl ⟨e, rfl, rfl, rfl⟩⟩
  | ok next =>
    rw [written] at h
    cases h
    exact ⟨rfl, .inr ⟨rfl, rfl⟩⟩

@[simp] theorem storage_openIndex :
    Engine.storage.openIndex t w = replacing t.openIndex t w := rfl

@[simp] theorem storage_readHash (hash : UInt64) :
    Engine.storage.readHash hash t w = (t.readHash hash, t, w) := rfl

/-- A look-up changes nothing. -/
theorem storage_readHash_leaves {t t₁ : Table} {w w₁ : Engine} {hash : UInt64}
    {answer : Except StorageError (List Record)}
    (h : Engine.storage.readHash hash t w = (answer, t₁, w₁)) : t₁ = t ∧ w₁ = w := by
  cases h
  exact ⟨rfl, rfl⟩

@[simp] theorem storage_clear : Engine.storage.clear t w = (.ok (), t.clear, w) := rfl

@[simp] theorem storage_scan : Engine.storage.scan t w = (t.scan, t, w) := rfl

@[simp] theorem storage_ignoreDuplicates :
    Engine.storage.ignoreDuplicates t = t.setIgnoresDuplicates true := rfl

@[simp] theorem storage_spec : Engine.storage.spec t = t.spec := rfl

@[simp] theorem storage_reaction (e : StorageError) :
    Engine.storage.reaction t e = t.reaction e := rfl

@[simp] theorem storage_isIgnorable (e : StorageError) :
    Engine.storage.isIgnorable t e = decide (t.reaction e = .ignorable) := rfl

end

end ResultSink
