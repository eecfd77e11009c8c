import ResultSink.Storage.Interface

/-! A storage that is watched. It answers as the storage under it does, and its world keeps the
calls made on it, in order and with their answers. Every table goes by the number of the call that
made it, so that a table which takes the place of another is told from it. -/

namespace ResultSink

/-- A table and its number. -/
structure Numbered (τ : Type) where
  number : Nat
  table : τ

/-- A write, the number of the table it was made on and that table after it, which judges the error
of the write. -/
structure WriteCall (τ : Type) where
  number : Nat
  record : Record
  answer : Except StorageError Unit
  after : τ

/-- A call that was made on a storage, with its answer. -/
inductive Call (τ : Type) where
  | create (spec : TableSpec) (answer : Except (Failure StorageError) (Numbered τ))
  | promote (source : Nat) (answer : Except StorageError (Numbered τ))
  | write (call : WriteCall τ)
  | openIndex (number : Nat) (answer : Except StorageError Unit)
  | readHash (number : Nat) (hash : UInt64) (answer : Except StorageError (List Record))
  | clear (number : Nat) (answer : Except StorageError Unit)
  | scan (number : Nat) (answer : Except StorageError (List Record))

namespace Call

variable {τ : Type}

@[simp] def write? : Call τ → Option (WriteCall τ)
  | write call => some call
  | _ => none

@[simp] def promotion? : Call τ → Option (Except StorageError (Numbered τ))
  | promote _ answer => some answer
  | _ => none

@[simp] def opening? : Call τ → Option (Nat × Except StorageError Unit)
  | openIndex number answer => some (number, answer)
  | _ => none

/-! The writes, the promotions and the openings of an index among calls, in order. -/

abbrev writes (calls : List (Call τ)) : List (WriteCall τ) := calls.filterMap write?

abbrev promotions (calls : List (Call τ)) : List (Except StorageError (Numbered τ)) :=
  calls.filterMap promotion?

abbrev openings (calls : List (Call τ)) : List (Nat × Except StorageError Unit) :=
  calls.filterMap opening?

end Call

/-- A world with the number of the next table and the calls made so far. -/
structure Watched (ω τ : Type) where
  world : ω
  next : Nat
  calls : List (Call τ) := []

variable {ω τ α : Type}

namespace Watched

/-- The watch begins with one table, which has number 0. -/
def start (world : ω) : Watched ω τ := { world, next := 1 }

def note (o : Watched ω τ) (world : ω) (call : Call τ) : Watched ω τ :=
  { o with world, calls := o.calls ++ [call] }

/-- A call on a table, with what is noted of it given the table's number, the answer and the table
after it. -/
def watch (call : TableCall ω τ α) (noted : Nat → Except StorageError α → τ → Call τ) :
    TableCall (Watched ω τ) (Numbered τ) α := fun t o =>
  let (answer, table, world) := call t.table o.world
  (answer, { t with table }, o.note world (noted t.number answer table))

/-- The table that an answer gives, under the next number. -/
def number {ε : Type} (o : Watched ω τ) (answer : Except ε τ) : Except ε (Numbered τ) :=
  answer.map fun table => { number := o.next, table }

@[simp] theorem number_ok {ε : Type} (o : Watched ω τ) (t : τ) :
    o.number (.ok t : Except ε τ) = .ok ⟨o.next, t⟩ := rfl

@[simp] theorem number_error {ε : Type} (o : Watched ω τ) (e : ε) :
    o.number (.error e) = .error e := rfl

end Watched

open Watched in
def Storage.watched (storage : Storage ω τ) : Storage (Watched ω τ) (Numbered τ) where
  create spec o :=
    let (answer, world) := storage.create spec o.world
    (o.number answer,
      { o.note world (.create spec (o.number answer)) with next := o.next + 1 })
  promote t o :=
    let (answer, table, world) := storage.promote t.table o.world
    (o.number answer, { t with table },
      { o.note world (.promote t.number (o.number answer)) with next := o.next + 1 })
  write record := watch (storage.write record) fun number answer after =>
    .write { number, record, answer, after }
  openIndex := watch storage.openIndex fun number answer _ => .openIndex number answer
  readHash hash := watch (storage.readHash hash) fun number answer _ => .readHash number hash answer
  clear := watch storage.clear fun number answer _ => .clear number answer
  scan := watch storage.scan fun number answer _ => .scan number answer
  ignoreDuplicates t := { t with table := storage.ignoreDuplicates t.table }
  spec t := storage.spec t.table
  placement t := storage.placement t.table
  reaction t := storage.reaction t.table
  isIgnorable t := storage.isIgnorable t.table

section

variable (storage : Storage ω τ) (t : Numbered τ) (o : Watched ω τ)

theorem watched_create {spec : TableSpec} {answer : Except (Failure StorageError) τ} {w₁ : ω}
    (h : storage.create spec o.world = (answer, w₁)) :
    storage.watched.create spec o = (o.number answer,
      ⟨w₁, o.next + 1, o.calls ++ [.create spec (o.number answer)]⟩) := by
  simp [Storage.watched, Watched.note, h]

theorem watched_promote {answer : Except StorageError τ} {t₁ : τ} {w₁ : ω}
    (h : storage.promote t.table o.world = (answer, t₁, w₁)) :
    storage.watched.promote t o = (o.number answer, ⟨t.number, t₁⟩,
      ⟨w₁, o.next + 1, o.calls ++ [.promote t.number (o.number answer)]⟩) := by
  simp [Storage.watched, Watched.note, h]

theorem watched_write {record : Record} {answer : Except StorageError Unit} {t₁ : τ} {w₁ : ω}
    (h : storage.write record t.table o.world = (answer, t₁, w₁)) :
    storage.watched.write record t o = (answer, ⟨t.number, t₁⟩,
      ⟨w₁, o.next, o.calls ++ [.write ⟨t.number, record, answer, t₁⟩]⟩) := by
  simp [Storage.watched, Watched.watch, Watched.note, h]

theorem watched_openIndex {answer : Except StorageError Unit} {t₁ : τ} {w₁ : ω}
    (h : storage.openIndex t.table o.world = (answer, t₁, w₁)) :
    storage.watched.openIndex t o = (answer, ⟨t.number, t₁⟩,
      ⟨w₁, o.next, o.calls ++ [.openIndex t.number answer]⟩) := by
  simp [Storage.watched, Watched.watch, Watched.note, h]

theorem watched_readHash {hash : UInt64} {answer : Except StorageError (List Record)} {t₁ : τ}
    {w₁ : ω} (h : storage.readHash hash t.table o.world = (answer, t₁, w₁)) :
    storage.watched.readHash hash t o = (answer, ⟨t.number, t₁⟩,
      ⟨w₁, o.next, o.calls ++ [.readHash t.number hash answer]⟩) := by
  simp [Storage.watched, Watched.watch, Watched.note, h]

theorem watched_clear {answer : Except StorageError Unit} {t₁ : τ} {w₁ : ω}
    (h : storage.clear t.table o.world = (answer, t₁, w₁)) :
    storage.watched.clear t o = (answer, ⟨t.number, t₁⟩,
      ⟨w₁, o.next, o.calls ++ [.clear t.number answer]⟩) := by
  simp [Storage.watched, Watched.watch, Watched.note, h]

theorem watched_scan {answer : Except StorageError (List Record)} {t₁ : τ} {w₁ : ω}
    (h : storage.scan t.table o.world = (answer, t₁, w₁)) :
    storage.watched.scan t o = (answer, ⟨t.number, t₁⟩,
      ⟨w₁, o.next, o.calls ++ [.scan t.number answer]⟩) := by
  simp [Storage.watched, Watched.watch, Watched.note, h]

end

end ResultSink
