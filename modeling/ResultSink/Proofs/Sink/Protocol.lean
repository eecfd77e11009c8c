import ResultSink.Proofs.Sink.Course
import ResultSink.Proofs.Sink.Outcomes
import ResultSink.Storage.Faults

/-! The protocol between a sink and its storage. Whatever the storage answers, and be every table
of it full for ever, an insertion writes at most twice and moves its table at most once. Where
payloads are looked up, nothing is written unless the look-up answers that the payload is new; else
the answer follows from the last write. -/

namespace ResultSink

variable {ω τ : Type}

/-- Among the calls, the table was moved, and the index of the copy was opened if it has one. -/
def Storage.Moved (storage : Storage ω τ) (calls : List (Call τ)) : Prop :=
  ∃ copy, .ok copy ∈ Call.promotions calls ∧
    ((storage.spec copy.table).key.hasHash = true → (copy.number, .ok ()) ∈ Call.openings calls)

/-- The table of a failed write calls the error ignorable. A first write has its error classified;
of a repeated one it is asked outright. -/
def Storage.Ignores (storage : Storage ω τ) (call : WriteCall τ) (e : StorageError) : Prop :=
  if call.number = 0 then storage.reaction call.after e = .ignorable
  else storage.isIgnorable call.after e = true

/-- One of some records has a payload, and those before it are long enough for a hash. -/
def Record.Among (payload : Record) (records : List Record) : Prop :=
  ∃ front hash back, (∀ record ∈ front, hashWidth ≤ record.size) ∧
    records = front ++ Record.appendHash payload hash :: back

/-- None of some records has a payload, and all are long enough for a hash. -/
def Record.Missing (payload : Record) (records : List Record) : Prop :=
  ∀ record ∈ records, hashWidth ≤ record.size ∧ ∀ hash, record ≠ Record.appendHash payload hash

/-- Among the calls, a payload was looked up by its hash. -/
def Call.Looks (payload : Record) (calls : List (Call τ)) : Prop :=
  ∃ read, .readHash 0 (Record.hash payload) read ∈ calls

/-- Every look-up of a payload among the calls answered that it is new. -/
def Call.Misses (payload : Record) (calls : List (Call τ)) : Prop :=
  ∀ read, .readHash 0 (Record.hash payload) read ∈ calls →
    ∃ records, read = .ok records ∧ payload.Missing records

/-- Among the calls, a payload was found by its hash. -/
def Call.Finds (payload : Record) (calls : List (Call τ)) : Prop :=
  ∃ records, .readHash 0 (Record.hash payload) (.ok records) ∈ calls ∧ payload.Among records

namespace Plan

section

variable {payload record : Record} {records : List Record}

theorem isAmong_of_short (short : record.size < hashWidth) :
    isAmong payload (record :: records) =
      .error (.corrupted s!"record of {record.size} bytes has no hash column") := by
  have split : Record.splitHash record =
      .error (.corrupted s!"record of {record.size} bytes has no hash column") := if_pos short
  rw [isAmong, split]

theorem isAmong_eq_true_iff : isAmong payload records = .ok true ↔ payload.Among records := by
  unfold Record.Among
  induction records with
  | nil => simp [isAmong]
  | cons record records ih =>
    by_cases wide : hashWidth ≤ record.size
    · obtain ⟨found, h, rfl⟩ := Record.exists_appendHash wide
      rw [isAmong_appendHash]
      by_cases same : found = payload
      · rw [if_pos same, same]
        exact ⟨fun _ => ⟨[], h, records, by simp, rfl⟩, fun _ => rfl⟩
      · rw [if_neg same, ih]
        constructor
        · rintro ⟨front, hash, back, long, rfl⟩
          exact ⟨_ :: front, hash, back, List.forall_mem_cons.2 ⟨wide, long⟩, rfl⟩
        · rintro ⟨front, hash, back, long, split⟩
          cases front with
          | nil => exact absurd (Record.appendHash_inj.1 (List.cons.inj split).1).1 same
          | cons other front =>
            exact ⟨front, hash, back, (List.forall_mem_cons.1 long).2, (List.cons.inj split).2⟩
    · -- A record without a hash ends the search, so that none behind it counts.
      rw [isAmong_of_short (Nat.lt_of_not_le wide)]
      constructor
      · intro told
        cases told
      · rintro ⟨front, hash, back, long, split⟩
        cases front with
        | nil =>
          obtain rfl := (List.cons.inj split).1
          exact absurd (by simp) wide
        | cons other front =>
          obtain rfl := (List.cons.inj split).1
          exact absurd (long record List.mem_cons_self) wide

theorem isAmong_eq_false_iff : isAmong payload records = .ok false ↔ payload.Missing records := by
  induction records with
  | nil => exact iff_of_true rfl fun _ there => nomatch there
  | cons record records ih =>
    rw [Record.Missing, List.forall_mem_cons]
    by_cases wide : hashWidth ≤ record.size
    · obtain ⟨found, h, rfl⟩ := Record.exists_appendHash wide
      rw [isAmong_appendHash]
      by_cases same : found = payload
      · rw [if_pos same, same]
        exact iff_of_false (fun told => nomatch told) fun missing => missing.1.2 h rfl
      · rw [if_neg same, ih]
        have other (hash : UInt64) : found.appendHash h ≠ payload.appendHash hash :=
          fun eq => same (Record.appendHash_inj.1 eq).1
        exact ⟨fun missing => ⟨⟨wide, other⟩, missing⟩, fun missing => missing.2⟩
    · rw [isAmong_of_short (Nat.lt_of_not_le wide)]
      exact iff_of_false (fun told => nomatch told) fun missing => wide missing.1.1

/-- What is new by every look-up is found by none. -/
theorem not_finds_of_misses {calls : List (Call τ)} (misses : Call.Misses payload calls) :
    ¬Call.Finds payload calls := by
  rintro ⟨records, there, among⟩
  obtain ⟨_, ⟨⟩, missing⟩ := misses _ there
  have found := isAmong_eq_true_iff.2 among
  rw [isAmong_eq_false_iff.2 missing] at found
  cases found

end

section

variable {plan : Plan} {ignored : StorageError → Bool} {wrote : Except StorageError Unit}

theorem verdict_eq_inserted : plan.verdict ignored wrote = .ok .inserted ↔ wrote = .ok () := by
  cases wrote with
  | ok => simp [verdict]
  | error e => cases h : ignored e <;> simp [verdict, h]

theorem verdict_eq_rejected :
    plan.verdict ignored wrote = .ok .duplicateRejected ↔
      ∃ e, wrote = .error e ∧ ignored e = true := by
  cases wrote with
  | ok => simp [verdict]
  | error e => cases h : ignored e <;> simp [verdict, h]

theorem verdict_eq_error {e : SinkError} (h : plan.verdict ignored wrote = .error e) :
    ∃ cause, e = plan.fatal cause := by
  cases wrote with
  | ok => cases h
  | error cause =>
    refine ⟨cause, ?_⟩
    cases hi : ignored cause with
    | true => simp [verdict, hi] at h
    | false => simpa [verdict, hi] using h.symm

end

/-- What holds of the calls of an insertion, of its answer and of the number of the table it leaves.
The table it began with has number 0. -/
structure Protocol (storage : Storage ω τ) (plan : Plan) (eliminating : Bool) (payload : Record)
    (calls : List (Call τ)) (answer : Except SinkError InsertOutcome) (number : Nat) : Prop where
  looks_iff : Call.Looks payload calls ↔ plan.strategy = .hashKey ∧ eliminating
  writes_iff : Call.writes calls ≠ [] ↔ Call.Misses payload calls
  found : Call.Finds payload calls → Call.writes calls = []
  writes_le : (Call.writes calls).length ≤ 2
  promotions_le : (Call.promotions calls).length ≤ 1
  record : ∀ call ∈ Call.writes calls, call.record = plan.recordOf payload
  promotes_iff : Call.promotions calls ≠ [] ↔ ∃ first ∈ (Call.writes calls).head?, ∃ full,
    first.answer = .error full ∧ storage.reaction first.after full = .capacityExceeded
  replaced_iff : number ≠ 0 ↔ storage.Moved calls
  again_iff : (Call.writes calls).length = 2 ↔ storage.Moved calls
  first_number : ∀ first ∈ (Call.writes calls).head?, first.number = 0
  last_number : ∀ last ∈ (Call.writes calls).getLast?, last.number = number
  inserted_iff : answer = .ok .inserted ↔
    ∃ last ∈ (Call.writes calls).getLast?, last.answer = .ok ()
  rejected_iff : answer = .ok .duplicateRejected ↔
    Call.Finds payload calls ∨
      ∃ last ∈ (Call.writes calls).getLast?, ∃ e, last.answer = .error e ∧ storage.Ignores last e
  fatal : ∀ e, answer = .error e → ∃ cause, e = plan.fatal cause

variable {storage : Storage ω τ} {plan : Plan} {payload : Record} {t : τ} {w w' : ω}
  {t' : Numbered τ} {calls : List (Call τ)}

/-- A table that is moved is promoted once, and nothing is written on the way. -/
theorem Promotes.calls_eq {answer : Except StorageError Unit}
    (h : Promotes storage t w answer t' w' calls) :
    Call.writes calls = [] ∧ (∃ promotion, Call.promotions calls = [promotion]) ∧
      (t'.number ≠ 0 ↔ answer = .ok ()) ∧ (storage.Moved calls ↔ answer = .ok ()) := by
  cases h with
  | failed => simp [Storage.Moved, List.filterMap_cons]
  | closed _ hk => simp [Storage.Moved, List.filterMap_cons, hk]
  | opened => simp [Storage.Moved, List.filterMap_cons]
  | plain _ hk => simp [Storage.Moved, List.filterMap_cons, hk]

/-- Nothing is looked up by a hash once a record is being stored. -/
theorem Course.readHash_notMem {record : Record} {answer : Except SinkError InsertOutcome}
    (h : Course storage plan record t w answer t' w' calls) (number : Nat) (hash : UInt64)
    (read : Except StorageError (List Record)) : .readHash number hash read ∉ calls := by
  cases h with
  | settled => simp
  | unmoved _ _ promotes => cases promotes <;> simp
  | moved _ _ promotes => cases promotes <;> simp

section

variable {front : List (Call τ)}
  (missed : ∀ call ∈ front, ∃ records,
    call = .readHash 0 (Record.hash payload) (.ok records) ∧ payload.Missing records)

include missed

theorem filterMap_missed {α : Type} {select : Call τ → Option α}
    (none : ∀ records, select (.readHash 0 (Record.hash payload) (.ok records)) = none) :
    front.filterMap select = [] := by
  rw [List.filterMap_eq_nil_iff]
  intro call there
  obtain ⟨records, rfl, -⟩ := missed call there
  exact none records

variable (unread : ∀ read, .readHash 0 (Record.hash payload) read ∉ calls)

include unread

theorem looks_append_iff : Call.Looks payload (front ++ calls) ↔ front ≠ [] := by
  constructor
  · rintro ⟨read, there⟩
    exact List.ne_nil_of_mem ((List.mem_append.1 there).resolve_right (unread read))
  · intro some
    obtain ⟨call, there⟩ := List.exists_mem_of_ne_nil front some
    obtain ⟨records, rfl, -⟩ := missed call there
    exact ⟨_, List.mem_append_left calls there⟩

theorem misses_append : Call.Misses payload (front ++ calls) := by
  intro read there
  obtain ⟨records, ⟨⟩, missing⟩ :=
    missed _ ((List.mem_append.1 there).resolve_right (unread read))
  exact ⟨records, rfl, missing⟩

end

/-- Storing a record keeps to the protocol, behind look-ups that did not find its payload. -/
theorem Course.protocol {eliminating : Bool} {answer : Except SinkError InsertOutcome}
    (h : Course storage plan (plan.recordOf payload) t w answer t' w' calls)
    (front : List (Call τ))
    (missed : ∀ call ∈ front, ∃ records,
      call = .readHash 0 (Record.hash payload) (.ok records) ∧ payload.Missing records)
    (looked : front ≠ [] ↔ plan.strategy = .hashKey ∧ eliminating) :
    Protocol storage plan eliminating payload (front ++ calls) answer t'.number := by
  have unread (read : Except StorageError (List Record)) :
      .readHash 0 (Record.hash payload) read ∉ calls := h.readHash_notMem _ _ read
  have looks := (looks_append_iff missed unread).trans looked
  have misses := misses_append missed unread
  have unfound := not_finds_of_misses misses
  -- What comes before the first write is neither a write nor part of a move.
  have hw : Call.writes front = [] := filterMap_missed missed fun _ => rfl
  have hp : Call.promotions front = [] := filterMap_missed missed fun _ => rfl
  have ho : Call.openings front = [] := filterMap_missed missed fun _ => rfl
  have moved_iff : storage.Moved (front ++ calls) ↔ storage.Moved calls := by
    simp [Storage.Moved, hp, ho]
  cases h with
  | @settled wrote t₁ _ _ enough =>
    have writes : Call.writes (front ++ [.write ⟨0, plan.recordOf payload, wrote, t₁⟩]) =
        [⟨0, plan.recordOf payload, wrote, t₁⟩] := by simp [hw]
    have promotions : Call.promotions (front ++ [.write ⟨0, plan.recordOf payload, wrote, t₁⟩]) =
        [] := by simp [hp, List.filterMap_cons]
    have unmoved : ¬storage.Moved (front ++ [.write ⟨0, plan.recordOf payload, wrote, t₁⟩]) := by
      rw [moved_iff]
      simp [Storage.Moved]
    exact {
      looks_iff := looks
      writes_iff := iff_of_true (by rw [writes]; simp) misses
      found := fun finds => absurd finds unfound
      writes_le := by rw [writes]; simp
      promotions_le := by rw [promotions]; simp
      record := by rw [writes]; simp
      promotes_iff := by rw [writes, promotions]; simpa using enough
      replaced_iff := iff_of_false (fun other => other rfl) unmoved
      again_iff := by rw [writes]; exact iff_of_false (by simp) unmoved
      first_number := by rw [writes]; simp
      last_number := by rw [writes]; simp
      inserted_iff := by rw [writes, verdict_eq_inserted]; simp
      rejected_iff := by
        rw [or_iff_right unfound, writes, verdict_eq_rejected]
        simp [Storage.Ignores]
      fatal := fun e failed => verdict_eq_error failed }
  | @unmoved full e t₁ _ w₁ _ moving _ exceeded promotes =>
    obtain ⟨none, ⟨promotion, once⟩, number, moved⟩ := promotes.calls_eq
    let first : WriteCall τ := ⟨0, plan.recordOf payload, .error full, t₁⟩
    have writes : Call.writes (front ++ .write first :: moving) = [first] := by
      simp [hw, none]
    have promotions : Call.promotions (front ++ .write first :: moving) = [promotion] := by
      simp [hp, once, List.filterMap_cons]
    have number : t'.number = 0 := by simpa using number
    have unmoved : ¬storage.Moved (front ++ .write first :: moving) := by
      rw [moved_iff]
      simpa [Storage.Moved] using moved
    exact {
      looks_iff := looks
      writes_iff := iff_of_true (by rw [writes]; simp) misses
      found := fun finds => absurd finds unfound
      writes_le := by rw [writes]; simp
      promotions_le := by rw [promotions]; simp
      record := by rw [writes]; simp [first]
      promotes_iff := by rw [writes, promotions]; simp [first, exceeded]
      replaced_iff := iff_of_false (fun other => other number) unmoved
      again_iff := by rw [writes]; exact iff_of_false (by simp) unmoved
      first_number := by rw [writes]; simp [first]
      last_number := by rw [writes]; simp [first, number]
      inserted_iff := by rw [writes]; simp [first]
      rejected_iff := by
        rw [or_iff_right unfound, writes]
        simp [first, Storage.Ignores, exceeded]
      fatal := fun _ failed => ⟨e, (Except.error.inj failed).symm⟩ }
  | @moved full wrote t₁ t₃ t₂ _ _ _ moving _ exceeded promotes _ =>
    obtain ⟨none, ⟨promotion, once⟩, number, moved⟩ := promotes.calls_eq
    let first : WriteCall τ := ⟨0, plan.recordOf payload, .error full, t₁⟩
    let last : WriteCall τ := ⟨t₂.number, plan.recordOf payload, wrote, t₃⟩
    have writes : Call.writes (front ++ (.write first :: moving ++ [.write last])) =
        [first, last] := by simp [hw, none]
    have promotions : Call.promotions (front ++ (.write first :: moving ++ [.write last])) =
        [promotion] := by simp [hp, once, List.filterMap_cons]
    have number : t₂.number ≠ 0 := by simpa using number
    have moved : storage.Moved (front ++ (.write first :: moving ++ [.write last])) := by
      rw [moved_iff]
      simpa [Storage.Moved, List.filterMap_cons] using moved
    exact {
      looks_iff := looks
      writes_iff := iff_of_true (by rw [writes]; simp) misses
      found := fun finds => absurd finds unfound
      writes_le := by rw [writes]; simp
      promotions_le := by rw [promotions]; simp
      record := by rw [writes]; simp [first, last]
      promotes_iff := by rw [writes, promotions]; simp [first, exceeded]
      replaced_iff := iff_of_true number moved
      again_iff := by rw [writes]; exact iff_of_true rfl moved
      first_number := by rw [writes]; simp [first]
      last_number := by rw [writes]; simp [last]
      inserted_iff := by rw [writes, verdict_eq_inserted]; simp [last]
      rejected_iff := by
        rw [or_iff_right unfound, writes, verdict_eq_rejected]
        simp [last, Storage.Ignores, number]
      fatal := fun e failed => verdict_eq_error failed }

theorem finds_read_iff {records : List Record} :
    Call.Finds payload [(.readHash 0 (Record.hash payload) (.ok records) : Call τ)] ↔
      isAmong payload records = .ok true := by
  rw [isAmong_eq_true_iff]
  simp [Call.Finds]

/-- A look-up that does not answer that the payload is new keeps to the protocol, with nothing
written. -/
theorem protocol_of_lookup {eliminating : Bool} {read : Except StorageError (List Record)}
    {answer : Except SinkError InsertOutcome} (looked : plan.strategy = .hashKey ∧ eliminating)
    (known : ∀ records, read = .ok records → isAmong payload records ≠ .ok false)
    (taken : answer ≠ .ok .inserted)
    (told : answer = .ok .duplicateRejected ↔
      Call.Finds payload [(.readHash 0 (Record.hash payload) read : Call τ)])
    (fatal : ∀ e, answer = .error e → ∃ cause, e = plan.fatal cause) :
    Protocol storage plan eliminating payload [.readHash 0 (Record.hash payload) read]
      answer 0 where
  looks_iff := iff_of_true ⟨read, List.mem_singleton_self _⟩ looked
  writes_iff := by
    refine iff_of_false (fun some => some rfl) fun misses => ?_
    obtain ⟨records, ok, missing⟩ := misses read (List.mem_singleton_self _)
    exact known records ok (isAmong_eq_false_iff.2 missing)
  found _ := rfl
  writes_le := by simp [List.filterMap_cons]
  promotions_le := by simp [List.filterMap_cons]
  record := by simp [List.filterMap_cons]
  promotes_iff := by simp [List.filterMap_cons]
  replaced_iff := by simp [List.filterMap_cons, Storage.Moved]
  again_iff := by simp [List.filterMap_cons, Storage.Moved]
  first_number := by simp [List.filterMap_cons]
  last_number := by simp [List.filterMap_cons]
  inserted_iff := by simp [List.filterMap_cons, taken]
  rejected_iff := by simp [List.filterMap_cons, told]
  fatal := fatal

theorem Insertion.protocol {eliminating : Bool} {answer : Except SinkError InsertOutcome}
    (h : Insertion storage plan eliminating payload t w answer t' w' calls) :
    Protocol storage plan eliminating payload calls answer t'.number := by
  cases h with
  | @unread e _ _ looked =>
    refine protocol_of_lookup looked (fun _ ok => nomatch ok) (fun other => nomatch other) ?_ ?_
    · simp [Call.Finds]
    · intro _ failed
      exact ⟨e, (Except.error.inj failed).symm⟩
  | @unsplit e records _ _ looked _ among =>
    refine protocol_of_lookup looked ?_ (fun other => nomatch other) ?_ ?_
    · rintro _ ⟨⟩
      simp [among]
    · rw [finds_read_iff, among]
      simp
    · intro _ failed
      exact ⟨e, (Except.error.inj failed).symm⟩
  | found looked _ among =>
    refine protocol_of_lookup looked ?_ (fun other => nomatch other) ?_
      (fun _ failed => nomatch failed)
    · rintro _ ⟨⟩
      simp [among]
    · rw [finds_read_iff, among]
      simp
  | @new records _ _ _ _ _ calls looked _ among course =>
    refine course.protocol [.readHash 0 (Record.hash payload) (.ok records)] ?_
      (iff_of_true (List.cons_ne_nil _ _) looked)
    intro call there
    exact ⟨records, List.mem_singleton.1 there, isAmong_eq_false_iff.1 among⟩
  | unasked unlooked course =>
    exact course.protocol [] (fun _ there => nomatch there)
      (iff_of_false (fun some => some rfl) unlooked)

end Plan

namespace Sink

end Sink

end ResultSink
