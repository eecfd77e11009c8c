import ResultSink.Proofs.Sink.BitFields
import ResultSink.Proofs.Sink.Places

/-! Two sinks, one of which stores bit fields as 64-bit integers. Their tables are of one width, in
one place and under one strategy, and their records correspond to each other, so they answer alike,
row by row, as long as every bit field stays below the top bit of an integer. -/

namespace ResultSink

namespace Sink

/-! ### Rows handed to a sink -/

section

variable {ω τ : Type} (storage : Storage ω τ)

/-- What a sink answers to rows that it is handed one after the other. -/
def answers (rows : List Row) (s : Sink τ) (w : ω) : List (Except (Failure SinkError) Reply) :=
  (trace storage (rows.map .insert) s w).map Prod.fst

/-- The sink and the storage's world after rows. -/
def hand (rows : List Row) (s : Sink τ) (w : ω) : Sink τ × ω :=
  run storage (rows.map .insert) s w

/-- A new sink that was asked for a table in an expression of a shape. -/
def made (shape : Shape) (request : TableRequest) (w : ω) : Sink τ × ω :=
  run storage [.prepare shape, .create request] {} w

theorem answers_append (front back : List Row) (s : Sink τ) (w : ω) :
    answers storage (front ++ back) s w = answers storage front s w ++
      answers storage back (hand storage front s w).1 (hand storage front s w).2 := by
  induction front generalizing s w with
  | nil => rfl
  | cons row front ih => exact congrArg (_ :: ·) (ih _ _)

end

theorem keeps_made (shape : Shape) (request : TableRequest) (w : Engine) :
    (made Engine.storage shape request w).1.Keeps (made Engine.storage shape request w).2 [] := by
  have nothing : ledger Engine.storage [.prepare shape, .create request] {} w [] = [] := by
    simp only [ledger, noted]
    split <;> rfl
  have kept := (Keeps.init w).run [.prepare shape, .create request]
  rwa [nothing] at kept

/-! ### Two sinks -/

/-- Two sinks with tables for one request, which differ in how bit fields are stored: their tables
are in the same place, and they took the same rows. -/
structure Paired (request : TableRequest) (shape : Shape) (s : Sink Table) (w : Engine)
    (s' : Sink Table) (w' : Engine) (rows : List Row) : Prop where
  frame : w.Frame w'
  kept : s.Keeps w rows
  conforming : s.Conforming rows
  kept' : s'.Keeps w' (rows.map Row.asLong)
  eliminating : s'.eliminating = s.eliminating
  tables : ∃ t t', s.table = some ⟨request.plan false shape, some t⟩ ∧
    s'.table = some ⟨request.plan true shape, some t'⟩ ∧
    t'.placement = t.placement

theorem eliminating_settled {τ : Type} (s : Sink τ) (plan : Plan) (t : τ)
    (answer : Except SinkError InsertOutcome) :
    (s.settled plan t answer).eliminating = s.eliminating := by
  rcases answer with e | _ | _ <;> rfl

namespace Paired

variable {request : TableRequest} {shape : Shape} {s s' : Sink Table} {w w' : Engine}
  {rows : List Row} {row values : Row}

/-- A row that one sink has stored the other has stored too. -/
theorem mem_records_iff (h : Paired request shape s w s' w' rows)
    (conforms : (request.plan false shape).Conforms values.canonical) :
    (request.plan true shape).rowRecord values.asLong ∈
        (rows.map Row.asLong).map (request.plan true shape).rowRecord ↔
      (request.plan false shape).rowRecord values ∈
        rows.map (request.plan false shape).rowRecord := by
  obtain ⟨t, -, ht, -⟩ := h.tables
  rw [h.kept'.mem_records_iff, h.kept.mem_records_iff, Row.canonical_asLong]
  constructor
  · intro there
    obtain ⟨held, hr, same⟩ := List.mem_map.1 there
    rwa [← Row.asLong_inj (h.conforming _ _ ht held hr) conforms same]
  · exact List.mem_map_of_mem

/-- What becomes of a row that both sinks project is the same. -/
theorem inserts (h : Paired request shape s w s' w' rows) {t t' : Table}
    (ht : s.table = some ⟨request.plan false shape, some t⟩)
    (ht' : s'.table = some ⟨request.plan true shape, some t'⟩)
    (place : t'.placement = t.placement)
    (conforms : (request.plan false shape).Conforms values.canonical) {outcome : InsertOutcome}
    {held held' : List Record} {answer : Except StorageError InsertOutcome}
    (inserts : (request.plan false shape).Inserts w s.eliminating t
      (rows.map (request.plan false shape).rowRecord) values.encode (.ok outcome) held)
    (inserts' : (request.plan true shape).Inserts w' s'.eliminating t'
      ((rows.map Row.asLong).map (request.plan true shape).rowRecord) values.asLong.encode answer
      held') : answer = .ok outcome := by
  have strategy : (request.plan true shape).strategy = (request.plan false shape).strategy := by
    rw [Plan.strategy_storing, Plan.strategy_storing]
  have there := h.mem_records_iff conforms
  have size := Plan.size_rowRecord_asLong request shape values
  cases answer with
  | error e =>
    have missed' : ¬(((request.plan true shape).strategy = .hashKey ∧ s'.eliminating) ∧
        (request.plan true shape).recordOf values.asLong.encode ∈
          (rows.map Row.asLong).map (request.plan true shape).rowRecord) := by
      intro found
      cases (inserts'.of_found found.1 found.2).1
    have missed := missed'
    rw [strategy, h.eliminating] at missed
    obtain ⟨e, failed⟩ := (inserts.error_iff fun found => missed ⟨found.1, there.2 found.2⟩).2
      ((Engine.cannotStore_congr h.frame place (Plan.sizes_asLong request shape rows) size).1
        ((inserts'.error_iff missed').1 ⟨e, rfl⟩))
    cases failed
  | ok outcome' =>
    have told := inserts.rejected_iff (h.kept.serves _ t ht).key
    have told' := inserts'.rejected_iff (h.kept'.serves _ t' ht').key
    have same : outcome' = .duplicateRejected ↔ outcome = .duplicateRejected := by
      rw [told, told', strategy, h.eliminating]
      exact and_congr there Iff.rfl
    cases outcome <;> cases outcome' <;> simp_all

/-- Where a row is stored by the first sink, its table is left in the same place as that of the
second. -/
theorem places (h : Paired request shape s w s' w' rows) {t t' next next' : Table}
    {world world' : Engine} (ht : s.table = some ⟨request.plan false shape, some t⟩)
    (ht' : s'.table = some ⟨request.plan true shape, some t'⟩)
    (place : t'.placement = t.placement)
    (conforms : (request.plan false shape).Conforms values.canonical) {outcome : InsertOutcome}
    (small : ((request.plan false shape).rowRecord values).size ≤ maxRecordSize)
    (inserted : (request.plan false shape).insert Engine.storage s.eliminating values.encode t w =
      (.ok outcome, next, world))
    (inserted' : (request.plan true shape).insert Engine.storage s'.eliminating
      values.asLong.encode t' w' = (.ok outcome, next', world')) :
    next'.placement = next.placement := by
  have size := Plan.size_rowRecord_asLong request shape values
  obtain ⟨stays, moves⟩ := (h.kept.serves _ t ht).insert_place small inserted
  obtain ⟨stays', moves'⟩ := (h.kept'.serves _ t' ht').insert_place (size ▸ small) inserted'
  have strategy : (request.plan true shape).strategy = (request.plan false shape).strategy := by
    rw [Plan.strategy_storing, Plan.strategy_storing]
  have there := h.mem_records_iff conforms
  have room : w'.config.Full t'.placement
        ((rows.map Row.asLong).map (request.plan true shape).rowRecord)
        ((request.plan true shape).rowRecord values.asLong).size ↔
      w.config.Full t.placement (rows.map (request.plan false shape).rowRecord)
        ((request.plan false shape).rowRecord values).size := by
    rw [h.frame.config, place, size]
    exact Config.full_congr (Plan.sizes_asLong request shape rows)
  have looked : (request.plan true shape).strategy = .hashKey ∧ s'.eliminating = true ↔
      (request.plan false shape).strategy = .hashKey ∧ s.eliminating = true := by
    rw [strategy, h.eliminating]
  have same := or_congr (and_congr looked there) (not_congr room)
  rcases Classical.em _ with stay | move
  · rw [stays stay, stays' (same.2 stay), place]
  · rw [moves move, moves' fun stay => move (same.1 stay)]

/-- A row that the first sink takes, and whose bit fields fit, the second takes with the same
outcome. -/
theorem insert (h : Paired request shape s w s' w' rows) (fits : request.BitsFit row)
    {reply : Reply} (taken : (step Engine.storage (.insert row) s w).1 = .ok reply) :
    (step Engine.storage (.insert row) s' w').1 = .ok reply ∧
      ∃ rows, Paired request shape
        (step Engine.storage (.insert row) s w).2.1 (step Engine.storage (.insert row) s w).2.2
        (step Engine.storage (.insert row) s' w').2.1 (step Engine.storage (.insert row) s' w').2.2
        rows := by
  obtain ⟨t, t', ht, ht', place⟩ := h.tables
  rcases insert_cases s row w with ⟨e, turned⟩ | ⟨plan, table, values, there, hv⟩
  · rw [step, turned] at taken
    cases taken
  cases ht.symm.trans there
  have hv' := Plan.projectValues_asLong hv fits
  have conforms := Plan.conforms_projectValues hv
  have projected : (request.plan false shape).project row = .ok values.encode := by
    rw [Plan.project, hv]
    rfl
  have projected' : (request.plan true shape).project row = .ok values.asLong.encode := by
    rw [Plan.project, hv']
    rfl
  obtain ⟨answer, next, world, held, inserted, frame, -, inserts⟩ :=
    (h.kept.serves _ t ht).insert s.eliminating values.encode
  obtain ⟨answer', next', world', held', inserted', frame', -, inserts'⟩ :=
    (h.kept'.serves _ t' ht').insert s'.eliminating values.asLong.encode
  have stepped := insert_eq Engine.storage ht projected w inserted
  have stepped' := insert_eq Engine.storage ht' projected' w' inserted'
  cases answer with
  | error e =>
    rw [step, stepped] at taken
    cases taken
  | ok outcome =>
    obtain rfl := h.inserts ht ht' place conforms inserts inserts'
    have small := inserts.size_le fun record => (h.kept.serves _ t ht).holds.sizes
    have after : step Engine.storage (.insert row) s w = (.ok (.outcome outcome),
        s.settled (request.plan false shape) next (.ok outcome), world) := by
      rw [step, stepped]
      rfl
    have after' : step Engine.storage (.insert row) s' w' = (.ok (.outcome outcome),
        s'.settled (request.plan true shape) next' (.ok outcome), world') := by
      rw [step, stepped']
      rfl
    have kept := h.kept.step (.insert row)
    have conforming := h.kept.step_conforming h.conforming (.insert row)
    have kept' := h.kept'.step (.insert row)
    rw [after] at kept conforming taken
    rw [after'] at kept'
    dsimp only at kept conforming kept' taken
    have ledgers : s'.noted (.insert row) (.ok (.outcome outcome)) (rows.map Row.asLong) =
        (s.noted (.insert row) (.ok (.outcome outcome)) rows).map Row.asLong := by
      cases outcome with
      | duplicateRejected => rfl
      | inserted =>
        simp [noted, projection?_eq ht hv, projection?_eq ht' hv', Row.canonical_asLong]
    rw [ledgers] at kept'
    rw [after, after']
    refine ⟨taken, _, h.frame.keep frame frame', kept, conforming, kept', ?_, next, next', ?_, ?_,
      ?_⟩
    · rw [eliminating_settled, eliminating_settled, h.eliminating]
    · exact table_settled s _ next _
    · exact table_settled s' _ next' _
    · exact h.places ht ht' place conforms small inserted inserted'

/-- A row that the first sink takes, and whose bit fields do not all fit, the second refuses. -/
theorem refuses (h : Paired request shape s w s' w' rows) (unfit : ¬request.BitsFit row)
    {reply : Reply} (taken : (step Engine.storage (.insert row) s w).1 = .ok reply) :
    ∃ (c : Column) (b : UInt64), (c, .bit b) ∈ request.visible row ∧ c.dataType.isBit = true ∧
      2 ^ 63 ≤ b.toNat ∧ (s'.insert Engine.storage row w').1 = .error (.refused
        (.projection c.name (CastError.unconvertible (.bit b) "bigint").message)) := by
  obtain ⟨t, t', ht, ht', -⟩ := h.tables
  rcases insert_cases s row w with ⟨e, turned⟩ | ⟨plan, table, values, there, hv⟩
  · rw [step, turned] at taken
    cases taken
  cases ht.symm.trans there
  obtain ⟨c, b, shown, bits, large, refused⟩ := Plan.project_unfit hv unfit
  refine ⟨c, b, shown, bits, large, ?_⟩
  rw [Sink.insert, ht']
  dsimp only
  rw [refused]

/-- Bit fields of at most 63 bits fit in every row that the first sink takes. -/
theorem bitsFit (h : Paired request shape s w s' w' rows)
    (narrow : ∀ c ∈ request.columns, ∀ width, c.dataType = .bit width → width.toNat ≤ 63)
    {reply : Reply} (taken : (step Engine.storage (.insert row) s w).1 = .ok reply) :
    request.BitsFit row := by
  obtain ⟨t, -, ht, -⟩ := h.tables
  rcases insert_cases s row w with ⟨e, turned⟩ | ⟨plan, table, values, there, hv⟩
  · rw [step, turned] at taken
    cases taken
  cases ht.symm.trans there
  obtain ⟨-, each⟩ := Plan.projectValues_storing_iff.1 hv
  intro c shown
  obtain ⟨i, inside, rfl⟩ := List.mem_iff_getElem.1 shown
  refine (each.get inside (each.length_eq ▸ inside)).bitFits (narrow _ ?_)
  exact (List.of_mem_zip (List.mem_of_mem_filter shown)).1

theorem hand (h : Paired request shape s w s' w' rows) {incoming : List Row}
    (fits : ∀ row ∈ incoming, request.BitsFit row)
    (taken : ∀ answer ∈ answers Engine.storage incoming s w, ∃ reply, answer = .ok reply) :
    answers Engine.storage incoming s' w' = answers Engine.storage incoming s w ∧
      ∃ rows, Paired request shape
        (hand Engine.storage incoming s w).1 (hand Engine.storage incoming s w).2
        (hand Engine.storage incoming s' w').1 (hand Engine.storage incoming s' w').2 rows := by
  induction incoming generalizing s w s' w' rows with
  | nil => exact ⟨rfl, rows, h⟩
  | cons row incoming ih =>
    obtain ⟨fit, fits⟩ := List.forall_mem_cons.1 fits
    obtain ⟨⟨reply, first⟩, rest⟩ := List.forall_mem_cons.1 taken
    obtain ⟨same, rows, next⟩ := h.insert fit first
    obtain ⟨answered, last⟩ := ih next fits rest
    have head : (step Engine.storage (.insert row) s' w').1 =
        (step Engine.storage (.insert row) s w).1 := same.trans first.symm
    exact ⟨List.cons_eq_cons.2 ⟨head, answered⟩, last⟩

theorem all_bitsFit (h : Paired request shape s w s' w' rows)
    (narrow : ∀ c ∈ request.columns, ∀ width, c.dataType = .bit width → width.toNat ≤ 63)
    {incoming : List Row}
    (taken : ∀ answer ∈ answers Engine.storage incoming s w, ∃ reply, answer = .ok reply) :
    ∀ row ∈ incoming, request.BitsFit row := by
  induction incoming generalizing s w s' w' rows with
  | nil => exact List.forall_mem_nil _
  | cons row incoming ih =>
    obtain ⟨⟨reply, first⟩, rest⟩ := List.forall_mem_cons.1 taken
    have fit := h.bitsFit narrow first
    obtain ⟨-, rows, next⟩ := h.insert fit first
    exact List.forall_mem_cons.2 ⟨fit, ih next rest⟩

/-- Two new sinks are such a pair, if the first gets a table. -/
theorem start (frame : w.Frame w') {t : Table}
    (there : (made Engine.storage shape (request.storing false) w).1.handle? = some t) :
    Paired request shape
      (made Engine.storage shape (request.storing false) w).1
      (made Engine.storage shape (request.storing false) w).2
      (made Engine.storage shape (request.storing true) w').1
      (made Engine.storage shape (request.storing true) w').2 [] := by
  have spec : (request.plan true shape).tableSpec = (request.plan false shape).tableSpec := by
    rw [Plan.tableSpec_storing, Plan.tableSpec_storing]
  have creates (bitsAsLong : Bool) (w : Engine) :
      made Engine.storage shape (request.storing bitsAsLong) w =
        (Sink.create Engine.storage (request.storing bitsAsLong) { shape } w).2 := rfl
  have allocates {bitsAsLong : Bool} {w last : Engine} {t : Table}
      (allocated : (request.plan bitsAsLong shape).allocate Engine.storage w = (.ok t, last))
      (now : request.instantiate = true) :
      made Engine.storage shape (request.storing bitsAsLong) w =
        (withHandle { shape } (request.plan bitsAsLong shape) t, last) := by
    have instantiate : (Plan.resolve (request.storing bitsAsLong) shape).instantiate = true := now
    rw [creates]
    simp only [Sink.create, if_pos instantiate, allocated]
    rfl
  by_cases now : request.instantiate = true
  · rcases ha : (request.plan false shape).allocate Engine.storage w with ⟨e | found, last⟩
    · have instantiate : (Plan.resolve (request.storing false) shape).instantiate = true := now
      rw [creates] at there
      simp only [Sink.create, if_pos instantiate, ha] at there
      cases there
    · obtain ⟨t', allocated', place⟩ := Plan.allocate_congr frame spec (congrArg Prod.fst ha)
      rcases ha' : (request.plan true shape).allocate Engine.storage w' with ⟨answer, last'⟩
      rw [ha'] at allocated'
      obtain rfl : answer = .ok t' := allocated'
      have kept := keeps_made shape (request.storing false) w
      have kept' := keeps_made shape (request.storing true) w'
      have framed := ((request.plan false shape).allocate_spec w).1
      have framed' := ((request.plan true shape).allocate_spec w').1
      rw [ha] at framed
      rw [ha'] at framed'
      rw [allocates ha now] at kept ⊢
      rw [allocates ha' now] at kept' ⊢
      refine ⟨frame.keep framed framed', kept, ?_, kept', rfl, found, t', rfl, rfl, place⟩
      exact fun _ _ _ => List.forall_mem_nil _
  · have later : ¬(Plan.resolve (request.storing false) shape).instantiate = true := now
    rw [creates] at there
    simp only [Sink.create, if_neg later] at there
    cases there

end Paired

/-- A sink that takes some rows with its bit fields as they are takes the same rows with bit fields
as 64-bit integers, with the same outcomes and the same count, if every bit field fits in such an
integer; bit fields of at most 63 bits always do. The first row with a greater one is refused, since
that value is not a 64-bit integer. -/
theorem bitsAsLong_alike (engine engine' : Engine) (frame : engine.Frame engine') (shape : Shape)
    (request : TableRequest) (rows : List Row) :
    let bits := made Engine.storage shape (request.storing false) engine
    let longs := made Engine.storage shape (request.storing true) engine'
    (∀ answer ∈ answers Engine.storage rows bits.1 bits.2, ∃ reply, answer = .ok reply) →
      ((∀ row ∈ rows, request.BitsFit row) →
        answers Engine.storage rows longs.1 longs.2 = answers Engine.storage rows bits.1 bits.2 ∧
        (hand Engine.storage rows longs.1 longs.2).1.rowCount =
          (hand Engine.storage rows bits.1 bits.2).1.rowCount) ∧
      ((∀ c ∈ request.columns, ∀ width, c.dataType = .bit width → width.toNat ≤ 63) →
        ∀ row ∈ rows, request.BitsFit row) ∧
      ∀ front row back, rows = front ++ row :: back → (∀ before ∈ front, request.BitsFit before) →
        ¬request.BitsFit row →
        let reached := hand Engine.storage front longs.1 longs.2
        ∃ (c : Column) (b : UInt64), (c, .bit b) ∈ request.visible row ∧
          c.dataType.isBit = true ∧ 2 ^ 63 ≤ b.toNat ∧
          (reached.1.insert Engine.storage row reached.2).1 = .error (.refused
            (.projection c.name (CastError.unconvertible (.bit b) "bigint").message)) := by
  intro bits longs taken
  cases rows with
  | nil =>
    have counted (made : Sink Table × Engine) (kept : made.1.Keeps made.2 []) :
        made.1.rowCount = 0 := by
      rw [kept.rowCount]
      split <;> rfl
    refine ⟨fun _ => ⟨rfl, ?_⟩, fun _ => List.forall_mem_nil _, fun front row back split => ?_⟩
    · show longs.1.rowCount = bits.1.rowCount
      rw [counted longs (keeps_made ..), counted bits (keeps_made ..)]
    · cases front <;> cases split
  | cons first rest =>
    -- A sink without a table takes no row at all.
    obtain ⟨t, there⟩ : ∃ t, bits.1.handle? = some t := by
      obtain ⟨⟨reply, answered⟩, -⟩ := List.forall_mem_cons.1 taken
      rcases insert_cases bits.1 first bits.2 with ⟨e, turned⟩ | ⟨plan, t, values, ht, -⟩
      · rw [step, turned] at answered
        cases answered
      · exact ⟨t, by rw [handle?, ht]; rfl⟩
    have paired : Paired request shape bits.1 bits.2 longs.1 longs.2 [] := .start frame there
    refine ⟨fun fits => ?_, fun narrow => paired.all_bitsFit narrow taken, ?_⟩
    · obtain ⟨same, rows, last⟩ := paired.hand fits taken
      obtain ⟨t, t', ht, ht', -⟩ := last.tables
      refine ⟨same, ?_⟩
      rw [last.kept'.rowCount, last.kept.rowCount, ht, ht', List.length_map]
      rfl
    · intro front row back split fits unfit
      rw [split, answers_append] at taken
      obtain ⟨before, later⟩ := List.forall_mem_append.1 taken
      obtain ⟨⟨reply, answered⟩, -⟩ := List.forall_mem_cons.1 later
      obtain ⟨-, rows, reached⟩ := paired.hand fits before
      exact reached.refuses unfit answered

/-- A request for distinct bit fields of 64 bits. -/
def bitsRequest : TableRequest :=
  { columns := [{ name := "b", dataType := .bit 64 }], distinct := true, name := "u" }

/-- The second row moves either table to disk, where the third is a duplicate. -/
theorem bitsAsLong_alike_moving :
    let engine := oneRowEngine {}
    let rows : List Row := [[.bit 9223372036854775807], [.null], [.bit 9223372036854775807]]
    let bits := made Engine.storage {} (bitsRequest.storing false) engine
    let longs := made Engine.storage {} (bitsRequest.storing true) engine
    let expected : List (Except (Failure SinkError) Reply) :=
      [.ok (.outcome .inserted), .ok (.outcome .inserted), .ok (.outcome .duplicateRejected)]
    answers Engine.storage rows bits.1 bits.2 = expected ∧
      (∀ row ∈ rows, bitsRequest.BitsFit row) ∧
      answers Engine.storage rows longs.1 longs.2 = expected ∧
      (hand Engine.storage rows longs.1 longs.2).1.rowCount = 2 := by
  intro engine rows bits longs expected
  have answered : answers Engine.storage rows bits.1 bits.2 = expected := by rfl
  have taken : ∀ answer ∈ answers Engine.storage rows bits.1 bits.2,
      ∃ reply, answer = .ok reply := by
    rw [answered]
    simp [expected]
  obtain ⟨alike, -, -⟩ := bitsAsLong_alike engine engine (.refl engine) {} bitsRequest rows taken
  have fits : ∀ row ∈ rows, bitsRequest.BitsFit row := by decide
  have counted : (hand Engine.storage rows bits.1 bits.2).1.rowCount = 2 := by decide
  obtain ⟨same, count⟩ := alike fits
  refine ⟨answered, fits, ?_, ?_⟩
  · rw [same, answered]
  · rw [count, counted]

/-- A bit field with the top bit is stored as it is and refused as a 64-bit integer, so the two ways
of storing bit fields are not alike without a bound on them. -/
theorem not_bitsAsLong_alike :
    ¬∀ (engine : Engine) (shape : Shape) (request : TableRequest) (rows : List Row),
      let bits := made Engine.storage shape (request.storing false) engine
      let longs := made Engine.storage shape (request.storing true) engine
      (∀ c ∈ request.columns, ∀ width, c.dataType = .bit width →
        1 ≤ width.toNat ∧ width.toNat ≤ 64) →
      (∀ row ∈ rows, ∀ c ∈ request.visible row, c.1.dataType.isBit = true →
        c.2 = .null ∨ ∃ b, c.2 = .bit b) →
      (∀ answer ∈ answers Engine.storage rows bits.1 bits.2, ∃ reply, answer = .ok reply) →
      ∀ answer ∈ answers Engine.storage rows longs.1 longs.2, ∃ reply, answer = .ok reply := by
  intro alike
  let engine : Engine := { config := {}, hasDirectory := Option.isNone }
  let row : Row := [.bit 9223372036854775808]
  let bits := made Engine.storage {} (bitsRequest.storing false) engine
  let longs := made Engine.storage {} (bitsRequest.storing true) engine
  have widths : ∀ c ∈ bitsRequest.columns, ∀ width, c.dataType = .bit width →
      1 ≤ width.toNat ∧ width.toNat ≤ 64 := by
    intro c there width type
    rw [List.mem_singleton.1 there] at type
    cases type
    decide
  have typed : ∀ given ∈ [row], ∀ c ∈ bitsRequest.visible given, c.1.dataType.isBit = true →
      c.2 = .null ∨ ∃ b, c.2 = .bit b := by
    intro given there c shown _
    rw [List.mem_singleton.1 there] at shown
    have shown' : c ∈ [(({ name := "b", dataType := .bit 64 } : Column),
        Value.bit 9223372036854775808)] := shown
    rw [List.mem_singleton.1 shown']
    exact .inr ⟨_, rfl⟩
  have stored : answers Engine.storage [row] bits.1 bits.2 = [.ok (.outcome .inserted)] := by rfl
  have taken : ∀ answer ∈ answers Engine.storage [row] bits.1 bits.2,
      ∃ reply, answer = .ok reply := by
    rw [stored]
    simp
  have refused : ∃ e, answers Engine.storage [row] longs.1 longs.2 = [.error e] := ⟨_, rfl⟩
  obtain ⟨e, refused⟩ := refused
  obtain ⟨reply, answered⟩ := alike engine {} bitsRequest [row] widths typed taken (.error e) (by
    rw [refused]
    exact List.mem_singleton_self _)
  cases answered

end Sink

end ResultSink
