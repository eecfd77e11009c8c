import ResultSink.Proofs.Sink.Width
import ResultSink.Proofs.Value.TextRoundTrip

/-! The limit of a unique key. A plan is given a unique key by the width that it estimates for its
records, before there is a row. Rows whose texts keep to the lengths that were assumed for them
keep to the limit, and a column without a declared length takes texts that pass every limit. -/

namespace ResultSink

/-- The bytes that an estimate assumes for a text: the declared length of its column, and a fixed
number where no length is declared. -/
def DataType.assumedBytes : DataType → Nat
  | char (some n) | varchar (some n) => n.toNat
  | _ => variableWidthEstimate

/-- A value that is a text has no more bytes than are assumed for its column. -/
def Column.Assumes (c : Column) (v : Value) : Prop :=
  ∀ s, v = .string s → s.toUTF8.size ≤ c.dataType.assumedBytes

namespace Value

theorem length_encode_string (s : String) : (string s).encode.length = 5 + s.toUTF8.size := by
  have bytes : s.toUTF8.data.toList.length = s.toUTF8.size := rfl
  rw [encode, List.length_cons, content, List.length_append, length_littleEndian, bytes]
  omega

/-- Only a text or a large object can be wider than its type is estimated to be. -/
theorem HasType.length_encode_le {v : Value} {target : DataType} (h : v.HasType target)
    (assumed : ∀ s, v = .string s → s.toUTF8.size ≤ target.assumedBytes)
    (plain : target.isBlob = false) : v.encode.length ≤ target.encodedWidth := by
  by_cases fixed : target.isFixedWidth = true
  · exact Nat.le_of_eq (h.length_encode fixed)
  · cases h with
    | @char s limit | @varchar s limit =>
      have bytes := assumed s rfl
      rw [length_encode_string]
      cases limit with
      | none | some n => exact Nat.add_le_add_left bytes 5
    | text | blob => cases plain
    | _ => exact absurd rfl fixed

end Value

theorem Column.Admits.spans {c : Column} {v : Value} (h : c.Admits v) (assumed : c.Assumes v)
    (plain : c.dataType.isBlob = false) : c.Spans v := by
  rcases h with typed | ⟨rfl, -⟩
  · exact typed.length_encode_le assumed plain
  · exact spans_null

/-! ### Rows with a longer text -/

theorem exists_forall₂ {α β : Type} {R : α → β → Prop} {l : List α}
    (each : ∀ a ∈ l, ∃ b, R a b) : ∃ found, List.Forall₂ R l found := by
  induction l with
  | nil => exact ⟨[], .nil⟩
  | cons a l ih =>
    obtain ⟨⟨b, first⟩, rest⟩ := List.forall_mem_cons.1 each
    obtain ⟨found, all⟩ := ih rest
    exact ⟨b :: found, .cons first all⟩

theorem exists_mem_of_forall₂ {α β : Type} {R : α → β → Prop} {l : List α} {found : List β}
    (h : List.Forall₂ R l found) {a : α} (there : a ∈ l) : ∃ b ∈ found, R a b := by
  induction h with
  | nil => cases there
  | cons first _ ih =>
    rcases List.mem_cons.1 there with rfl | later
    · exact ⟨_, List.mem_cons_self, first⟩
    · obtain ⟨b, member, related⟩ := ih later
      exact ⟨b, List.mem_cons_of_mem _ member, related⟩

theorem Row.length_encode_le {values : Row} {v : Value} (there : v ∈ values) :
    v.encode.length ≤ values.encode.size := by
  have part : v.encode.length ≤ (values.map fun w => w.encode.length).sum :=
    List.le_sum_of_mem (List.mem_map_of_mem there)
  rw [size_encode, List.length_flatMap]
  omega

/-- There are texts of all sizes. -/
theorem exists_text (n : Nat) : ∃ s : String, s.toUTF8.size = n := by
  induction n with
  | zero => exact ⟨"", rfl⟩
  | succ n ih =>
    obtain ⟨s, size⟩ := ih
    have longer : (s ++ "a").toUTF8.size = s.toUTF8.size + "a".toUTF8.size :=
      String.utf8ByteSize_append
    exact ⟨s ++ "a", by rw [longer, size]; rfl⟩

namespace Plan

variable {request : TableRequest} {shape : Shape} {row : Row} {payload : Record}

/-- One position of a row is that of one stored column. -/
theorem stored_unique {i : Nat} {c d : Column} (hc : (i, c) ∈ (resolve request shape).stored)
    (hd : (i, d) ∈ (resolve request shape).stored) : c = d := by
  obtain ⟨given, place, -, rfl⟩ := mem_stored_resolve.1 hc
  obtain ⟨other, place', -, rfl⟩ := mem_stored_resolve.1 hd
  cases place.symm.trans place'
  rfl

theorem stored_lt {i : Nat} {c : Column} (there : (i, c) ∈ (resolve request shape).stored) :
    i < request.columns.length := by
  obtain ⟨given, place, -⟩ := mem_stored_resolve.1 there
  exact (List.getElem?_eq_some_iff.1 place).1

theorem projectColumn_set_self {i : Nat} (inside : i < row.length) {c : Column}
    (unlimited : c.dataType.HoldsTexts none) (s : String) :
    projectColumn (row.set i (.string s)) i c = .ok (.string s) := by
  have cast := Value.cast_holdsTexts (v := .string s) rfl unlimited
  rw [if_neg (by simp)] at cast
  rw [projectColumn, List.getElem?_set_self inside, Option.getD_some, cast]
  rfl

theorem projectColumn_set_ne {i j : Nat} (other : i ≠ j) (c : Column) (v : Value) :
    projectColumn (row.set i v) j c = projectColumn row j c := by
  rw [projectColumn, List.getElem?_set_ne other, projectColumn]

/-- Where a row is accepted, a column of texts without a declared length takes every other text in
place of its value. -/
theorem project_set {i : Nat} {c : Column} (there : (i, c) ∈ (resolve request shape).stored)
    (unlimited : c.dataType.HoldsTexts none)
    (projected : (resolve request shape).project row = .ok payload) (s : String) :
    ∃ payload', (resolve request shape).project (row.set i (.string s)) = .ok payload' ∧
      s.toUTF8.size < payload'.size := by
  obtain ⟨values, taken, -⟩ := project_eq_ok projected
  obtain ⟨width, each⟩ := projectValues_eq_ok_iff.1 taken
  have inside : i < row.length := width ▸ stored_lt there
  have here := projectColumn_set_self inside unlimited s
  have others : ∀ d ∈ (resolve request shape).stored,
      ∃ v, projectColumn (row.set i (.string s)) d.1 d.2 = .ok v := by
    rintro ⟨j, d⟩ member
    by_cases same : i = j
    · subst same
      obtain rfl := stored_unique there member
      exact ⟨_, here⟩
    · obtain ⟨v, -, before⟩ := exists_mem_of_forall₂ each member
      exact ⟨v, (projectColumn_set_ne same d _).trans before⟩
  obtain ⟨values', all⟩ := exists_forall₂ others
  have taken' : (resolve request shape).projectValues (row.set i (.string s)) = .ok values' :=
    projectValues_eq_ok_iff.2 ⟨by rw [List.length_set]; exact width, all⟩
  obtain ⟨v, held, found⟩ := exists_mem_of_forall₂ all there
  cases here.symm.trans found
  have part := Row.length_encode_le held
  rw [Value.length_encode_string] at part
  exact ⟨Row.encode values', by rw [project, taken']; rfl, by omega⟩

/-- A unique key is chosen only where the estimate keeps to the limit and no large object is
stored. -/
theorem estimate_of_uniqueKey (unique : (resolve request shape).strategy = .uniqueKey) :
    (resolve request shape).sizing.blobs = 0 ∧
      (resolve request shape).sizing.recordWidth ≤ request.options.keyLimit := by
  have strategy : chooseStrategy (resolve request shape).sizing request.distinct shape
      request.options = .uniqueKey := unique
  unfold chooseStrategy at strategy
  dsimp only at strategy
  split at strategy
  · cases strategy
  · next kept =>
    simp only [strategy, true_and, not_or] at kept
    omega

end Plan

namespace Sink

/-- The limit of a unique key bounds the estimate and not the rows. A plan with a unique key
estimates its records within the limit, and so is every record whose texts have no more bytes than
were assumed for their columns. Where a column of texts has no declared length and any row is
accepted at all, rows are accepted whose records are wider than any bound. -/
theorem unique_key_estimated (request : TableRequest) (shape : Shape)
    (unique : (Plan.resolve request shape).strategy = .uniqueKey) :
    let plan := Plan.resolve request shape
    plan.sizing.recordWidth ≤ request.options.keyLimit ∧
    ∀ row payload, plan.project row = .ok payload →
      (∃ values, plan.projectValues row = .ok values ∧ payload = values.encode ∧
        (List.Forall₂ Column.Assumes plan.columns values →
          payload.size ≤ request.options.keyLimit)) ∧
      ∀ c ∈ plan.columns, c.dataType = .char none ∨ c.dataType = .varchar none →
        ∀ bound, ∃ row' payload', plan.project row' = .ok payload' ∧ bound < payload'.size := by
  intro plan
  obtain ⟨plain, estimate⟩ := Plan.estimate_of_uniqueKey unique
  have noBlobs : ∀ c ∈ plan.columns, c.dataType.isBlob = false := by
    intro c there
    have none : ¬c.dataType.isBlob = true := List.countP_eq_zero.1 plain c there
    simpa using none
  refine ⟨estimate, fun row payload projected => ⟨?_, fun c there unlimited bound => ?_⟩⟩
  · obtain ⟨values, taken, rfl⟩ := Plan.project_eq_ok projected
    refine ⟨values, taken, rfl, fun assumed => ?_⟩
    have admitted := Plan.admits_projectValues taken
    have spans : List.Forall₂ Column.Spans plan.columns values :=
      ((List.forall₂_and_left _ _).2 ⟨noBlobs, admitted⟩).mp
        (fun c v ⟨plain, admits⟩ assumes => admits.spans assumes plain) assumed
    exact (Sizing.size_encode_le spans).trans estimate
  · obtain ⟨⟨i, d⟩, stored, rfl⟩ := List.mem_map.1 there
    have texts : d.dataType.HoldsTexts none := by
      rcases unlimited with same | same
      · exact same ▸ .char none
      · exact same ▸ .varchar none
    obtain ⟨s, size⟩ := exists_text bound
    obtain ⟨payload', accepted, wide⟩ := Plan.project_set stored texts projected s
    exact ⟨_, payload', accepted, size ▸ wide⟩

/-- A request for distinct texts without a declared length, with a limit that the estimate meets. -/
def wordsRequest : TableRequest :=
  { columns := [{ name := "s", dataType := .varchar none }], distinct := true, name := "w"
    options := { keyLimit := 264 } }

/-- A text as long as assumed keeps to the limit, and others pass it a thousandfold. -/
theorem unique_key_estimated_words :
    let plan := Plan.resolve wordsRequest {}
    plan.strategy = .uniqueKey ∧
      (∃ payload, plan.project [.string "ab"] = .ok payload ∧ payload.size ≤ 264) ∧
      ∃ row payload, plan.project row = .ok payload ∧ 264000 < payload.size := by
  intro plan
  have unique : plan.strategy = .uniqueKey := by decide
  obtain ⟨-, bounds⟩ := unique_key_estimated wordsRequest {} unique
  have projected : plan.project [.string "ab"] = .ok (Row.encode [.string "ab"]) := by rfl
  obtain ⟨⟨values, taken, -, keeps⟩, grows⟩ := bounds _ _ projected
  have known : values = [.string "ab"] := (Except.ok.inj taken).symm
  subst known
  refine ⟨unique, ⟨_, projected, keeps (.cons ?_ .nil)⟩, ?_⟩
  · rintro s ⟨⟩
    decide
  · exact grows _ List.mem_cons_self (.inr rfl) _

/-- A request for distinct texts of at most ten characters, with a limit that the estimate meets. -/
def shortWordsRequest : TableRequest :=
  { columns := [{ name := "s", dataType := .varchar (some 10) }], distinct := true, name := "w"
    options := { keyLimit := 19 } }

/-- A text of 256 bytes is accepted where 255 are assumed, and its record is covered by a key that
was to cover no more than 264 bytes. Ten characters of four bytes each are accepted where ten bytes
are assumed, and their record of 49 bytes is covered by a key that was to cover no more than 19. -/
theorem unique_key_outgrown :
    let plan := Plan.resolve wordsRequest {}
    let word := Value.string (String.ofList (List.replicate 256 'a'))
    let shortPlan := Plan.resolve shortWordsRequest {}
    let shortWord := Value.string (String.ofList (List.replicate 10 '😀'))
    (plan.strategy = .uniqueKey ∧
      ∃ payload, plan.project [word] = .ok payload ∧
        payload.size = 265 ∧ wordsRequest.options.keyLimit = 264) ∧
    shortPlan.strategy = .uniqueKey ∧
      ∃ payload, shortPlan.project [shortWord] = .ok payload ∧
        payload.size = 49 ∧ shortWordsRequest.options.keyLimit = 19 := by
  intro plan word shortPlan shortWord
  constructor
  · refine ⟨by decide, Row.encode [word], by rfl, ?_, rfl⟩
    decide +kernel
  · refine ⟨by decide, Row.encode [shortWord], by decide +kernel, ?_, rfl⟩
    decide +kernel

end Sink

end ResultSink
