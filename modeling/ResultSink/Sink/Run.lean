import ResultSink.Sink.Basic

/-! Runs of a sink: operations as data, what each answers, and the state after many. -/

namespace ResultSink.Sink

inductive Op where
  | prepare (shape : Shape)
  | create (request : TableRequest)
  | instantiate
  | free
  | insert (row : Row)
  | setEliminating (on : Bool)
  | endOfRows
  | flush
  | reset
  | cleanup
  | rows

/-- What an operation answers when it succeeds. -/
inductive Reply where
  | done
  | outcome (outcome : InsertOutcome)
  | rows (rows : List Row)

variable {ω τ : Type}

/-- An answer that says only that the operation succeeded. -/
def replyDone {ε : Type} (f : ε → Failure SinkError) (answer : Except ε Unit) :
    Except (Failure SinkError) Reply :=
  (answer.map fun _ => .done).mapError f

@[simp] theorem replyDone_ok {ε : Type} (f : ε → Failure SinkError) :
    replyDone f (.ok ()) = .ok .done := rfl

@[simp] theorem replyDone_error {ε : Type} (f : ε → Failure SinkError) (e : ε) :
    replyDone f (.error e) = .error (f e) := rfl

/-- One operation. The end of the rows and a flush change nothing, since nothing is buffered. -/
def step (storage : Storage ω τ) (op : Op) (s : Sink τ) (w : ω) :
    Answer ω τ (Failure SinkError) Reply :=
  match op with
  | .prepare shape => (.ok .done, s.prepare shape, w)
  | .create request =>
    let (answer, s, w) := s.create storage request w
    (replyDone id answer, s, w)
  | .instantiate =>
    let (answer, s, w) := s.instantiate storage w
    (replyDone id answer, s, w)
  | .free => (.ok .done, s.free, w)
  | .insert row =>
    let (answer, s, w) := s.insert storage row w
    (answer.map .outcome, s, w)
  | .setEliminating on =>
    let (answer, s) := s.setEliminating on
    (replyDone .refused answer, s, w)
  | .endOfRows | .flush => (.ok .done, s, w)
  | .reset =>
    let (answer, s, w) := s.reset storage w
    (replyDone .refused answer, s, w)
  | .cleanup =>
    let (s, w) := s.cleanup storage w
    (.ok .done, s, w)
  | .rows =>
    let (answer, s, w) := s.rows storage w
    ((answer.map .rows).mapError .refused, s, w)

/-- The sink and the storage's world after a list of operations. -/
def run (storage : Storage ω τ) (ops : List Op) (s : Sink τ) (w : ω) : Sink τ × ω :=
  ops.foldl (fun state op => (step storage op state.1 state.2).2) (s, w)

end ResultSink.Sink
