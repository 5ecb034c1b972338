import Hotpath.Lib.System
import Hotpath.Telemetry.Open
import Hotpath.Telemetry.SpscRing
import Hotpath.Telemetry.WriteBatch

set_option relaxedAutoImplicit false
set_option autoImplicit false

/-!
# The telemetry sink

`TelemetrySink`: one thread calls `open`, `record` and `close`, and a writer thread that exists
from a successful `open` to the next `close` drains the ring. Each access of either to what both
see is one step: the loads, slot accesses and stores of the ring, the flag, the counters, and the
calls of SQLite, which may get any answer.

## Main definitions

* `Hotpath.Caller`, `Hotpath.Writer` — where the two threads are.
* `Hotpath.Sink`, `Hotpath.Sink.Step` — the sink with its threads, and their steps.
-/

namespace Hotpath

variable {F : Type}

/-- How many rows `write_batch` takes at most. -/
def kMaxBatchRows : ℕ := 500

/-- Where the thread that uses the sink is: between calls, or in one of them. -/
inductive Caller (F : Type) where
  | idle
  /-- In `open`, with the rest of the calls that set the connection up. -/
  | opening (rest : OpenProgram (Option Bytes))
  /-- In `open`, about to clear the stop flag. -/
  | openStoring
  /-- In `open`, about to start the writer. -/
  | openStarting
  /-- In `record`, about to count an id that is too long. -/
  | recordOversized (event : LatencyEvent F)
  /-- In `record`, in `try_push`. -/
  | recordPushing (event : LatencyEvent F) (push : TryPush (Row F))
  /-- In `record`, about to count a full ring. -/
  | recordFull (event : LatencyEvent F)
  /-- In `close`, about to set the stop flag. -/
  | closeStoring
  /-- In `close`, waiting for the writer. -/
  | closeJoining
  /-- In `close`, about to close the connection. -/
  | closeResetting

/-- Where the writer thread is, if there is one, in `run_writer`. -/
inductive Writer (F : Type) where
  | absent
  /-- About to read the stop flag. -/
  | loadStopping
  /-- In `try_pop`, with the flag as it was read and the batch so far. -/
  | popping (draining : Bool) (batch : List (Row F)) (pop : TryPop (Row F))
  /-- In `write_batch`, with the rows of the batch that were not counted yet and the rest of
  it. -/
  | writing (uncounted : List (Row F)) (rest : WriterProgram F Unit)
  | returned

/-- `TelemetrySink`, with its threads; of `writer_` whether it is joinable, and of `db_` whether it
holds a connection. -/
structure Sink (F : Type) where
  ring : SpscRing (Row F)
  joinable : Bool
  connected : Bool
  stopping : Bool
  rowsWritten : ℕ
  droppedRingFull : ℕ
  droppedOversizedId : ℕ
  droppedWriteFailed : ℕ
  caller : Caller F
  writer : Writer F

/-- What is seen of a step: that a call of `record` begins, that a call returns and what, or which
batch is handed to `write_batch`. -/
inductive SinkEvent (F : Type) where
  | internal
  | openReturned (failure : Option Bytes)
  | recordCalled (event : LatencyEvent F)
  | recordReturned (event : LatencyEvent F) (accepted : Bool)
  | closeReturned
  | handed (batch : List (Row F))

/-- What `record` does first: it looks at the length of the id. -/
def Caller.record (event : LatencyEvent F) : Caller F :=
  if h : event.correlationId.length > kMaxCorrelationIdBytes then .recordOversized event
  else .recordPushing event (.loadHead (Row.ofEvent event (Nat.le_of_not_gt h)))

/-- What `run_writer` does after it drained a batch. -/
def Writer.drained (draining : Bool) (batch : List (Row F)) : Writer F × SinkEvent F :=
  if batch = [] then (if draining then .returned else .loadStopping, .internal)
  else (.writing batch (writeBatch batch), .handed batch)

/-- What `run_writer` does after it put a row into the batch. -/
def Writer.pushed (draining : Bool) (batch : List (Row F)) : Writer F × SinkEvent F :=
  if batch.length < kMaxBatchRows then (.popping draining batch .loadTail, .internal)
  else Writer.drained draining batch

namespace Sink

/-- The constructor. -/
def new [OfScientific F] (capacity : UInt64) (h : capacity.toNat ≤ 2 ^ 63) : Sink F where
  ring := SpscRing.new capacity h
  joinable := false
  connected := false
  stopping := false
  rowsWritten := 0
  droppedRingFull := 0
  droppedOversizedId := 0
  droppedWriteFailed := 0
  caller := .idle
  writer := .absent

/-- What a call in `write_batch` does to the counters, and to the rows not counted yet. -/
def count (s : Sink F) (uncounted : List (Row F)) : WriterCall F → Sink F × List (Row F)
  | .sql _ => (s, uncounted)
  | .addRowsWritten rows =>
    ({ s with rowsWritten := s.rowsWritten + rows.length }, uncounted.drop rows.length)
  | .addDroppedWriteFailed _ =>
    ({ s with droppedWriteFailed := s.droppedWriteFailed + 1 }, uncounted.drop 1)

/-- The steps of the two threads. -/
inductive Step : Sink F → SinkEvent F → Sink F → Prop
  /-- `open` of a sink whose writer runs. -/
  | openAlready {s : Sink F} (hc : s.caller = .idle) (hj : s.joinable = true) :
      Step s (.openReturned none) s
  | openCall {s : Sink F} (hc : s.caller = .idle) (hj : s.joinable = false) :
      Step s .internal { s with caller := .opening openDatabase }
  | openAnswer {s : Sink F} {c : OpenCall} {next : c.Answer → OpenProgram (Option Bytes)}
      (hc : s.caller = .opening (.call c next)) (answer : c.Answer) :
      Step s .internal { s with caller := .opening (next answer) }
  | openFailed {s : Sink F} {failure : Bytes} (hc : s.caller = .opening (.pure (some failure))) :
      Step s (.openReturned (some failure)) { s with caller := .idle }
  | openConnected {s : Sink F} (hc : s.caller = .opening (.pure none)) :
      Step s .internal { s with caller := .openStoring, connected := true }
  | openStore {s : Sink F} (hc : s.caller = .openStoring) :
      Step s .internal { s with caller := .openStarting, stopping := false }
  | openStart {s : Sink F} (hc : s.caller = .openStarting) :
      Step s (.openReturned none)
        { s with caller := .idle, joinable := true, writer := .loadStopping }
  | recordCall {s : Sink F} (hc : s.caller = .idle) (event : LatencyEvent F) :
      Step s (.recordCalled event) { s with caller := Caller.record event }
  | recordOversized {s : Sink F} {event : LatencyEvent F} (hc : s.caller = .recordOversized event) :
      Step s (.recordReturned event false)
        { s with caller := .idle, droppedOversizedId := s.droppedOversizedId + 1 }
  | recordPush {s : Sink F} {event : LatencyEvent F} {p p' : TryPush (Row F)}
      {r : SpscRing (Row F)} (hc : s.caller = .recordPushing event p)
      (h : s.ring.tryPush p = (r, .more p')) :
      Step s .internal { s with caller := .recordPushing event p', ring := r }
  | recordPushed {s : Sink F} {event : LatencyEvent F} {p : TryPush (Row F)}
      {r : SpscRing (Row F)} (hc : s.caller = .recordPushing event p)
      (h : s.ring.tryPush p = (r, .done true)) :
      Step s (.recordReturned event true) { s with caller := .idle, ring := r }
  | recordRefused {s : Sink F} {event : LatencyEvent F} {p : TryPush (Row F)}
      {r : SpscRing (Row F)} (hc : s.caller = .recordPushing event p)
      (h : s.ring.tryPush p = (r, .done false)) :
      Step s .internal { s with caller := .recordFull event, ring := r }
  | recordFull {s : Sink F} {event : LatencyEvent F} (hc : s.caller = .recordFull event) :
      Step s (.recordReturned event false)
        { s with caller := .idle, droppedRingFull := s.droppedRingFull + 1 }
  | closeCall {s : Sink F} (hc : s.caller = .idle) (hj : s.joinable = true) :
      Step s .internal { s with caller := .closeStoring }
  | closeUnopened {s : Sink F} (hc : s.caller = .idle) (hj : s.joinable = false) :
      Step s .internal { s with caller := .closeResetting }
  | closeStore {s : Sink F} (hc : s.caller = .closeStoring) :
      Step s .internal { s with caller := .closeJoining, stopping := true }
  | closeJoin {s : Sink F} (hc : s.caller = .closeJoining) (hw : s.writer = .returned) :
      Step s .internal { s with caller := .closeResetting, writer := .absent, joinable := false }
  | closeReset {s : Sink F} (hc : s.caller = .closeResetting) :
      Step s .closeReturned { s with caller := .idle, connected := false }
  | writerLoad {s : Sink F} (hw : s.writer = .loadStopping) :
      Step s .internal { s with writer := .popping s.stopping [] .loadTail }
  | writerPop {s : Sink F} {draining : Bool} {batch : List (Row F)} {c c' : TryPop (Row F)}
      {r : SpscRing (Row F)} (hw : s.writer = .popping draining batch c)
      (h : s.ring.tryPop c = (r, .more c')) :
      Step s .internal { s with writer := .popping draining batch c', ring := r }
  | writerPopped {s : Sink F} {draining : Bool} {batch : List (Row F)} {c : TryPop (Row F)}
      {r : SpscRing (Row F)} {row : Row F} (hw : s.writer = .popping draining batch c)
      (h : s.ring.tryPop c = (r, .done (some row))) :
      Step s (Writer.pushed draining (batch ++ [row])).2
        { s with writer := (Writer.pushed draining (batch ++ [row])).1, ring := r }
  | writerEmpty {s : Sink F} {draining : Bool} {batch : List (Row F)} {c : TryPop (Row F)}
      {r : SpscRing (Row F)} (hw : s.writer = .popping draining batch c)
      (h : s.ring.tryPop c = (r, .done none)) :
      Step s (Writer.drained draining batch).2
        { s with writer := (Writer.drained draining batch).1, ring := r }
  | writerCall {s : Sink F} {uncounted : List (Row F)} {c : WriterCall F}
      {next : c.Answer → WriterProgram F Unit} (hw : s.writer = .writing uncounted (.call c next))
      (answer : c.Answer) :
      Step s .internal
        { (s.count uncounted c).1 with
          writer := .writing (s.count uncounted c).2 (next answer) }
  | writerDone {s : Sink F} {uncounted : List (Row F)}
      (hw : s.writer = .writing uncounted (.pure ())) :
      Step s .internal { s with writer := .loadStopping }

end Sink

end Hotpath
