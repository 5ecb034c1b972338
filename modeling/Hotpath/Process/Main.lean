import Hotpath.Executor.Server
import Hotpath.Process.CommandLine
import Hotpath.Telemetry.Store

set_option relaxedAutoImplicit false
set_option autoImplicit false

/-!
# The process

`run` in `src/main.cpp` from where the command line was read, as one system: the main thread,
which is in at most one of the two components at a time, the writer thread of the sink next to
it, and the handler of the signals, which calls `stop`. A step of the process is a step of the
server, a step of the sink with its database, or one of the main thread between them.

## Main definitions

* `Hotpath.Report` — what is printed.
* `Hotpath.Process`, `Hotpath.Process.Step`.
-/

namespace Hotpath

variable {F ι : Type}

/-! ## Parts of the main thread -/

/-- The capacity of the ring of the sink by default. -/
def kDefaultCapacity : UInt64 := 8192

/-- A line on the standard error. -/
inductive Report where
  | openFailed (failure : Bytes)
  | listenFailed (failure : Bytes)
  | frames (stats : ExecutorStats)
  | telemetry (rowsWritten droppedRingFull droppedOversizedId droppedWriteFailed : ℕ)
  deriving DecidableEq, Repr

/-- Where the main thread is. -/
inductive MainThread where
  /-- Before `open`. -/
  | starting
  | opening
  /-- Before `listen`. -/
  | listening
  /-- In `serve_forever`. -/
  | serving
  /-- There, in the callback `record_wake_recv`. -/
  | recording
  /-- There, behind it. -/
  | recorded
  /-- Before `close`. -/
  | stopped
  | closing
  /-- Before the destructors, with the exit code. -/
  | leaving (code : ℕ)
  /-- In `close`, which the destructor of the sink calls. -/
  | destroying (code : ℕ)
  | exited (code : ℕ)
  deriving DecidableEq, Repr

/-- The handler of the signals finds a server. -/
def MainThread.handles : MainThread → Bool
  | .serving | .recording | .recorded => true
  | _ => false

/-- The main thread is between the return of `open` and that of `close`. -/
def MainThread.uses : MainThread → Bool
  | .listening | .serving | .recording | .recorded | .stopped | .closing => true
  | _ => false

/-- The event the callback `record_wake_recv` hands to the sink. -/
def WakeRecvEvent.latency (event : WakeRecvEvent F) : LatencyEvent F where
  correlationId := event.correlationId
  stage := .wakeRecv
  startedAtMs := event.startedAtMs
  endedAtMs := event.endedAtMs
  durationMs := event.durationMs
  dryRun := event.dryRun

/-- The ack of a message was sent whole, and the record and the fire are next. -/
def Executor.firing (s : Executor F ι) : Option (Moment × WakeMessage F) :=
  match s.control with
  | .sending moment (.ok message) sent =>
    if s.server.ack.length ≤ sent then some (moment, message) else none
  | _ => none

/-! ## The process -/

/-- A process that serves: whether it has a sink, the path of its socket, the server, the sink
with its database, where the main thread is, and what it printed. -/
structure Process (F ι : Type) where
  telemetry : Bool
  socketPath : Bytes
  executor : Executor F ι
  store : Store F
  thread : MainThread
  output : List Report

/-- What is seen of a step: a step of the server or of the sink, or neither. -/
inductive ProcessAction (F ι : Type) where
  | main
  | server (action : ServerAction ι)
  | sink (event : SinkEvent F)

namespace Process

/-- A process with a command line. Without a path for the database the sink is never used. -/
def new [OfScientific F] (line : CommandLine) : Process F ι where
  telemetry := line.telemetryDbPath ≠ []
  socketPath := line.socketPath
  executor := .new (.new (if line.killSwitchPath ≠ [] then some (.new KillSwitch.kDefaultTtlNs)
    else none) false (line.telemetryDbPath ≠ [])) .closed
  store := .new kDefaultCapacity (by decide)
  thread := if line.telemetryDbPath ≠ [] then .starting else .listening
  output := []

/-- The thread that uses the sink is put somewhere. -/
def withCaller (s : Process F ι) (caller : Caller F) : Process F ι :=
  { s with store := { s.store with sink := { s.store.sink with caller := caller } } }

/-- The steps of the process. -/
inductive Step [DecidableEq ι] [Double F] [CharConv F] :
    Process F ι → ProcessAction F ι → Process F ι → Prop
  /-- `open` is called. -/
  | open_ {s : Process F ι} (ht : s.thread = .starting) (hc : s.store.sink.caller = .idle)
      (hj : s.store.sink.joinable = false) :
      Step s (.sink .internal) { s.withCaller (.opening openDatabase) with thread := .opening }
  | opened {s : Process F ι} {t : Store F} (ht : s.thread = .opening)
      (hs : s.store.Step (.openReturned none) t) :
      Step s (.sink (.openReturned none)) { s with store := t, thread := .listening }
  | openFailed {s : Process F ι} {t : Store F} {failure : Bytes} (ht : s.thread = .opening)
      (hs : s.store.Step (.openReturned (some failure)) t) :
      Step s (.sink (.openReturned (some failure)))
        { s with store := t, thread := .leaving 1, output := s.output ++ [.openFailed failure] }
  /-- A step of the sink inside of the call that is under way, or of its writer. -/
  | sink {s : Process F ι} {e : SinkEvent F} {t : Store F} (hs : s.store.Step e t)
      (he : e = .internal ∨ ∃ batch, e = .handed batch)
      (hc : s.store.sink.caller = .idle → t.sink.caller = .idle) :
      Step s (.sink e) { s with store := t }
  | listen {s : Process F ι} {d : Descriptors} (ht : s.thread = .listening) (calls : ListenCalls)
      (hd : s.executor.descriptors.listen s.socketPath calls = (none, d)) :
      Step s .main
        { s with executor := { s.executor with descriptors := d }, thread := .serving }
  | listenFailed {s : Process F ι} {d : Descriptors} {failure : Bytes}
      (ht : s.thread = .listening) (calls : ListenCalls)
      (hd : s.executor.descriptors.listen s.socketPath calls = (some failure, d)) :
      Step s .main
        { s with
          executor := { s.executor with descriptors := d }
          thread := .leaving 1
          output := s.output ++ [.listenFailed failure] }
  | serve {s : Process F ι} {a : ServerAction ι} {t : Executor F ι} (ht : s.thread = .serving)
      (hs : s.executor.Step a t) (hcall : a ≠ .call) (hstop : ∀ i, a ≠ .stop i)
      (hfire : s.executor.firing = none) :
      Step s (.server a) { s with executor := t }
  /-- A signal is handled. -/
  | signal {s : Process F ι} {i : ι} {t : Executor F ι} (hs : s.executor.Step (.stop i) t)
      (ht : s.executor.stoppers i = .idle → s.thread.handles = true) :
      Step s (.server (.stop i)) { s with executor := t }
  /-- `record_wake_recv` is called. -/
  | record {s : Process F ι} {moment : Moment} {message : WakeMessage F} (ht : s.thread = .serving)
      (htelemetry : s.telemetry = true) (hfire : s.executor.firing = some (moment, message))
      (hc : s.store.sink.caller = .idle) :
      Step s (.sink (.recordCalled (wakeRecvEvent moment message).latency))
        { s.withCaller (.record (wakeRecvEvent moment message).latency) with
          thread := .recording }
  | recorded {s : Process F ι} {event : LatencyEvent F} {accepted : Bool} {t : Store F}
      (ht : s.thread = .recording) (hs : s.store.Step (.recordReturned event accepted) t) :
      Step s (.sink (.recordReturned event accepted)) { s with store := t, thread := .recorded }
  | fire {s : Process F ι} {moment : Moment} {message : WakeMessage F}
      (ht : s.thread = .recorded ∨ s.thread = .serving ∧ s.telemetry = false)
      (hfire : s.executor.firing = some (moment, message)) :
      Step s (.server .serve)
        { s with executor := s.executor.fire moment message, thread := .serving }
  /-- `serve_forever` returned. -/
  | stopped {s : Process F ι} (ht : s.thread = .serving) (hc : s.executor.control = .returned) :
      Step s .main
        { s with
          thread := if s.telemetry then .stopped else .leaving 0
          output := s.output ++ [.frames s.executor.server.stats] }
  /-- `close` is called. -/
  | close {s : Process F ι} (ht : s.thread = .stopped) (hc : s.store.sink.caller = .idle) :
      Step s (.sink .internal)
        { s.withCaller (if s.store.sink.joinable then .closeStoring else .closeResetting) with
          thread := .closing }
  | closed {s : Process F ι} {t : Store F} (ht : s.thread = .closing)
      (hs : s.store.Step .closeReturned t) :
      Step s (.sink .closeReturned)
        { s with
          store := t
          thread := .leaving 0
          output := s.output ++ [.telemetry t.sink.rowsWritten t.sink.droppedRingFull
            t.sink.droppedOversizedId t.sink.droppedWriteFailed] }
  /-- The destructor of the sink calls `close`. -/
  | destroy {s : Process F ι} {code : ℕ} (ht : s.thread = .leaving code)
      (htelemetry : s.telemetry = true) (hc : s.store.sink.caller = .idle) :
      Step s (.sink .internal)
        { s.withCaller (if s.store.sink.joinable then .closeStoring else .closeResetting) with
          thread := .destroying code }
  | destroyed {s : Process F ι} {code : ℕ} {t : Store F} (ht : s.thread = .destroying code)
      (hs : s.store.Step .closeReturned t) :
      Step s (.sink .closeReturned) { s with store := t, thread := .exited code }
  | exit {s : Process F ι} {code : ℕ} (ht : s.thread = .leaving code)
      (htelemetry : s.telemetry = false) :
      Step s .main { s with thread := .exited code }

end Process

end Hotpath
