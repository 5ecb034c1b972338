import Hotpath.Executor.Counters
import Hotpath.Process.Runs
import Hotpath.Protocol.RoundTrip

set_option relaxedAutoImplicit false
set_option autoImplicit false

/-!
# What a process accounts for

Every run of the process is a run of its sink with its database, and what its server does is what
a server does. So the invariants of both hold of it, and they are joined by the wakes: the events
`record` was called with are those of the messages that were fired, and of the one that is about
to be.

## Main definitions

* `Hotpath.Executor.wakes` — the wakes of the messages that were fired.
* `Hotpath.Process.Linked`, `Hotpath.Process.Told` — the invariants.

## Main results

* `Hotpath.Process.durable_wakes` — the rows that are durable at any instant.
* `Hotpath.Process.exit_accounts` — what was printed when the process ends.
-/

namespace Hotpath

open System (Run)

variable {F ι : Type}

/-! ## The two components -/

namespace Process

variable [Double F] [CharConv F] [DecidableEq ι] {s s' : Process F ι} {a : ProcessAction F ι}

/-- The step of the sink that a step of the process is, if it is one. -/
def sinkEvent : ProcessAction F ι → Option (SinkEvent F)
  | .sink e => some e
  | _ => none

omit [Double F] [CharConv F] in
/-- The call of `close` begins, with a writer or without. -/
private lemma close_step {s : Store F} (hc : s.sink.caller = .idle) :
    s.Step .internal { s with sink := { s.sink with
      caller := if s.sink.joinable then .closeStoring else .closeResetting } } := by
  have hother : ∀ {t : Sink F}, s.sink.Step .internal t → t.writer = s.sink.writer →
      s.Step .internal { s with sink := t } := by
    intro t ht hw
    exact .other ht (fun _ _ _ _ => hw) (by simp [hc])
  cases hj : s.sink.joinable with
  | false => exact hother (.closeUnopened hc hj) rfl
  | true => exact hother (.closeCall hc hj) rfl

/-- **A step of the process is one of the sink with its database, or leaves both.** -/
lemma Step.store (hst : Step s a s') : (sinkEvent a = none ∧ s'.store = s.store) ∨
    ∃ e, sinkEvent a = some e ∧ s.store.Step e s'.store := by
  cases hst with
  | open_ ht hc hj =>
    exact .inr ⟨_, rfl, .other (.openCall hc hj) (fun _ _ _ _ => rfl) (by simp [hc])⟩
  | record ht htelemetry hfire hc =>
    exact .inr ⟨_, rfl, .other (.recordCall hc _) (fun _ _ _ _ => rfl) (by simp [hc])⟩
  | close ht hc => exact .inr ⟨_, rfl, close_step hc⟩
  | destroy ht htelemetry hc => exact .inr ⟨_, rfl, close_step hc⟩
  | opened ht hs | openFailed ht hs | sink hs he hc | recorded ht hs | closed ht hs
  | destroyed ht hs => exact .inr ⟨_, rfl, hs⟩
  | _ => exact .inl ⟨rfl, rfl⟩

/-- The part of a history that concerns the sink and its database. -/
def storeHistory (hist : List (Process F ι × ProcessAction F ι)) :
    List (Store F × SinkEvent F) :=
  hist.filterMap fun p => (sinkEvent p.2).map fun e => (p.1.store, e)

/-- The events that `record` is called with, in the part of a history that concerns the sink. -/
def calls (hist : List (Process F ι × ProcessAction F ι)) : List (LatencyEvent F) :=
  Sink.called (Store.sinkHistory (storeHistory hist))

/-- A run of the process is a run of its sink with its database. -/
lemma run_store {line : CommandLine} {hist : List (Process F ι × ProcessAction F ι)}
    (hr : Run Step (new line) hist s) :
    Run Store.Step (Store.new kDefaultCapacity (by decide)) (storeHistory hist) s.store :=
  hr.project (fun s => s.store) sinkEvent fun _ _ _ hst => hst.store

/-- **A step of the process is one of the server, or gives it its descriptors.** -/
lemma Step.executor (hst : Step s a s') : (∃ b, s.executor.Step b s'.executor) ∨
    ∃ d, s'.executor = { s.executor with descriptors := d } := by
  cases hst with
  | serve ht hs _ _ _ => exact .inl ⟨_, hs⟩
  | signal hs _ => exact .inl ⟨_, hs⟩
  | @fire moment message ht hfire =>
    unfold Executor.firing at hfire
    split at hfire
    · next m msg sent hc =>
      split_ifs at hfire with hle
      obtain ⟨rfl, rfl⟩ : m = moment ∧ msg = message := by simpa using hfire
      exact .inl ⟨_, .fire hc hle⟩
    · cases hfire
  | listen _ _ hd | listenFailed _ _ hd => exact .inr ⟨_, rfl⟩
  | _ => exact .inr ⟨s.executor.descriptors, rfl⟩

end Process

/-! ## Wakes -/

/-- The wake whose record an event is. -/
def ServerEvent.wake : ServerEvent F → Option (WakeRecvEvent F)
  | .frame _ (.recordWakeRecv event) => some event
  | _ => none

namespace Executor

/-- The wakes that were recorded, in order. -/
def wakes (s : Executor F ι) : List (WakeRecvEvent F) := s.trace.filterMap ServerEvent.wake

/-- There are as many wakes as calls of the callback. -/
lemma length_wakes (s : Executor F ι) : s.wakes.length = s.trace.countP ServerEvent.isRecorded := by
  rw [wakes, List.length_filterMap_eq_countP]
  congr 1
  funext e
  cases e with
  | ended ending => rfl
  | frame n event => cases event <;> rfl

variable [Double F] [CharConv F] [DecidableEq ι] {s t : Executor F ι}

omit [Double F] [CharConv F] [DecidableEq ι] in
/-- The end of a connection is not a wake. -/
lemma wakes_leave (s : Executor F ι) (ending : Ending) :
    (s.leave ending).wakes = s.wakes := by
  simp [wakes, leave, List.filterMap_append, ServerEvent.wake]

/-- A step that is not a fire records nothing. -/
lemma Step.wakes_eq {a : ServerAction ι} (hst : Step s a t) (hfire : s.firing = none) :
    t.wakes = s.wakes := by
  cases hst with
  | fire hc hle => simp [firing, hc, hle] at hfire
  | @read part filled got _ _ read hc hlt hr => cases part <;> rfl
  | @send _ _ _ _ _ _ bytes hc hlt hr =>
    have hnone : ((bytes.map Event.sent).map s.frameEvent).filterMap ServerEvent.wake = [] := by
      simp [List.filterMap_eq_nil_iff, frameEvent, ServerEvent.wake]
    simp only [Executor.wakes, List.filterMap_append, hnone, List.append_nil]
  | loopStopped hc _ | readFailed hc _ _ _ | readStopped hc _ | lengthRefused hc _ _
  | sendFailed hc _ _ | sendStopped hc _ => exact s.wakes_leave _
  | _ => rfl

omit [CharConv F] [DecidableEq ι] in
/-- A fire records its wake, if there is a callback. -/
lemma wakes_fire (s : Executor F ι) (moment : Moment) (message : WakeMessage F) :
    (s.fire moment message).wakes =
      s.wakes ++ if s.server.recordWakeRecv then [wakeRecvEvent moment message] else [] := by
  have hdispatch : ∀ request : Option (FireRequest F),
      ((request.map Event.dispatch).toList.map s.frameEvent).filterMap ServerEvent.wake = [] := by
    rintro (_ | request) <;> rfl
  simp only [wakes, fire, List.filterMap_append, List.map_append, List.map_cons,
    List.filterMap_cons, hdispatch]
  cases s.server.recordWakeRecv <;> simp [frameEvent, ServerEvent.wake]

/-- A step of `stop` leaves the serving thread where it is. -/
lemma Step.of_stop {i : ι} (hst : Step s (.stop i) t) : t.control = s.control ∧
    t.trace = s.trace ∧ t.server.ack = s.server.ack ∧ t.server.stats = s.server.stats := by
  cases hst <;> exact ⟨rfl, rfl, rfl, rfl⟩

end Executor

/-! ## Wakes and calls -/

namespace Process

variable [Double F] {s s' : Process F ι} {a : ProcessAction F ι}
  {hist : List (Process F ι × ProcessAction F ι)}

/-- The wake whose record was begun and which is not fired yet. -/
def pending (s : Process F ι) : List (WakeRecvEvent F) :=
  match s.thread with
  | .recording | .recorded => (s.executor.firing.map fun p => wakeRecvEvent p.1 p.2).toList
  | _ => []

/-- The server keeps its account, it has the callback if there is a sink, and `record` was called
with its wakes. -/
structure Linked (hist : List (Process F ι × ProcessAction F ι)) (s : Process F ι) : Prop where
  accounted : s.executor.Accounted
  dispatch : s.executor.server.dispatch = false
  callback : s.executor.server.recordWakeRecv = s.telemetry
  recording : s.thread = .recording ∨ s.thread = .recorded → s.telemetry = true
  calls : calls hist = (s.executor.wakes ++ s.pending).map WakeRecvEvent.latency

omit [Double F] in
/-- One more action, which begins a call of `record` or not. -/
@[simp]
lemma calls_snoc (hist : List (Process F ι × ProcessAction F ι)) (s : Process F ι)
    (a : ProcessAction F ι) : calls (hist ++ [(s, a)]) =
      calls hist ++ ((sinkEvent a).bind SinkEvent.called).toList := by
  rw [calls, storeHistory, List.filterMap_append, Store.sinkHistory, List.map_append, Sink.called,
    List.filterMap_append]
  cases a with
  | sink e => cases he : e.called <;> simp [calls, storeHistory, Store.sinkHistory, Sink.called,
      sinkEvent, he]
  | _ => simp [calls, storeHistory, Store.sinkHistory, Sink.called, sinkEvent]

variable [CharConv F] [DecidableEq ι]

/-- What the components keep by themselves. -/
private lemma Linked.components (hs : Linked hist s) (hst : Step s a s') :
    s'.executor.Accounted ∧ s'.executor.server.dispatch = false ∧
      s'.executor.server.recordWakeRecv = s'.telemetry ∧ s'.telemetry = s.telemetry := by
  have htelemetry : s'.telemetry = s.telemetry := by cases hst <;> rfl
  rw [htelemetry]
  rcases hst.executor with ⟨b, hb⟩ | ⟨d, hd⟩
  · obtain ⟨-, hdispatch, hrecord⟩ := hb.counts
    exact ⟨hs.accounted.step hb, hdispatch.trans hs.dispatch, hrecord.trans hs.callback, rfl⟩
  · have h := hs.accounted
    rw [hd]
    exact ⟨⟨h.frames, h.fires, h.records, h.dispatches, h.caused⟩, hs.dispatch, hs.callback, rfl⟩

omit [DecidableEq ι] [CharConv F] in
/-- A step that begins no call and fires nothing. -/
private lemma Linked.silent (hs : Linked hist s) (ha : (sinkEvent a).bind SinkEvent.called = none)
    (hwakes : s'.executor.wakes = s.executor.wakes) (hpending : s'.pending = s.pending) :
    Process.calls (hist ++ [(s, a)]) =
      (s'.executor.wakes ++ s'.pending).map WakeRecvEvent.latency := by
  rw [calls_snoc, ha, hwakes, hpending, hs.calls]
  exact List.append_nil _

/-- **Every step keeps the calls of `record` with the wakes.** -/
lemma Linked.step (hs : Linked hist s) (hst : Step s a s') : Linked (hist ++ [(s, a)]) s' := by
  obtain ⟨haccounted, hdispatch, hcallback, htelemetry⟩ := hs.components hst
  have hnone : ∀ {t : Process F ι}, t.thread ≠ .recording → t.thread ≠ .recorded →
      t.pending = [] := by
    intro t h h'
    unfold pending
    split <;> simp_all
  refine ⟨haccounted, hdispatch, hcallback, ?_, ?_⟩
  · rw [htelemetry]
    cases hst with
    | record ht ht' hfire hc => exact fun _ => ht'
    | recorded ht hst => exact fun _ => hs.recording (.inl ht)
    | signal hst ht | sink hst he hc => exact hs.recording
    | stopped ht hc =>
      simp only
      split_ifs <;> simp
    | serve ht _ _ _ _ => simp [ht]
    | _ => simp
  · cases hst with
    | sink hst he hc =>
      refine hs.silent ?_ rfl rfl
      rcases he with rfl | ⟨batch, rfl⟩ <;> rfl
    | serve ht hst hcall hstop hfire =>
      refine hs.silent rfl (hst.wakes_eq hfire) ?_
      rw [hnone (by simp [ht]) (by simp [ht]), hnone (by simp [ht]) (by simp [ht])]
    | signal hst ht =>
      obtain ⟨hcontrol, htrace, hack, -⟩ := hst.of_stop
      refine hs.silent rfl (by rw [Executor.wakes, htrace]; rfl) ?_
      simp only [pending, Executor.firing, hcontrol, hack]
    | record ht ht' hfire hc =>
      have hbefore : s.pending = [] := hnone (by simp [ht]) (by simp [ht])
      rw [calls_snoc, hs.calls, hbefore]
      simp [pending, withCaller, hfire, sinkEvent, SinkEvent.called]
    | recorded ht hst => exact hs.silent rfl rfl (by simp [pending, ht])
    | @fire moment message ht hfire =>
      have hafter : pending { s with
          executor := s.executor.fire moment message, thread := .serving } = [] :=
        hnone (by simp) (by simp)
      rw [calls_snoc, hs.calls, hafter, Executor.wakes_fire, hs.callback]
      rcases ht with ht | ⟨ht, ht'⟩
      · simp [pending, ht, hfire, hs.recording (.inr ht), sinkEvent]
      · simp [pending, ht, ht', sinkEvent]
    | opened ht hst | openFailed ht hst | closed ht hst | destroyed ht hst | open_ ht hc hj
    | close ht hc | destroy ht ht' hc | exit ht ht' =>
      refine hs.silent rfl rfl ?_
      rw [hnone (by simp) (by simp), hnone (by simp [ht]) (by simp [ht])]
    | listen ht calls hd | listenFailed ht calls hd =>
      refine hs.silent rfl rfl ?_
      rw [hnone (by simp) (by simp), hnone (by simp [ht]) (by simp [ht])]
    | stopped ht hc =>
      refine hs.silent rfl rfl ?_
      have hthread : ∀ b : Bool, (if b then MainThread.stopped else .leaving 0) ≠ .recording ∧
          (if b then MainThread.stopped else .leaving 0) ≠ .recorded := by decide
      rw [hnone (hthread _).1 (hthread _).2, hnone (by simp [ht]) (by simp [ht])]

end Process

/-! ## After `close` -/

namespace Store

variable {hist : List (Store F × SinkEvent F)} {s t : Store F} {e : SinkEvent F}

/-- `close` returns from its last step only. -/
private lemma of_closeReturned (hst : s.Step .closeReturned t) : s.sink.caller = .closeResetting ∧
    t = { sink := { s.sink with caller := .idle, connected := false }
          written := { s.written with db := s.written.db.close } } := by
  generalize he : SinkEvent.closeReturned = e at hst
  cases hst with
  | call hw ha => cases he
  | closeReset hc => exact ⟨hc, rfl⟩
  | other hs hw hc =>
    subst he
    obtain ⟨hcaller, ht⟩ := Sink.of_closeReturned hs
    have := hc hcaller
    rw [ht] at this
    cases this

/-- The sink was closed: it has no writer, its counters account for the calls of `record`, and the
durable rows are those counted as written. -/
structure Finished (hist : List (Store F × SinkEvent F)) (s : Store F) : Prop where
  writer : s.sink.writer = .absent
  joinable : s.sink.joinable = false
  caller : s.sink.caller = .idle ∨ s.sink.caller = .closeResetting
  calls : (Sink.called (sinkHistory hist)).length = s.sink.rowsWritten +
    s.sink.droppedRingFull + s.sink.droppedOversizedId + s.sink.droppedWriteFailed
  durable : s.written.db.durable.latencyEvents.length = s.sink.rowsWritten

/-- A sink that is finished does nothing any more by itself. -/
private lemma Finished.stuck (hs : Finished hist s) (hst : s.Step e t)
    (he : e = .internal ∨ ∃ batch, e = .handed batch)
    (hc : s.sink.caller = .idle → t.sink.caller = .idle) : False := by
  obtain ⟨hw, hj, hcaller, -, -⟩ := hs
  have hsink := hst.sink
  generalize t.sink = u at hsink hc
  cases hsink with
  | recordCall _ _ | closeReset _ | openAlready _ _ => simp at he
  | writerPopped hw' _ | writerEmpty hw' _ | writerLoad hw' | writerPop hw' _ | writerCall hw' _
  | writerDone hw' => simp [hw] at hw'
  | openCall hc' _ | closeUnopened hc' _ => simp [hc'] at hc
  | closeCall _ hj' => simp [hj] at hj'
  | openAnswer hc' _ | openFailed hc' | openConnected hc' | openStore hc' | openStart hc'
  | recordOversized hc' | recordPush hc' _ | recordPushed hc' _ | recordRefused hc' _
  | recordFull hc' | closeStore hc' | closeJoin hc' _ => simp [hc'] at hcaller

end Store

/-! ## What was printed -/

namespace Process

variable [Double F] [CharConv F] [DecidableEq ι] {s s' : Process F ι} {a : ProcessAction F ι}
  {hist : List (Process F ι × ProcessAction F ι)}

/-- The sink is open. -/
def opened (hist : List (Process F ι × ProcessAction F ι)) : Bool :=
  Sink.opened (Store.sinkHistory (storeHistory hist))

omit [Double F] [CharConv F] [DecidableEq ι] in
/-- Whether the sink is open after one more action. -/
@[simp]
lemma opened_snoc (hist : List (Process F ι × ProcessAction F ι)) (s : Process F ι)
    (a : ProcessAction F ι) : opened (hist ++ [(s, a)]) =
      match sinkEvent a with
      | some e => e.opened (opened hist)
      | none => opened hist := by
  cases a <;> simp [opened, storeHistory, Store.sinkHistory, sinkEvent, Sink.opened]

/-- **The sink is open as long as the process uses it.** -/
private lemma opened_step (hs : s.telemetry = true → s.thread.uses = true → opened hist = true)
    (hst : Step s a s') : s'.telemetry = true → s'.thread.uses = true →
      opened (hist ++ [(s, a)]) = true := by
  rw [opened_snoc]
  cases hst with
  | open_ ht hc hj => simp [MainThread.uses]
  | opened ht hst => exact fun _ _ => rfl
  | openFailed ht hst => simp [MainThread.uses]
  | sink hst he hc =>
    intro htelemetry huses
    rcases he with rfl | ⟨batch, rfl⟩ <;> exact hs htelemetry huses
  | signal hst ht | serve ht hst _ _ _ => exact hs
  | listen ht calls hd | record ht _ hfire hc | close ht hc | recorded ht hst =>
    exact fun htelemetry _ => hs htelemetry (by rw [ht]; rfl)
  | stopped ht hc => exact fun htelemetry _ => hs htelemetry (by rw [ht]; rfl)
  | fire ht hfire =>
    refine fun htelemetry _ => hs htelemetry ?_
    rcases ht with ht | ⟨ht, -⟩ <;> rw [ht] <;> rfl
  | listenFailed ht calls hd | closed ht hst | destroy ht _ hc | destroyed ht hst | exit ht _ =>
    simp [MainThread.uses]

/-- The exit code is 0 and everything was printed. -/
structure Ended (hist : List (Process F ι × ProcessAction F ι)) (s : Process F ι) : Prop where
  control : s.executor.control = .returned
  finished : s.telemetry = true → s.store.Finished (storeHistory hist)
  output : s.output = .frames s.executor.server.stats :: if s.telemetry then
    [.telemetry s.store.sink.rowsWritten s.store.sink.droppedRingFull
      s.store.sink.droppedOversizedId s.store.sink.droppedWriteFailed] else []

/-- What was printed, by where the main thread is. -/
def Told (hist : List (Process F ι × ProcessAction F ι)) (s : Process F ι) : Prop :=
  match s.thread with
  | .stopped | .closing => s.telemetry = true ∧ s.executor.control = .returned ∧
    s.output = [.frames s.executor.server.stats]
  | .leaving code | .destroying code | .exited code => code = 0 → Ended hist s
  | _ => s.output = []

omit [Double F] [CharConv F] [DecidableEq ι] in
/-- One more action that begins no call of `record`. -/
private lemma finished_snoc (hnone : (sinkEvent a).bind SinkEvent.called = none) {t : Store F}
    (ht : t.Finished (storeHistory hist)) : t.Finished (storeHistory (hist ++ [(s, a)])) := by
  have hcalls : Sink.called (Store.sinkHistory (storeHistory (hist ++ [(s, a)]))) =
      Sink.called (Store.sinkHistory (storeHistory hist)) := by
    have h := calls_snoc hist s a
    rw [hnone] at h
    exact h.trans (List.append_nil _)
  exact ⟨ht.writer, ht.joinable, ht.caller, by rw [hcalls]; exact ht.calls, ht.durable⟩

/-- A signal leaves what was printed true. -/
private lemma Ended.signal (hs : Ended hist s) {i : ι} {t : Executor F ι}
    (hst : s.executor.Step (.stop i) t) :
    Ended (hist ++ [(s, .server (.stop i))]) { s with executor := t } := by
  obtain ⟨hcontrol, -, -, hstats⟩ := hst.of_stop
  refine ⟨hcontrol.trans hs.control, fun h => finished_snoc rfl (hs.finished h), ?_⟩
  simp only [hstats]
  exact hs.output

omit [Double F] [CharConv F] [DecidableEq ι] in
/-- A step of the sink leaves what was printed, if the sink stays finished. -/
private lemma Ended.sink (hs : Ended hist s) {e : SinkEvent F} {t : Store F}
    (hst : s.store.Step e t) (he : e = .internal ∨ ∃ batch, e = .handed batch)
    (hc : s.store.sink.caller = .idle → t.sink.caller = .idle) :
    Ended (hist ++ [(s, .sink e)]) { s with store := t } := by
  have htelemetry : s.telemetry = false := by
    cases h : s.telemetry with
    | false => rfl
    | true => exact ((hs.finished h).stuck hst he hc).elim
  refine ⟨hs.control, by simp [htelemetry], ?_⟩
  simpa [htelemetry] using hs.output

omit [Double F] [CharConv F] [DecidableEq ι] in
/-- The second call of `close` leaves what was printed. -/
private lemma Ended.destroy (hs : Ended hist s) (htelemetry : s.telemetry = true) (code : ℕ) :
    Ended (hist ++ [(s, .sink .internal)]) { s.withCaller
      (if s.store.sink.joinable then .closeStoring else .closeResetting) with
      thread := .destroying code } := by
  have hf := hs.finished htelemetry
  refine ⟨hs.control, fun _ => finished_snoc rfl ?_, hs.output⟩
  exact ⟨hf.writer, hf.joinable, .inr (by simp [withCaller, hf.joinable]), hf.calls, hf.durable⟩

omit [Double F] [CharConv F] [DecidableEq ι] in
/-- The return of the second call of `close` leaves what was printed. -/
private lemma Ended.destroyed (hs : Ended hist s) {t : Store F}
    (hst : s.store.Step .closeReturned t) (code : ℕ) :
    Ended (hist ++ [(s, .sink .closeReturned)]) { s with store := t, thread := .exited code } := by
  obtain ⟨-, rfl⟩ := Store.of_closeReturned hst
  refine ⟨hs.control, fun h => finished_snoc rfl ?_, hs.output⟩
  have hf := hs.finished h
  exact ⟨hf.writer, hf.joinable, .inl rfl, hf.calls, hf.durable⟩

/-- When `close` returns, everything was printed. -/
private lemma Ended.closed {line : CommandLine} (hr : Run Step (new line) hist s)
    (hopened : opened hist = true) (htelemetry : s.telemetry = true)
    (hcontrol : s.executor.control = .returned)
    (houtput : s.output = [.frames s.executor.server.stats]) {t : Store F}
    (hst : s.store.Step .closeReturned t) :
    Ended (hist ++ [(s, .sink .closeReturned)])
      { s with
        store := t
        thread := .leaving 0
        output := s.output ++ [.telemetry t.sink.rowsWritten t.sink.droppedRingFull
          t.sink.droppedOversizedId t.sink.droppedWriteFailed] } := by
  obtain ⟨hw, hj, hcalls, hdurable⟩ := Store.closed_of_run (run_store hr) hst hopened
  refine ⟨hcontrol, fun _ => finished_snoc rfl ⟨hw, hj, .inl ?_, hcalls, hdurable⟩, ?_⟩
  · rw [(Store.of_closeReturned hst).2]
  · simp [houtput, htelemetry]

/-- **Every step keeps what was printed true.** -/
private lemma Told.step {line : CommandLine} (hr : Run Step (new line) hist s)
    (hopened : s.telemetry = true → s.thread.uses = true → opened hist = true)
    (hs : Told hist s) (hst : Step s a s') : Told (hist ++ [(s, a)]) s' := by
  cases hst with
  | open_ ht hc hj => simpa [Told, ht, withCaller] using hs
  | opened ht hst => simpa [Told, ht] using hs
  | openFailed ht hst => simp [Told]
  | listen ht calls hd => simpa [Told, ht] using hs
  | listenFailed ht calls hd => simp [Told]
  | serve ht hst _ _ _ => simpa [Told, ht] using hs
  | record ht _ hfire hc => simpa [Told, ht, withCaller] using hs
  | recorded ht hst => simpa [Told, ht] using hs
  | fire ht hfire => rcases ht with ht | ⟨ht, -⟩ <;> simpa [Told, ht] using hs
  | sink hst he hc =>
    unfold Told at hs ⊢
    cases ht : s.thread with
    | leaving code | destroying code | exited code =>
      rw [ht] at hs
      intro h
      rw [← ht]
      exact (hs h).sink hst he hc
    | _ => simpa [ht] using hs
  | @signal i t hst hi =>
    obtain ⟨hcontrol, -, -, hstats⟩ := hst.of_stop
    unfold Told at hs ⊢
    cases ht : s.thread with
    | leaving code | destroying code | exited code =>
      rw [ht] at hs
      intro h
      rw [← ht]
      exact (hs h).signal hst
    | _ => simpa [ht, hcontrol, hstats] using hs
  | stopped ht hc =>
    have houtput : s.output = [] := by simpa [Told, ht] using hs
    cases htelemetry : s.telemetry with
    | true => simp [Told, hc, houtput]
    | false => exact fun _ => ⟨hc, by simp, by simp [houtput]⟩
  | close ht hc => simpa [Told, ht, withCaller] using hs
  | closed ht hst =>
    obtain ⟨htelemetry, hcontrol, houtput⟩ : s.telemetry = true ∧
        s.executor.control = .returned ∧ s.output = [.frames s.executor.server.stats] := by
      simpa [Told, ht] using hs
    exact fun _ => .closed hr (hopened htelemetry (by rw [ht]; rfl)) htelemetry hcontrol houtput hst
  | @destroy code ht htelemetry hc =>
    have hs' : code = 0 → Ended hist s := by simpa [Told, ht] using hs
    exact fun h => (hs' h).destroy htelemetry code
  | @destroyed code t ht hst =>
    have hs' : code = 0 → Ended hist s := by simpa [Told, ht] using hs
    exact fun h => (hs' h).destroyed hst code
  | @exit code ht htelemetry =>
    have hs' : code = 0 → Ended hist s := by simpa [Told, ht] using hs
    exact fun h => ⟨(hs' h).control, by simp [htelemetry], (hs' h).output⟩

/-! ## Whole runs -/

variable {line : CommandLine}

omit [CharConv F] [DecidableEq ι] in
/-- In a new process the components agree. -/
private lemma linked_new (line : CommandLine) : Linked [] (new (F := F) (ι := ι) line) := by
  refine ⟨⟨rfl, rfl, ?_, rfl, caused_of_none (by simp [new, Executor.new])⟩, rfl, rfl, ?_, ?_⟩
  · cases h : (new (F := F) (ι := ι) line).executor.server.recordWakeRecv <;> rfl
  · simp only [new]
    split_ifs <;> simp
  · simp only [new, pending]
    split_ifs <;> rfl

/-- The invariants hold in every run. -/
lemma invariants (hr : Run Step (new line) hist s) :
    Linked hist s ∧ Told hist s ∧ s.telemetry = decide (line.telemetryDbPath ≠ []) := by
  suffices h : Linked hist s ∧ Told hist s ∧ s.telemetry = decide (line.telemetryDbPath ≠ []) ∧
      (s.telemetry = true → s.thread.uses = true → opened hist = true) from ⟨h.1, h.2.1, h.2.2.1⟩
  refine hr.history_invariant (I := fun hist s => Linked hist s ∧ Told hist s ∧
    s.telemetry = decide (line.telemetryDbPath ≠ []) ∧
      (s.telemetry = true → s.thread.uses = true → opened hist = true)) ?_ ?_
  · refine ⟨linked_new line, ?_, rfl, ?_⟩
    · by_cases hpath : line.telemetryDbPath = [] <;> simp [Told, new, hpath]
    · by_cases hpath : line.telemetryDbPath = [] <;> simp [new, hpath, MainThread.uses]
  · rintro hist s a s' hr ⟨hlinked, htold, htelemetry, hopened⟩ hst
    refine ⟨hlinked.step hst, htold.step hr hopened hst, ?_, opened_step hopened hst⟩
    exact (hlinked.components hst).2.2.2.trans htelemetry

/-- The durable rows hold some of the wakes. -/
lemma durable_of_run (hr : Run Step (new line) hist s) :
    ∃ events : List (LatencyEvent F),
      events.Sublist ((s.executor.wakes ++ s.pending).map WakeRecvEvent.latency) ∧
      s.store.written.db.durable.latencyEvents = events.map LatencyEvent.columns := by
  have hstore := run_store hr
  obtain ⟨hlinked, -, -⟩ := invariants hr
  obtain ⟨events, hsub, hdurable, -⟩ := Store.durable_of_run hstore
  obtain ⟨l, hcalled, hreturned⟩ := Store.returned_of_run (Store.run_sink hstore)
  refine ⟨events, ?_, hdurable⟩
  rw [← hlinked.calls, calls, hcalled]
  exact (hsub.trans hreturned).trans (List.sublist_append_left l _)

/-- When the process has exited with code 0, everything was printed. -/
lemma ended_of_run (hr : Run Step (new line) hist s) (hexit : s.thread = .exited 0) :
    Ended hist s := by
  obtain ⟨-, htold, -⟩ := invariants hr
  unfold Told at htold
  rw [hexit] at htold
  exact htold rfl

/-- When the process has exited with code 0 and has a sink, the counters of the sink add up to the
wakes, and the rows it counts as written are the durable ones. -/
lemma counted_of_run (hr : Run Step (new line) hist s) (hexit : s.thread = .exited 0)
    (hpath : line.telemetryDbPath ≠ []) :
    s.executor.server.recordWakeRecv = true ∧
      s.store.sink.rowsWritten + s.store.sink.droppedRingFull + s.store.sink.droppedOversizedId +
        s.store.sink.droppedWriteFailed = s.executor.wakes.length ∧
      ∃ events : List (LatencyEvent F), events.length = s.store.sink.rowsWritten ∧
        events.Sublist (s.executor.wakes.map WakeRecvEvent.latency) ∧
        s.store.written.db.durable.latencyEvents = events.map LatencyEvent.columns := by
  obtain ⟨hlinked, -, htelemetry⟩ := invariants hr
  have hsink : s.telemetry = true := by simp [htelemetry, hpath]
  have hf := (ended_of_run hr hexit).finished hsink
  have hnone : s.pending = [] := by
    unfold pending
    rw [hexit]
  have hcalls := congrArg List.length hlinked.calls
  rw [hnone, List.append_nil, List.length_map, calls, hf.calls] at hcalls
  obtain ⟨events, hsub, hdurable⟩ := durable_of_run hr
  rw [hnone, List.append_nil] at hsub
  refine ⟨hlinked.callback.trans hsink, hcalls, events, ?_, hsub, hdurable⟩
  rw [← hf.durable, hdurable, List.length_map]

/-- A process with a sink may be sent its first message, write the row of it, and exit. -/
private lemma run_first :
    ∃ (hist : List (Process SignedZero Unit × ProcessAction SignedZero Unit))
      (s : Process SignedZero Unit), Run Step (new ⟨[115], [], [116]⟩) hist s ∧
        s.thread = .exited 0 ∧ s.store.written.db.durable.latencyEvents.length = 1 := by
  obtain ⟨header, length, -, hd, hbody⟩ := exists_header firstWake.body (by decide +kernel)
  exact run_wake (by simp) (by decide) hd hbody (by decide +kernel) decode_firstWake
    (by decide) ⟨0, 0, 0, 0, ⟨0, ⟨false, false⟩⟩⟩

/-- **What is durable while the process runs.** In every run of the process over a database whose
tables start empty, whatever its peers send and take, whatever signals and SQLite do: the durable
latency events are those of some of the messages whose accepted ack was sent whole, in the order
they were answered in, and each of them has its parent row, which is there once. -/
theorem durable_wakes (hr : Run Step (new line) hist s) :
    (∃ events : List (LatencyEvent F),
      events.Sublist ((s.executor.wakes ++ s.pending).map WakeRecvEvent.latency) ∧
      s.store.written.db.durable.latencyEvents = events.map LatencyEvent.columns) ∧
    (∀ columns ∈ s.store.written.db.durable.latencyEvents,
      columns.correlationId ∈ s.store.written.db.durable.correlations) ∧
    s.store.written.db.durable.correlations.Nodup := by
  have hsound := Store.sound_of_run (run_store hr)
  exact ⟨durable_of_run hr, hsound.durable.parent, hsound.durable.unique⟩

/-- A process that was sent one message and has exited, with one durable row. -/
theorem durable_wakes_exited :
    ∃ (hist : List (Process SignedZero Unit × ProcessAction SignedZero Unit))
      (s : Process SignedZero Unit), Run Step (new ⟨[115], [], [116]⟩) hist s ∧
        s.thread = .exited 0 ∧ s.store.written.db.durable.latencyEvents.length = 1 ∧
        (∀ columns ∈ s.store.written.db.durable.latencyEvents,
          columns.correlationId ∈ s.store.written.db.durable.correlations) ∧
        ∃ events : List (LatencyEvent SignedZero),
          events.Sublist ((s.executor.wakes ++ s.pending).map WakeRecvEvent.latency) ∧
          s.store.written.db.durable.latencyEvents = events.map LatencyEvent.columns := by
  obtain ⟨hist, s, hr, hexit, hone⟩ := run_first
  obtain ⟨hevents, hparent, -⟩ := durable_wakes hr
  exact ⟨hist, s, hr, hexit, hone, hparent, hevents⟩

/-- **What a process that ends has accounted for.** When a process over a database whose tables
start empty exits with code 0, then what it printed is the counters of the server and, if it has a
sink, those of the sink: every frame that was read was accepted or rejected; every accepted one was
fired, unless the send of its ack failed; no order was dispatched; and the counters of the sink add
up to the fires, the rows it wrote being exactly those that are durable, in the order of the
fires. -/
theorem exit_accounts (hr : Run Step (new line) hist s) (hexit : s.thread = .exited 0) :
    ∃ (stats : ExecutorStats) (rowsWritten ringFull oversizedId writeFailed : ℕ),
      s.output = .frames stats :: (if line.telemetryDbPath ≠ [] then
        [.telemetry rowsWritten ringFull oversizedId writeFailed] else []) ∧
      stats.framesRead = stats.acksAccepted + stats.acksRejected ∧
      stats.fires + s.executor.trace.countP ServerEvent.isLost = stats.acksAccepted ∧
      s.executor.trace.countP ServerEvent.isDispatched = 0 ∧
      (line.telemetryDbPath ≠ [] → s.executor.wakes.length = stats.fires ∧
        rowsWritten + ringFull + oversizedId + writeFailed = stats.fires ∧
        ∃ events : List (LatencyEvent F), events.length = rowsWritten ∧
          events.Sublist (s.executor.wakes.map WakeRecvEvent.latency) ∧
          s.store.written.db.durable.latencyEvents = events.map LatencyEvent.columns) := by
  obtain ⟨hlinked, -, htelemetry⟩ := invariants hr
  obtain ⟨hcontrol, -, houtput⟩ := ended_of_run hr hexit
  have hpending : s.executor.control.pending = none := by
    rw [hcontrol]
    rfl
  have hfires := hlinked.accounted.fires
  rw [hpending] at hfires
  refine ⟨s.executor.server.stats, s.store.sink.rowsWritten, s.store.sink.droppedRingFull,
    s.store.sink.droppedOversizedId, s.store.sink.droppedWriteFailed, ?_,
    hlinked.accounted.frames, hfires, ?_, fun hpath => ?_⟩
  · simpa only [htelemetry, decide_eq_true_eq] using houtput
  · rw [hlinked.accounted.dispatches, hlinked.dispatch]
    rfl
  · obtain ⟨hrecords, hcounted, hevents⟩ := counted_of_run hr hexit hpath
    have hwakes : s.executor.wakes.length = s.executor.server.stats.fires := by
      rw [Executor.length_wakes, hlinked.accounted.records, hrecords]
      rfl
    exact ⟨hwakes, hcounted.trans hwakes, hevents⟩

/-- The process that was sent one message has printed that one row was written, and that it fired
this message and those whose rows were dropped. -/
theorem exit_accounts_exited :
    ∃ (hist : List (Process SignedZero Unit × ProcessAction SignedZero Unit))
      (s : Process SignedZero Unit) (stats : ExecutorStats) (ringFull oversizedId writeFailed : ℕ),
      Run Step (new ⟨[115], [], [116]⟩) hist s ∧ s.thread = .exited 0 ∧
        s.output = [.frames stats, .telemetry 1 ringFull oversizedId writeFailed] ∧
        s.executor.wakes.length = stats.fires ∧
        1 + ringFull + oversizedId + writeFailed = stats.fires ∧
        s.executor.trace.countP ServerEvent.isDispatched = 0 := by
  obtain ⟨hist, s, hr, hexit, hone⟩ := run_first
  obtain ⟨stats, w, r, o, f, houtput, -, -, hdispatched, htelemetry⟩ := exit_accounts hr hexit
  obtain ⟨hwakes, hcounted, events, hlength, -, hdurable⟩ := htelemetry (by simp)
  obtain rfl : w = 1 := by rw [← hlength, ← hone, hdurable, List.length_map]
  exact ⟨hist, s, stats, r, o, f, hr, hexit, houtput, hwakes, hcounted, hdispatched⟩

end Process

end Hotpath
