import Hotpath.Bench.AckedFires
import Hotpath.Process.Accounting

set_option relaxedAutoImplicit false
set_option autoImplicit false

/-!
# From the ack to the row

The process with the client of one of its connections. Every run of the two is a run of the process
and one of the exchange, which have the server in common, so what holds of each holds of it: what
the client was told to be accepted was fired, and what was fired is counted when the process exits.

## Main definitions

* `Hotpath.Executor.Recorded` — each fire has a wake.
* `Hotpath.Deployment`, `Hotpath.Deployment.Step` — the process and the client.

## Main results

* `Hotpath.Deployment.accepted_accounted` — what became of every accepted message.
-/

namespace Hotpath

open System (Run)

variable {F ι : Type}

/-! ## The server over whole runs -/

namespace Executor

/-- The buffer of the length prefix has its size while a connection is served. -/
def Buffered (s : Executor F ι) : Prop :=
  s.place = .looping ∨ s.place = .reading ∨ s.place = .sending →
    s.framePrefix.length = kFrameLengthBytes

/-- The wakes are those of the fires, if there is a callback. -/
def Recorded (s : Executor F ι) : Prop :=
  s.server.recordWakeRecv = true →
    s.wakes.map WakeRecvEvent.correlationId =
      (firedIn s.trace).map WakeMessage.correlationId

variable [Double F] [CharConv F] [DecidableEq ι] {s t : Executor F ι} {a : ServerAction ι}

/-- A step that is not a fire adds neither a fire nor a wake. -/
lemma Step.fired_wakes (hst : Step s a t) :
    (firedIn t.trace = firedIn s.trace ∧ t.wakes = s.wakes) ∨
      ∃ moment message, t = s.fire moment message := by
  obtain ⟨hcounts, -, -⟩ := hst.counts
  cases hcounts with
  | silent _ _ htrace => exact .inl ⟨by rw [htrace], by rw [Executor.wakes, Executor.wakes, htrace]⟩
  | answers moment _ ht => exact .inl (ht ▸ ⟨rfl, rfl⟩)
  | sends bytes _ _ _ htrace =>
    refine .inl ⟨by rw [htrace]; exact firedIn_sent _ _ _, ?_⟩
    have hnone : ((bytes.map Event.sent).map s.frameEvent).filterMap ServerEvent.wake = [] := by
      simp [List.filterMap_eq_nil_iff, frameEvent, ServerEvent.wake]
    rw [Executor.wakes, htrace, List.filterMap_append, hnone, List.append_nil]
    rfl
  | fires moment message _ ht => exact .inr ⟨moment, message, ht⟩
  | ends ending _ ht => exact .inl (ht ▸ ⟨firedIn_ended _ _, wakes_leave _ _⟩)

/-- A step of the server that is taken where a message is to be fired fires it. -/
lemma Step.firing_none (hst : Step s a t) (hstop : ∀ i, a ≠ .stop i) :
    s.firing = none ∨ ∃ moment message, s.firing = some (moment, message) ∧
      t = s.fire moment message := by
  cases hst with
  | fire hc hle => exact .inr ⟨_, _, by simp [firing, hc, hle], rfl⟩
  | send hc hlt hr | sendFailed hc hlt hr | sendInterrupted hc hlt hr =>
    refine .inl ?_
    unfold firing
    split
    · next hc' =>
      rw [hc] at hc'
      cases hc'
      rw [if_neg (by omega)]
    · rfl
  | stopStore | stopWrite | stopLoad | stopShutdown => exact absurd rfl (hstop _)
  | _ => simp_all [firing]

/-- What is about to be fired is fired next, or still about to be fired. -/
lemma Step.of_firing {moment : Moment} {message : WakeMessage F} (hst : Step s a t)
    (hfiring : s.firing = some (moment, message)) :
    (t.firing = some (moment, message) ∧ firedIn t.trace = firedIn s.trace) ∨
      firedIn t.trace = firedIn s.trace ++ [message] := by
  by_cases hstop : ∃ i, a = .stop i
  · obtain ⟨i, rfl⟩ := hstop
    obtain ⟨hcontrol, htrace, hack, -⟩ := hst.of_stop
    refine .inl ⟨?_, by rw [htrace]⟩
    rw [← hfiring]
    simp only [firing, hcontrol, hack]
  · rcases hst.firing_none fun i hi => hstop ⟨i, hi⟩ with hnone | ⟨moment', message', hsome, rfl⟩
    · rw [hnone] at hfiring
      cases hfiring
    · rw [hfiring] at hsome
      cases hsome
      exact .inr (firedIn_fire _ _ _)

/-- A step of the server adds at most one message to what was fired. -/
lemma Step.fired (hst : Step s a t) : ∃ later, firedIn t.trace = firedIn s.trace ++ later := by
  rcases hst.fired_wakes with ⟨hfired, -⟩ | ⟨moment, message, rfl⟩
  · exact ⟨[], by rw [hfired, List.append_nil]⟩
  · exact ⟨[message], firedIn_fire s moment message⟩

/-- Every step keeps a wake for each fire. -/
lemma Recorded.step (h : s.Recorded) (hst : Step s a t) : t.Recorded := by
  intro hrecord
  rw [hst.counts.2.2] at hrecord
  rcases hst.fired_wakes with ⟨hfired, hwakes⟩ | ⟨moment, message, rfl⟩
  · rw [hfired, hwakes, h hrecord]
  · rw [firedIn_fire, wakes_fire, hrecord, if_pos rfl, List.map_append, List.map_append, h hrecord]
    rfl

/-- A step keeps the size of the buffer of the length prefix. -/
lemma Buffered.step (h : s.Buffered) (hst : Step s a t) : t.Buffered := by
  unfold Buffered place at *
  cases hst with
  | publish hc hk => exact fun _ => List.length_replicate
  | @read part filled got _ _ read hc hlt hr =>
    intro _
    have hlength := h (by simp [hc, Control.place])
    obtain ⟨hread, hroom⟩ := Connection.length_of_read hr
    cases part with
    | framePrefix =>
      refine Eq.trans (take_fill ?_).2 hlength
      omega
    | body => exact hlength
  | start hc | pollAgain hc | polled hc | acceptReturn hc | finish hc =>
    simp only [Control.place]
    split_ifs <;> simp
  | _ => simp_all [Control.place, leave, fire, answer, stopper]

end Executor

namespace Exchange

variable [Double F] [CharConv F] [DecidableEq ι] {s t : Exchange F ι} {event : ClientEvent F}

/-- A step of the exchange only adds to what was fired. -/
lemma Step.fired (hst : Step s event t) :
    ∃ later, firedIn t.executor.trace = firedIn s.executor.trace ++ later := by
  rcases hst.executor with heq | ⟨a, ha⟩
  · exact ⟨[], by rw [heq, List.append_nil]⟩
  · exact ha.fired

/-- A run of the exchange only adds to what was fired. -/
lemma fired_of_run {h : List (Exchange F ι × ClientEvent F)} (hr : Run Step s h t) :
    ∃ later, firedIn t.executor.trace = firedIn s.executor.trace ++ later :=
  hr.grows (fun s => firedIn s.executor.trace) fun _ _ _ hst => hst.fired

/-- A server that sends an ack may be done with it after at most two steps of its own: it fires a
message whose ack was sent whole, or fires nothing. -/
lemma Fires.reach_done {before : List (WakeMessage F)} (h : Fires before s)
    (hplace : s.executor.place = .sending) :
    ∃ h t, Run Step s h t ∧ (∀ p ∈ h, p.2 = .internal) ∧ t.executor.place ≠ .sending ∧
      (firedIn t.executor.trace = firedIn s.executor.trace ∨
        ∃ moment message, s.executor.firing = some (moment, message) ∧
          firedIn t.executor.trace = firedIn s.executor.trace ++ [message]) := by
  obtain ⟨done, rest, -, -, hrest⟩ := h
  have hserves : s.Serves := .inr (.inr hplace)
  have hsend : ∀ l, (⟨[], false, [], [], some 0⟩ : Connection).send l =
      (.failed, [], ⟨[], false, [], [], some 0⟩) := fun _ => rfl
  unfold Executor.place Control.place at hplace
  cases hc : s.executor.control with
  | sending moment decoded sent =>
    by_cases hle : s.executor.server.ack.length ≤ sent
    · cases decoded with
      | error error =>
        exact ⟨_, _, .cons (.server hserves (.rejected hc hle)) .nil, by simp, by rintro ⟨⟩,
          .inl rfl⟩
      | ok message =>
        exact ⟨_, _, .cons (.server hserves (.fire hc hle)) .nil, by simp, by rintro ⟨⟩,
          .inr ⟨moment, message, by simp [Executor.firing, hc, hle], firedIn_fire _ _ _⟩⟩
    · exact ⟨_, _, .cons (.server hserves (.sendFailed hc (not_le.mp hle) (hsend _))) .nil, by simp,
        by rintro ⟨⟩, .inl (firedIn_ended _ _)⟩
  | sendInterrupted moment decoded sent =>
    rw [hc] at hrest
    cases hs : s.executor.server.stopping with
    | true =>
      exact ⟨_, _, .cons (.server hserves (.sendStopped hc hs)) .nil, by simp, by rintro ⟨⟩,
        .inl (firedIn_ended _ _)⟩
    | false =>
      exact ⟨_, _, .cons (.server hserves (.sendAgain hc hs))
        (.cons (.server (.inr (.inr rfl)) (.sendFailed rfl hrest.1 (hsend _))) .nil), by simp,
        by rintro ⟨⟩, .inl (firedIn_ended _ _)⟩
  | _ => simp [hc] at hplace

end Exchange

namespace Process

variable [Double F] [CharConv F] [DecidableEq ι] {s s' : Process F ι} {a : ProcessAction F ι}
  {hist : List (Process F ι × ProcessAction F ι)}

/-- An action of the process only adds to what was fired. -/
lemma Step.fired (hst : Step s a s') :
    ∃ later, firedIn s'.executor.trace = firedIn s.executor.trace ++ later := by
  rcases hst.executor with ⟨b, hb⟩ | ⟨d, hd⟩
  · exact hb.fired
  · exact ⟨[], by rw [hd, List.append_nil]⟩

/-- A run of the process only adds to what was fired. -/
lemma fired_of_run {s₀ : Process F ι} (hr : Run Step s₀ hist s) :
    ∃ later, firedIn s.executor.trace = firedIn s₀.executor.trace ++ later :=
  hr.grows (fun s => firedIn s.executor.trace) fun _ _ _ hst => hst.fired

/-- What is about to be fired is fired before the server returns. -/
lemma fired_of_firing {s₀ : Process F ι} {moment : Moment} {message : WakeMessage F}
    (hfiring : s₀.executor.firing = some (moment, message)) (hr : Run Step s₀ hist s)
    (hreturned : s.executor.control = .returned) :
    ∃ later, firedIn s.executor.trace = firedIn s₀.executor.trace ++ message :: later := by
  have hI : (s.executor.firing = some (moment, message) ∧
      firedIn s.executor.trace = firedIn s₀.executor.trace) ∨
      ∃ later, firedIn s.executor.trace = firedIn s₀.executor.trace ++ message :: later := by
    refine hr.invariant (I := fun s => (s.executor.firing = some (moment, message) ∧
      firedIn s.executor.trace = firedIn s₀.executor.trace) ∨
      ∃ later, firedIn s.executor.trace = firedIn s₀.executor.trace ++ message :: later)
      (.inl ⟨hfiring, rfl⟩) ?_
    rintro s a s' hI hst
    rcases hI with ⟨hf, hsame⟩ | ⟨later, hlater⟩
    · rcases hst.executor with ⟨b, hb⟩ | ⟨d, hd⟩
      · rw [← hsame]
        exact (hb.of_firing hf).imp_right fun h => ⟨[], h⟩
      · rw [hd]
        exact .inl ⟨hf, hsame⟩
    · obtain ⟨more, hmore⟩ := hst.fired
      exact .inr ⟨later ++ more, by rw [hmore, hlater, List.append_assoc, List.cons_append]⟩
  rcases hI with ⟨hf, -⟩ | hlater
  · simp [Executor.firing, hreturned] at hf
  · exact hlater

/-- In every run the server has its buffer, and a wake for each fire. -/
lemma kept_of_run {line : CommandLine} (hr : Run Step (new line) hist s) :
    s.executor.Buffered ∧ s.executor.Recorded := by
  refine hr.invariant (I := fun s => s.executor.Buffered ∧ s.executor.Recorded) ?_ ?_
  · refine ⟨?_, fun _ => rfl⟩
    rintro (h | h | h) <;> cases h
  · rintro s a s' ⟨hbuffered, hrecorded⟩ hst
    rcases hst.executor with ⟨b, hb⟩ | ⟨d, hd⟩
    · exact ⟨hbuffered.step hb, hrecorded.step hb⟩
    · rw [hd]
      exact ⟨hbuffered, hrecorded⟩

/-- What a process with a sink accounts for when it has exited with code 0: its counters add up to
the fires, and the ids of the durable rows, as many as it counts as written, are some of those that
were fired, in their order. -/
lemma rows_of_run {line : CommandLine} (hr : Run Step (new line) hist s)
    (hexit : s.thread = .exited 0) (hpath : line.telemetryDbPath ≠ []) :
    ∃ (stats : ExecutorStats) (rowsWritten ringFull oversizedId writeFailed : ℕ),
      s.output = [.frames stats, .telemetry rowsWritten ringFull oversizedId writeFailed] ∧
      rowsWritten + ringFull + oversizedId + writeFailed = (firedIn s.executor.trace).length ∧
      s.store.written.db.durable.latencyEvents.length = rowsWritten ∧
      (s.store.written.db.durable.latencyEvents.map LatencyColumns.correlationId).Sublist
        ((firedIn s.executor.trace).map WakeMessage.correlationId) := by
  obtain ⟨-, -, htelemetry⟩ := invariants hr
  obtain ⟨hrecords, hcounted, events, hlength, hsub, hdurable⟩ := counted_of_run hr hexit hpath
  have houtput := (ended_of_run hr hexit).output
  have hids := (kept_of_run hr).2 hrecords
  rw [if_pos (by simp [htelemetry, hpath])] at houtput
  refine ⟨_, _, _, _, _, houtput, ?_, ?_, ?_⟩
  · rw [hcounted, ← List.length_map WakeRecvEvent.correlationId, hids, List.length_map]
  · rw [hdurable, List.length_map, hlength]
  · have hcolumns := hsub.map LatencyEvent.correlationId
    rw [List.map_map] at hcolumns
    rw [← hids, hdurable, List.map_map]
    exact hcolumns

end Process

/-! ## The process and its client -/

/-- A process that serves a connection, and the client of the connection. -/
structure Deployment (F ι : Type) where
  process : Process F ι
  exchange : Exchange F ι
  same : exchange.executor = process.executor

/-- What is seen of a step: one of the sink, of the server or of the client. -/
inductive DeploymentAction (F ι : Type) where
  | sink (event : SinkEvent F)
  | server (action : ServerAction ι)
  | client (event : ClientEvent F)

namespace Deployment

/-- A connection that the process has just accepted. -/
def new (process : Process F ι) : Deployment F ι where
  process := process
  exchange := .new process.executor
  same := rfl

/-- The steps of the two. -/
inductive Step [DecidableEq ι] [Double F] [CharConv F] :
    Deployment F ι → DeploymentAction F ι → Deployment F ι → Prop
  | sink {s t : Deployment F ι} {e : SinkEvent F} (hs : s.process.Step (.sink e) t.process)
      (hx : t.exchange = s.exchange) : Step s (.sink e) t
  | server {s t : Deployment F ι} {a : ServerAction ι} (hs : s.process.Step (.server a) t.process)
      (hx : s.exchange.Step .internal t.exchange) : Step s (.server a) t
  | client {s t : Deployment F ι} {event : ClientEvent F} (hp : t.process = s.process)
      (hx : s.exchange.Step event t.exchange) : Step s (.client event) t

/-- The step of the process that an action is, if it is one. -/
def processAction : DeploymentAction F ι → Option (ProcessAction F ι)
  | .sink e => some (.sink e)
  | .server a => some (.server a)
  | .client _ => none

/-- The step of the exchange that an action is, if it is one. -/
def clientEvent : DeploymentAction F ι → Option (ClientEvent F)
  | .sink _ => none
  | .server _ => some .internal
  | .client event => some event

/-- The part of a history that concerns the process. -/
def processHistory (h : List (Deployment F ι × DeploymentAction F ι)) :
    List (Process F ι × ProcessAction F ι) :=
  h.filterMap fun p => (processAction p.2).map fun a => (p.1.process, a)

/-- The part of a history that concerns the exchange. -/
def clientHistory (h : List (Deployment F ι × DeploymentAction F ι)) :
    List (Exchange F ι × ClientEvent F) :=
  h.filterMap fun p => (clientEvent p.2).map fun event => (p.1.exchange, event)

variable [Double F] [CharConv F] [DecidableEq ι] {s t : Deployment F ι}
  {h : List (Deployment F ι × DeploymentAction F ι)}

/-- A run of the deployment is a run of the process. -/
lemma run_process (hr : Run Step s h t) :
    Run Process.Step s.process (processHistory h) t.process := by
  refine hr.project (fun s => s.process) processAction fun s a t hst => ?_
  cases hst with
  | sink hs hx => exact .inr ⟨_, rfl, hs⟩
  | server hs hx => exact .inr ⟨_, rfl, hs⟩
  | client hp hx => exact .inl ⟨rfl, hp⟩

/-- A run of the deployment is a run of the exchange. -/
lemma run_exchange (hr : Run Step s h t) :
    Run Exchange.Step s.exchange (clientHistory h) t.exchange := by
  refine hr.project (fun s => s.exchange) clientEvent fun s a t hst => ?_
  cases hst with
  | sink hs hx => exact .inl ⟨rfl, hx⟩
  | server hs hx => exact .inr ⟨_, rfl, hx⟩
  | client hp hx => exact .inr ⟨_, rfl, hx⟩

/-! ## A first message -/

/-- A step of the exchange in which nothing is fired is one of the two, while the process serves. -/
private lemma step_of_exchange {x : Exchange F ι} {event : ClientEvent F}
    (ht : s.process.thread = .serving) (hs : s.exchange.Step event x)
    (hnone : firedIn x.executor.trace = firedIn s.exchange.executor.trace) :
    ∃ a t, Step s a t ∧ t.exchange = x ∧ clientEvent a = some event ∧
      t.process = { s.process with executor := x.executor } := by
  have hserve : ∀ {b : ServerAction ι} {e : Executor F ι}, s.exchange.executor.Step b e →
      b ≠ .call → (∀ i, b ≠ .stop i) → firedIn e.trace = firedIn s.exchange.executor.trace →
      s.process.Step (.server b) { s.process with executor := e } := by
    intro b e hb hcall hstop hfired
    rw [s.same] at hb hfired
    rcases hb.firing_none hstop with hfiring | ⟨moment, message, -, rfl⟩
    · exact .serve ht hb hcall hstop hfiring
    · rw [firedIn_fire] at hfired
      simp at hfired
  have hclient : x.executor = s.exchange.executor → ∃ a t, Step s a t ∧ t.exchange = x ∧
      clientEvent a = some event ∧ t.process = { s.process with executor := x.executor } := by
    intro hexecutor
    refine ⟨.client event, ⟨s.process, x, hexecutor.trans s.same⟩, .client rfl hs, rfl, rfl, ?_⟩
    show s.process = { s.process with executor := x.executor }
    rw [hexecutor, s.same]
  cases hs with
  | serverRead hp hb hin =>
    exact ⟨.server _, ⟨_, _, rfl⟩, .server (hserve hb (by simp) (by simp) hnone)
      (.serverRead hp hb hin), rfl, rfl, rfl⟩
  | serverAnswer hp hb =>
    exact ⟨.server _, ⟨_, _, rfl⟩, .server (hserve hb (by simp) (by simp) hnone)
      (.serverAnswer hp hb), rfl, rfl, rfl⟩
  | serverSend hp hb =>
    exact ⟨.server _, ⟨_, _, rfl⟩, .server (hserve hb (by simp) (by simp) hnone)
      (.serverSend hp hb), rfl, rfl, rfl⟩
  | server hp hb =>
    exact ⟨.server _, ⟨_, _, rfl⟩, .server (hserve hb (by simp) (by simp) hnone)
      (.server hp hb), rfl, rfl, rfl⟩
  | stop hb =>
    have hb' := hb
    rw [s.same] at hb'
    exact ⟨.server _, ⟨_, _, rfl⟩, .server (.signal hb' fun _ => by rw [ht]; rfl) (.stop hb),
      rfl, rfl, rfl⟩
  | _ => exact hclient rfl

omit [Double F] [CharConv F] [DecidableEq ι] in
/-- A history, one action more that the client sees. -/
private lemma clientHistory_snoc {a : DeploymentAction F ι} {event : ClientEvent F}
    (ha : clientEvent a = some event) :
    clientHistory (h ++ [(s, a)]) = clientHistory h ++ [(s.exchange, event)] := by
  rw [clientHistory, List.filterMap_append]
  simp [clientHistory, ha]

/-- A run of the exchange that fires nothing is one of the process, while it serves. -/
private lemma run_of_exchange {p : Process F ι} (ht : p.thread = .serving)
    {hx : List (Exchange F ι × ClientEvent F)} {x : Exchange F ι}
    (hr : Run Exchange.Step (.new p.executor) hx x)
    (hnone : firedIn x.executor.trace = firedIn p.executor.trace) :
    ∃ h t, Run Step (new p) h t ∧ t.exchange = x ∧ clientHistory h = hx ∧
      t.process = { p with executor := x.executor } := by
  induction hr with
  | nil => exact ⟨[], new p, .nil, rfl, rfl, rfl⟩
  | @snoc hx x x' event hr hs ih =>
    obtain ⟨later, hlater⟩ := Exchange.fired_of_run hr
    obtain ⟨more, hmore⟩ := hs.fired
    have hnew : firedIn (Exchange.new p.executor).executor.trace = firedIn p.executor.trace := rfl
    rw [hmore, hlater, hnew, List.append_assoc] at hnone
    obtain ⟨rfl, rfl⟩ : later = [] ∧ more = [] := by simpa using hnone
    rw [hnew, List.append_nil] at hlater
    obtain ⟨h, t, hr', rfl, rfl, hp⟩ := ih hlater
    obtain ⟨a, u, hu, rfl, hevent, hp'⟩ := step_of_exchange (by rw [hp]; exact ht) hs
      (by rw [hmore, List.append_nil])
    refine ⟨_, u, hr'.snoc hu, rfl, clientHistory_snoc hevent, ?_⟩
    rw [hp', hp]

/-- A message whose id is longer than what the sink takes. -/
def longWake : WakeMessage SignedZero := wake (List.replicate 129 49)

/-- The correlation id of the long wake is over the cap of a row. -/
private lemma length_longWake : longWake.correlationId.length > kMaxCorrelationIdBytes := by
  rw [show longWake.correlationId.length = 129 from List.length_replicate]
  decide

/-- The correlation id of the long wake is UTF-8. -/
private lemma valid_longWake : Utf8.Valid longWake.correlationId :=
  Utf8.valid_of_ascii fun _ hb => by
    rw [List.eq_of_mem_replicate hb]
    decide

/-- The long wake is read back from its body. -/
private lemma decode_longWake : decodeWakeMessage longWake.body = .ok longWake :=
  decodeWakeMessage_body ⟨valid_longWake, Utf8.valid_nil, Utf8.valid_nil,
    Utf8.valid_nil, Utf8.valid_nil, rfl, rfl, rfl, rfl, rfl, rfl, fun _ _ => ⟨rfl, rfl, rfl⟩⟩

/-- The ack of the long wake. -/
def longAck : WakeAck := ackFor (.ok longWake) 0

/-- The ack of the long wake is read back from its body. -/
private lemma decode_longAck : decodeWakeAck (longAck.body SignedZero) = .ok longAck :=
  decodeWakeAck_body SignedZero ⟨valid_longWake, by rintro _ ⟨⟩⟩

/-- A step of the sink. -/
private lemma step_sink {e : SinkEvent F} {p : Process F ι} (hs : s.process.Step (.sink e) p)
    (hexecutor : p.executor = s.process.executor) :
    Step s (.sink e) ⟨p, s.exchange, s.same.trans hexecutor.symm⟩ :=
  .sink hs rfl

/-- A step of the server. -/
private lemma step_server {a : ServerAction ι} {p : Process F ι} {x : Exchange F ι}
    (hs : s.process.Step (.server a) p) (hx : s.exchange.Step .internal x)
    (hsame : x.executor = p.executor) : Step s (.server a) ⟨p, x, hsame⟩ :=
  .server hs hx

/-- A message whose id is too long for the sink is fired all the same. -/
private lemma run_drops {moment : Moment} {message : WakeMessage F} {sent : ℕ}
    (ht : s.process.thread = .serving) (htelemetry : s.process.telemetry = true)
    (hs : s.process.store.sink.Rests .idle 0)
    (hc : s.process.executor.control = .sending moment (.ok message) sent)
    (hle : s.process.executor.server.ack.length ≤ sent)
    (hlong : message.correlationId.length > kMaxCorrelationIdBytes) :
    ∃ h t, Run Step s h t ∧ (∀ p ∈ clientHistory h, p.2 = .internal) ∧
      t.process.thread = .serving ∧ t.process.telemetry = true ∧
      t.process.executor.control = .looping ∧ t.process.store.sink.Rests .idle 0 := by
  obtain ⟨p, x, hsame⟩ := s
  dsimp only at *
  have hfiring : p.executor.firing = some (moment, message) := by
    simp [Executor.firing, hc, hle]
  have hrecord : Caller.record (wakeRecvEvent moment message).latency =
      .recordOversized (wakeRecvEvent moment message).latency := dif_pos hlong
  have hcalled := Process.Step.record ht htelemetry hfiring hs.caller
  rw [hrecord] at hcalled
  have hreturned := Process.Step.recorded (s := { p.withCaller
    (.recordOversized (wakeRecvEvent moment message).latency) with thread := .recording }) rfl
    (.other (.recordOversized rfl) (fun _ _ _ _ => rfl) (by simp [Process.withCaller]))
  have hfired := Exchange.Step.server (s := x)
    (.inr (.inr (by rw [hsame]; exact congrArg Control.place hc)))
    (.fire (by rw [hsame]; exact hc) (by rw [hsame]; exact hle))
  have hsame' : x.executor.fire moment message = p.executor.fire moment message := by rw [hsame]
  have hr := ((Run.nil.snoc (step_sink (s := ⟨p, x, hsame⟩) hcalled rfl)).snoc
    (step_sink hreturned (by rfl))).snoc (step_server (.fire (.inl rfl) hfiring) hfired hsame')
  exact ⟨_, _, hr, by simp [clientHistory, clientEvent], rfl, htelemetry, rfl,
    ⟨rfl, hs.joinable, hs.writer, hs.cached, hs.rows⟩⟩

/-! ## What the client was told -/

/-- What was accepted on the connection is fired before the server returns.

**Proof sketch.** A server that is sending an ack is done with it in a run that goes on by at most
two steps. What the client has accepting acks for is fired there; this is fired already, or it is
what the server is about to fire. -/
private lemma accepted_fired_later {p q : Process F ι} {d : Deployment F ι}
    {hist : List (Process F ι × ProcessAction F ι)}
    (hroom : p.executor.framePrefix.length = kFrameLengthBytes)
    (hlooping : p.executor.control = .looping) (hr : Run Step (new p) h d)
    (hclean : ∀ x ∈ clientHistory h, Exchange.Clean x)
    (hend : Run Process.Step d.process hist q) (hreturned : q.executor.control = .returned) :
    ∃ later, firedIn q.executor.trace =
      firedIn p.executor.trace ++ Exchange.accepted (clientHistory h) ++ later := by
  have hrx := run_exchange hr
  obtain ⟨hserved, hin, hfires, hacc⟩ := Exchange.accounts_of_run hlooping hroom hrx hclean
  by_cases hplace : d.exchange.executor.place = .sending
  · obtain ⟨l, x, hrl, hinternal, hdone, hfired⟩ := hfires.reach_done hplace
    have hcleanl : ∀ z ∈ l, Exchange.Clean z := by
      intro z hz
      rw [Exchange.Clean, hinternal z hz]
      trivial
    have hnone : l.filterMap Exchange.acceptance? = [] := by
      refine List.filterMap_eq_nil_iff.mpr fun z hz => ?_
      rw [Exchange.acceptance?, hinternal z hz]
    obtain ⟨hserved', hin', hfires', hacc'⟩ := Exchange.accounts_of_run hlooping hroom
      (hrx.append hrl) (List.forall_mem_append.mpr ⟨hclean, hcleanl⟩)
    obtain ⟨more, hmore, -⟩ := hacc'.fired hserved' hin' hfires' hdone
    rw [Exchange.accepted, List.filterMap_append, hnone, List.append_nil] at hmore
    obtain ⟨later, hlater⟩ : ∃ later, firedIn q.executor.trace =
        firedIn x.executor.trace ++ later := by
      rcases hfired with hfired | ⟨moment, message, hfiring, hfired⟩
      · rw [hfired, d.same]
        exact Process.fired_of_run hend
      · rw [d.same] at hfiring hfired
        obtain ⟨later, hlater⟩ := Process.fired_of_firing hfiring hend hreturned
        exact ⟨later, by rw [hlater, hfired, List.append_assoc, List.singleton_append]⟩
    exact ⟨more ++ later, by rw [hlater, hmore, List.append_assoc]; rfl⟩
  · obtain ⟨more, hmore, -⟩ := hacc.fired hserved hin hfires hplace
    obtain ⟨later, hlater⟩ := Process.fired_of_run hend
    exact ⟨more ++ later, by rw [hlater, ← d.same, hmore, List.append_assoc]⟩

/-- **What became of every accepted message.** A process accepts a connection, serves it with any
client and any signals and calls of SQLite in between, and exits with code 0 at any time later. If
no call of the client fails between the first byte it sends and the last byte of its ack, and no
message overflows the length prefix, then the messages that the client has an accepting ack for
were fired, once each, in the order of the acks, and nothing was fired between them. If the process
has a sink, over tables that start empty, the counters it printed at its exit add up to the fires;
the ids of the rows that are durable are, in this order, ids that were fired, as many as it counted
as written; and they are all of these if it counted nothing as dropped.

**Proof sketch.** The run of the two is one of the exchange, so that what was accepted is fired
before the server returns. It is one of the process too, and so a part of a run of the process to
its exit, which accounts for the fires. -/
theorem accepted_accounted {line : CommandLine} {p q : Process F ι} {d : Deployment F ι}
    {hist hist' : List (Process F ι × ProcessAction F ι)}
    (hstart : Run Process.Step (.new line) hist p) (hlooping : p.executor.control = .looping)
    (hr : Run Step (new p) h d) (hclean : ∀ x ∈ clientHistory h, Exchange.Clean x)
    (hend : Run Process.Step d.process hist' q) (hexit : q.thread = .exited 0) :
    (∃ later, firedIn q.executor.trace =
      firedIn p.executor.trace ++ Exchange.accepted (clientHistory h) ++ later) ∧
    (line.telemetryDbPath ≠ [] →
      ∃ (stats : ExecutorStats) (rowsWritten ringFull oversizedId writeFailed : ℕ)
        (ids : List Bytes),
        q.output = [.frames stats, .telemetry rowsWritten ringFull oversizedId writeFailed] ∧
        rowsWritten + ringFull + oversizedId + writeFailed = (firedIn q.executor.trace).length ∧
        q.store.written.db.durable.latencyEvents.map LatencyColumns.correlationId = ids ∧
        ids.length = rowsWritten ∧
        ids.Sublist ((firedIn q.executor.trace).map WakeMessage.correlationId) ∧
        (ringFull + oversizedId + writeFailed = 0 →
          ids = (firedIn q.executor.trace).map WakeMessage.correlationId)) := by
  have hwhole := (hstart.append (run_process hr)).append hend
  refine ⟨?_, fun hpath => ?_⟩
  · have hroom := (Process.kept_of_run hstart).1 (.inl (congrArg Control.place hlooping))
    exact accepted_fired_later hroom hlooping hr hclean hend
      (Process.ended_of_run hwhole hexit).control
  · obtain ⟨stats, rowsWritten, ringFull, oversizedId, writeFailed, houtput, hcounted, hwritten,
      hsub⟩ := Process.rows_of_run hwhole hexit hpath
    refine ⟨stats, rowsWritten, ringFull, oversizedId, writeFailed, _, houtput, hcounted, rfl,
      (List.length_map _).trans hwritten, hsub, fun hnone => hsub.eq_of_length ?_⟩
    rw [List.length_map, List.length_map]
    omega

/-- A message whose id is too long for the sink is accepted and fired, and then counted as such. -/
theorem accepted_accounted_long : ∃ (p q : Process SignedZero Unit) (d : Deployment SignedZero Unit)
    (h : List (Deployment SignedZero Unit × DeploymentAction SignedZero Unit)),
    Run Step (new p) h d ∧ longWake ∈ Exchange.accepted (clientHistory h) ∧
      q.thread = .exited 0 ∧ q.output.length = 2 ∧
      ∃ later, firedIn q.executor.trace =
        firedIn p.executor.trace ++ Exchange.accepted (clientHistory h) ++ later := by
  obtain ⟨hist, p, hstart, ht, htelemetry, hlooping, hstopping, hroom, hrests, -⟩ :=
    Process.run_accepts (F := SignedZero) (ι := Unit) ⟨[115], [], [116]⟩ (by simp) (by decide)
  obtain ⟨hx, x, hrx, hlabels, -, ⟨sent, hcontrol, hle⟩, ⟨y, hanswered⟩, haccepted⟩ :=
    Exchange.reach_told hlooping hstopping hroom decode_longWake (by decide +kernel)
      (by decide +kernel) ⟨0, 0, 0, 0, ⟨0, ⟨false, false⟩⟩⟩ rfl decode_longAck
      (by decide +kernel) (by decide +kernel)
  have hclean := Exchange.clean_of_labels hlabels (by decide +kernel)
  have hnone : firedIn x.executor.trace = firedIn p.executor.trace := by
    obtain ⟨-, -, ⟨done, rest, hdone, hfired, hrest⟩, -⟩ :=
      Exchange.accounts_of_run hlooping hroom hrx hclean
    rw [hcontrol] at hrest
    obtain ⟨z, rfl, -⟩ := hrest
    rw [hanswered] at hdone
    obtain ⟨rfl, -⟩ := List.append_inj' (show [] ++ [y] = done ++ [z] from hdone) rfl
    rw [hfired]
    exact List.append_nil _
  obtain ⟨h₁, d₁, hr₁, rfl, rfl, hp₁⟩ := run_of_exchange ht hrx hnone
  obtain ⟨h₂, d₂, hr₂, hinternal, ht₂, htelemetry₂, hlooping₂, hrests₂⟩ :=
    run_drops (s := d₁) (by rw [hp₁]; exact ht) (by rw [hp₁]; exact htelemetry)
      (by rw [hp₁]; exact hrests) (by rw [hp₁]; exact hcontrol) (by rw [hp₁]; exact hle)
      length_longWake
  have hr := hr₁.append hr₂
  have hroom₂ := (Process.kept_of_run (hstart.append (run_process hr))).1
    (.inl (congrArg Control.place hlooping₂))
  obtain ⟨hist', q, hend, hexit⟩ :=
    Process.run_exits ht₂ htelemetry₂ hlooping₂ hroom₂ hrests₂
  have hhistory : clientHistory (h₁ ++ h₂) = clientHistory h₁ ++ clientHistory h₂ :=
    List.filterMap_append
  obtain ⟨hfired, hprinted⟩ := accepted_accounted hstart hlooping hr
    (by
      rw [hhistory]
      refine List.forall_mem_append.mpr ⟨hclean, fun z hz => ?_⟩
      rw [Exchange.Clean, hinternal z hz]
      trivial)
    hend hexit
  obtain ⟨stats, w, r, o, f, ids, houtput, -⟩ := hprinted (by simp)
  refine ⟨p, q, d₂, h₁ ++ h₂, hr, ?_, hexit, by rw [houtput]; rfl, hfired⟩
  rw [hhistory, Exchange.accepted, List.filterMap_append]
  exact List.mem_append_left _ haccepted

end Deployment

end Hotpath
