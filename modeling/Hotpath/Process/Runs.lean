import Hotpath.Executor.Answering
import Hotpath.Process.Main

set_option relaxedAutoImplicit false
set_option autoImplicit false

/-!
# What a process may do

A process whose calls succeed, from its command line to its exit, in parts: it opens its sink and
accepts a connection, records and fires a message, closes the sink and exits. Each part is a run
from any state of a kind to one of the next kind. What the server and the sink with its database do
by themselves is carried over from their own runs.

## Main definitions

* `Hotpath.Executor.Plain` — a step of the main thread in `serve_forever`.

## Main results

* `Hotpath.Process.run_serves`, `Hotpath.Process.run_sinks` — runs of the components.
* `Hotpath.Process.run_accepts`, `Hotpath.Process.run_fires`, `Hotpath.Process.run_stops`,
  `Hotpath.Process.run_closing`, `Hotpath.Process.run_joins` — the parts.
* `Hotpath.Process.run_wake` — a whole run, with a message whose row becomes durable.
-/

namespace Hotpath

open System (Run)

variable {F ι : Type}

/-! ## The server -/

namespace Executor

/-- A step that the main thread takes in `serve_forever` without the callback. -/
def Plain (p : Executor F ι × ServerAction ι) : Prop :=
  p.1.firing = none ∧ p.2 ≠ .call ∧ ∀ i, p.2 ≠ .stop i

/-- Only a server that sends an ack may be about to fire. -/
lemma firing_of_place {e : Executor F ι} (h : e.place ≠ .sending) : e.firing = none := by
  unfold firing
  split
  · next hc =>
    refine absurd ?_ h
    rw [place, hc]
    rfl
  · rfl

variable [Double F] [CharConv F] [DecidableEq ι]

/-- A frame may be answered without the callback. -/
lemma run_plain {e : Executor F ι} {header body : Bytes} (hc : e.control = .looping)
    (hstop : e.server.stopping = false) (hroom : e.framePrefix.length = kFrameLengthBytes)
    {length : UInt32} (hd : decodeFrameLength header = .ok length)
    (hbody : body.length = length.toNat) (hne : body ≠ []) (moment : Moment) :
    ∃ h, Run Step e h (e.acked header body moment) ∧ ∀ p ∈ h, Plain p := by
  obtain ⟨e₁, e₂, e₃, h₁, h₂, h₃, h₄, hp₁, hp₂, hp₃⟩ := steps_took hc hstop hroom hd hbody hne
  obtain ⟨h₅, h₆⟩ := steps_acked e header body moment
  have hsending : ((e.took header body).answer moment).firing = none := by
    have hpos := e.ack_answer_pos header body moment
    unfold firing
    split
    · next hc' =>
      injection hc' with _ _ hsent
      rw [if_neg (by omega)]
    · rfl
  refine ⟨_, .cons h₁ (.cons h₂ (.cons h₃ (.cons h₄ (.cons h₅ (.cons h₆ .nil))))), ?_⟩
  have hnone : ∀ u : Executor F ι, u.place = .reading → u.firing = none :=
    fun u hu => firing_of_place (by simp [hu])
  have hlooping : e.firing = none := firing_of_place (by simp [place, hc, Control.place])
  have htook : (e.took header body).firing = none := hnone _ rfl
  simp [Plain, hlooping, hnone e₁ hp₁, hnone e₂ hp₂, hnone e₃ hp₃, htook, hsending]

/-- A server that was asked to stop, or whose `poll` fails, returns. -/
lemma reach_returned {e : Executor F ι} (hc : e.control = .looping)
    (hroom : e.framePrefix.length = kFrameLengthBytes) :
    ∃ h t, Run Step e h t ∧ (∀ p ∈ h, Plain p) ∧ t.control = .returned := by
  obtain ⟨h₁, e₁, hr₁, hplain₁, hc₁⟩ :
      ∃ h t, Run Step e h t ∧ (∀ p ∈ h, Plain p) ∧ t.control = .leaving := by
    cases hs : e.server.stopping with
    | true => exact ⟨_, _, .cons (.loopStopped hc hs) .nil, by simp [Plain, firing, hc], rfl⟩
    | false =>
      have hread : ∀ n, (Connection.sender []).read n = (.count 0, [], .sender []) := fun _ => rfl
      refine ⟨_, _, .cons (.loop hc hs) (.cons (.readFailed rfl ?_ (hread _) (.inl rfl)) .nil),
        by simp [Plain, firing, hc], rfl⟩
      show 0 < e.framePrefix.length
      rw [hroom]
      decide
  have hstart : ∀ u : Executor F ι, u.control = .start →
      ∃ h t, Run Step u h t ∧ (∀ p ∈ h, Plain p) ∧ t.control = .returned := by
    intro u hu
    by_cases hgo : u.server.stopping = true ∨ u.descriptors.listenFd < 0
    · exact ⟨_, _, .cons (.start hu) .nil, by simp [Plain, firing, hu], by simp [hgo]⟩
    · exact ⟨_, _, .cons (.start hu) (.cons (.pollFailed (by simp [hgo])) .nil),
        by simp [Plain, firing, hu, hgo], rfl⟩
  obtain ⟨h₂, e₂, hr₂, hplain₂, hc₂⟩ : ∃ h t, Run Step e₁ h t ∧ (∀ p ∈ h, Plain p) ∧
      t.control = if !e₁.server.stopping then .start else .returned :=
    ⟨_, _, .cons (.unpublish hc₁) (.cons (.close rfl) (.cons (.finish rfl) .nil)),
      by simp [Plain, firing, hc₁], rfl⟩
  have hplain := List.forall_mem_append.mpr ⟨hplain₁, hplain₂⟩
  cases hs : e₁.server.stopping with
  | true => exact ⟨_, e₂, hr₁.append hr₂, hplain, by simpa [hs] using hc₂⟩
  | false =>
    obtain ⟨h₃, e₃, hr₃, hplain₃, hc₃⟩ := hstart e₂ (by simpa [hs] using hc₂)
    exact ⟨_, e₃, (hr₁.append hr₂).append hr₃, List.forall_mem_append.mpr ⟨hplain, hplain₃⟩, hc₃⟩

end Executor

/-! ## The process -/

namespace Process

variable [Double F] [CharConv F] [DecidableEq ι] {s : Process F ι}

/-- What the server does without the callback is done by a process that serves. -/
lemma run_serves {e : Executor F ι} {h : List (Executor F ι × ServerAction ι)}
    (ht : s.thread = .serving) (hr : Run Executor.Step s.executor h e)
    (hplain : ∀ p ∈ h, Executor.Plain p) : ∃ h', Run Step s h' { s with executor := e } := by
  induction hr with
  | nil => exact ⟨[], .nil⟩
  | @snoc h e e' a _ hs ih =>
    obtain ⟨hbefore, hnow⟩ := List.forall_mem_append.mp hplain
    obtain ⟨h', hr'⟩ := ih hbefore
    obtain ⟨hfiring, hcall, hstop⟩ := hnow (e, a) (List.mem_singleton_self _)
    exact ⟨_, hr'.snoc (.serve ht hs hcall hstop hfiring)⟩

/-- What the sink does with its database inside of a call is done by a process that is in the
call. -/
lemma run_sinks {t : Store F} {h : List (Store F × SinkEvent F)}
    (hr : Run Store.Step s.store h t)
    (hinside : ∀ p ∈ h, p.1.sink.caller ≠ .idle ∧
      (p.2 = .internal ∨ ∃ batch, p.2 = .handed batch)) :
    ∃ h', Run Step s h' { s with store := t } := by
  induction hr with
  | nil => exact ⟨[], .nil⟩
  | @snoc h t t' e _ hs ih =>
    obtain ⟨hbefore, hnow⟩ := List.forall_mem_append.mp hinside
    obtain ⟨h', hr'⟩ := ih hbefore
    obtain ⟨hcaller, hevent⟩ := hnow (t, e) (List.mem_singleton_self _)
    exact ⟨_, hr'.snoc (.sink hs hevent fun hidle => absurd hidle hcaller)⟩

/-- The sink may be opened, and the ring is left as it was. -/
lemma run_opens (ht : s.thread = .starting) (hc : s.store.sink.caller = .idle)
    (hj : s.store.sink.joinable = false) (hw : s.store.sink.writer = .absent) :
    ∃ h, Run Step s h { s with
      store := { s.store with sink := { s.store.sink with
        caller := .idle
        connected := true
        stopping := false
        joinable := true
        writer := .loadStopping } }
      thread := .listening } := by
  obtain ⟨h, hr, hopening⟩ := Sink.run_opening
    (s := { s.store.sink with caller := .opening openDatabase }) rfl
  obtain ⟨h', hr', rfl⟩ := Store.run_of_sink (s := { s.store with
      sink := { s.store.sink with caller := .opening openDatabase } }) hr fun p hp => by
    obtain ⟨hopens, hwriter, -⟩ := hopening p hp
    refine ⟨?_, fun h => by simp [h, Caller.opens] at hopens⟩
    rw [hwriter]
    show s.store.sink.writer.inBatch = false
    rw [hw]
    rfl
  obtain ⟨h'', hr''⟩ := run_sinks (s := { s.withCaller (.opening openDatabase) with
      thread := .opening }) hr' fun p hp => by
    obtain ⟨hopens, -, hevent⟩ := hopening (p.1.sink, p.2) (List.mem_map_of_mem hp)
    exact ⟨fun h => by simp [h, Caller.opens] at hopens, .inl hevent⟩
  have hstarted := Store.Step.other (s := { s.store with sink := { s.store.sink with
    caller := .openStarting
    connected := true
    stopping := false } }) (.openStart rfl) (by simp [hw]) (by simp)
  exact ⟨_, (Run.cons (.open_ ht hc hj) hr'').snoc (.opened rfl hstarted)⟩

/-- A process with a sink may accept a connection. -/
lemma run_accepts (line : CommandLine) (hpath : line.telemetryDbPath ≠ [])
    (hsocket : line.socketPath.length < kSunPathBytes) :
    ∃ (hist : List (Process F ι × ProcessAction F ι)) (s : Process F ι),
      Run Step (new line) hist s ∧ s.thread = .serving ∧ s.telemetry = true ∧
        s.executor.control = .looping ∧ s.executor.server.stopping = false ∧
        s.executor.framePrefix.length = kFrameLengthBytes ∧ s.store.sink.Rests .idle 0 ∧
        s.store.sink.ring.head - s.store.sink.ring.tailCache < s.store.sink.ring.capacity ∧
        s.store.written = Written.new := by
  obtain ⟨h₁, s₁, hr₁, ht₁, htelemetry, hsocket₁, hexecutor, hs₁, hroom, hwritten⟩ :
      ∃ h s, Run Step (new (F := F) (ι := ι) line) h s ∧ s.thread = .listening ∧
        s.telemetry = true ∧ s.socketPath = line.socketPath ∧
        s.executor = (new line).executor ∧ s.store.sink.Rests .idle 0 ∧
        s.store.sink.ring.head - s.store.sink.ring.tailCache < s.store.sink.ring.capacity ∧
        s.store.written = Written.new := by
    obtain ⟨h, hr⟩ := run_opens (s := new (F := F) (ι := ι) line) (if_pos hpath) rfl rfl rfl
    refine ⟨h, _, hr, rfl, decide_eq_true hpath, rfl, rfl, ⟨rfl, rfl, rfl, rfl, rfl⟩, ?_, rfl⟩
    show (0 : UInt64) - 0 < (SpscRing.new kDefaultCapacity (by decide)).capacity
    rw [UInt64.sub_self]
    exact SpscRing.capacity_pos _
  have hlisten := hr₁.snoc (.listen ht₁ _
    (s₁.executor.descriptors.listen_ok (hsocket₁ ▸ hsocket) 4 5 3))
  obtain ⟨h₂, e, hr₂, hplain, hlooping, hstopping, hprefix⟩ :
      ∃ h e, Run Executor.Step { s₁.executor with descriptors := ⟨3, 4, 5⟩ } h e ∧
        (∀ p ∈ h, Executor.Plain p) ∧ e.control = .looping ∧ e.server.stopping = false ∧
        e.framePrefix.length = kFrameLengthBytes := by
    rw [hexecutor]
    exact ⟨_, _, .cons (.start rfl) (.cons (.poll rfl true) (.cons (.polled rfl)
      (.cons (.accept rfl 7) (.cons (.publish rfl rfl) .nil)))),
      by simp [Executor.Plain, Executor.firing, new, Executor.new, ExecutorServer.new], rfl, rfl,
      rfl⟩
  obtain ⟨h₃, hr₃⟩ := run_serves (s := { s₁ with
    executor := { s₁.executor with descriptors := ⟨3, 4, 5⟩ }
    thread := .serving }) rfl hr₂ hplain
  exact ⟨_, _, hlisten.append hr₃, rfl, htelemetry, hlooping, hstopping, hprefix, hs₁, hroom,
    hwritten⟩

/-- A step of the sink inside of a call, outside of `write_batch` and of the end of `close`. -/
private lemma step_sink {t : Sink F} (hs : s.store.sink.Step .internal t)
    (hw : t.writer = s.store.sink.writer) (hc : s.store.sink.caller ≠ .idle)
    (hc' : s.store.sink.caller ≠ .closeResetting) :
    Step s (.sink .internal) { s with store := { s.store with sink := t } } :=
  .sink (.other hs (fun _ _ _ _ => hw) fun h => absurd h hc') (.inl rfl) fun h => absurd h hc

/-- A message whose ack was sent may be recorded and fired. -/
lemma run_fires {moment : Moment} {message : WakeMessage F} (ht : s.thread = .serving)
    (htelemetry : s.telemetry = true) (hfiring : s.executor.firing = some (moment, message))
    (hid : message.correlationId.length ≤ kMaxCorrelationIdBytes)
    (hs : s.store.sink.Rests .idle 0)
    (hroom : s.store.sink.ring.head - s.store.sink.ring.tailCache <
      s.store.sink.ring.capacity) :
    ∃ h t, Run Step s h t ∧ t.thread = .serving ∧ t.telemetry = true ∧
      t.executor = s.executor.fire moment message ∧ t.store.sink.Rests .idle 1 ∧
      t.store.written = s.store.written := by
  obtain ⟨event, hevent⟩ : ∃ event, event = (wakeRecvEvent moment message).latency := ⟨_, rfl⟩
  have hid' : event.correlationId.length ≤ kMaxCorrelationIdBytes := hevent ▸ hid
  have hcalled := Step.record ht htelemetry hfiring hs.caller
  rw [← hevent, Sink.record_of_le hid'] at hcalled
  have hload := SpscRing.tryPush_loadHead hroom (Row.ofEvent event hid')
  have hpushing := ((Run.nil.snoc hcalled).snoc (step_sink (.recordPush rfl hload) rfl
    (by simp [withCaller]) (by simp [withCaller]))).snoc
    (step_sink (.recordPush rfl rfl) rfl (by simp) (by simp))
  have hr := (hpushing.snoc (.recorded rfl (.other (.recordPushed rfl rfl) (fun _ _ _ _ => rfl)
    (by simp)))).snoc (.fire (.inl rfl) hfiring)
  exact ⟨_, _, hr, rfl, htelemetry, rfl, ⟨rfl, hs.joinable, hs.writer, hs.cached,
    congrArg (· + 1) (hs.rows.trans (UInt64.add_zero _))⟩, rfl⟩

/-- A process that serves a connection may come to the end of `serve_forever`. -/
lemma run_stops (ht : s.thread = .serving) (htelemetry : s.telemetry = true)
    (hlooping : s.executor.control = .looping)
    (hroom : s.executor.framePrefix.length = kFrameLengthBytes) :
    ∃ h t, Run Step s h t ∧ t.thread = .stopped ∧ t.telemetry = true ∧ t.store = s.store := by
  obtain ⟨h₁, e, hr₁, hplain, hreturned⟩ := Executor.reach_returned hlooping hroom
  obtain ⟨h₂, hr₂⟩ := run_serves ht hr₁ hplain
  exact ⟨_, _, hr₂.snoc (.stopped ht hreturned), if_pos htelemetry, htelemetry, rfl⟩

variable {rows : UInt64}

/-- The call of `close` comes to where it waits for the writer. -/
lemma run_closing (ht : s.thread = .stopped) (hs : s.store.sink.Rests .idle rows) :
    ∃ h t, Run Step s h t ∧ t.thread = .closing ∧ t.telemetry = s.telemetry ∧
      t.store.sink.Rests .closeJoining rows ∧ t.store.sink.stopping = true ∧
      t.store.written = s.store.written := by
  have hclose := Step.close ht hs.caller
  rw [if_pos hs.joinable] at hclose
  have hr := (Run.nil.snoc hclose).snoc (step_sink (.closeStore rfl) rfl (by simp [withCaller])
    (by simp [withCaller]))
  exact ⟨_, _, hr, rfl, rfl, ⟨rfl, hs.joinable, hs.writer, hs.cached, hs.rows⟩, rfl, rfl⟩

/-- If the ring is empty the writer returns, `close` returns, and the process exits; what is durable
stays so. -/
lemma run_joins (ht : s.thread = .closing) (htelemetry : s.telemetry = true)
    (hs : s.store.sink.Rests .closeJoining 0) (hstop : s.store.sink.stopping = true) :
    ∃ h t, Run Step s h t ∧ t.thread = .exited 0 ∧
      t.store.written.db.durable = s.store.written.db.durable := by
  obtain ⟨h, hr, halone⟩ := Sink.run_returns hs hstop
  obtain ⟨h', hr', rfl⟩ := Store.run_of_sink hr fun p hp => by
    obtain ⟨hcaller, hbatch, -⟩ := halone p hp
    exact ⟨hbatch, by simp [hcaller]⟩
  obtain ⟨h'', hr''⟩ := run_sinks hr' fun p hp => by
    obtain ⟨hcaller, -, hevent⟩ := halone (p.1.sink, p.2) (List.mem_map_of_mem hp)
    exact ⟨fun hidle => absurd (hcaller.symm.trans hidle) (by simp), hevent⟩
  have hjoin := hr''.snoc (.sink (.other (.closeJoin hs.caller rfl) (fun _ _ _ hw => by cases hw)
    fun hc => absurd (hs.caller.symm.trans hc) (by simp)) (.inl rfl)
    fun hc => absurd (hs.caller.symm.trans hc) (by simp))
  have hexit := ((hjoin.snoc (.closed ht (.closeReset rfl))).snoc
    (.destroy rfl htelemetry rfl)).snoc (.destroyed rfl (.closeReset rfl))
  exact ⟨_, _, hexit, rfl, rfl⟩

/-- A process that serves a connection and has nothing in its ring may exit. -/
lemma run_exits (ht : s.thread = .serving) (htelemetry : s.telemetry = true)
    (hlooping : s.executor.control = .looping)
    (hroom : s.executor.framePrefix.length = kFrameLengthBytes)
    (hs : s.store.sink.Rests .idle 0) :
    ∃ h t, Run Step s h t ∧ t.thread = .exited 0 := by
  obtain ⟨h₁, s₁, hr₁, ht₁, htelemetry₁, hstore₁⟩ := run_stops ht htelemetry hlooping hroom
  obtain ⟨h₂, s₂, hr₂, ht₂, htelemetry₂, hs₂, hstop₂, -⟩ :=
    run_closing ht₁ (by rw [hstore₁]; exact hs)
  obtain ⟨h₃, t, hr₃, hexit, -⟩ := run_joins ht₂ (htelemetry₂.trans htelemetry₁) hs₂ hstop₂
  exact ⟨_, t, (hr₁.append hr₂).append hr₃, hexit⟩

/-- **A message may be served from the command line to the exit**: it is accepted, recorded and
fired, and its row is durable when the process has exited. -/
lemma run_wake {line : CommandLine} (hpath : line.telemetryDbPath ≠ [])
    (hsocket : line.socketPath.length < kSunPathBytes) {header body : Bytes} {length : UInt32}
    (hd : decodeFrameLength header = .ok length) (hbody : body.length = length.toNat)
    (hne : body ≠ []) {message : WakeMessage F} (hm : decodeWakeMessage body = .ok message)
    (hid : message.correlationId.length ≤ kMaxCorrelationIdBytes) (moment : Moment) :
    ∃ (hist : List (Process F ι × ProcessAction F ι)) (s : Process F ι),
      Run Step (new line) hist s ∧ s.thread = .exited 0 ∧
        s.store.written.db.durable.latencyEvents.length = 1 := by
  obtain ⟨h₁, s₁, hr₁, ht₁, htelemetry₁, hlooping, hstopping, hprefix, hs₁, hroom₁, hwritten₁⟩ :=
    run_accepts (F := F) (ι := ι) line hpath hsocket
  -- the frame
  obtain ⟨h, hframe, hplain⟩ := Executor.run_plain hlooping hstopping hprefix hd hbody hne moment
  obtain ⟨h₂, hr₂⟩ := run_serves ht₁ hframe hplain
  have hfiring : (s₁.executor.acked header body moment).firing = some (moment, message) := by
    rw [Executor.firing, Executor.acked, hm]
    exact if_pos (Nat.zero_add _).ge
  obtain ⟨h₃, s₃, hr₃, ht₃, htelemetry₃, hexecutor₃, hs₃, hwritten₃⟩ := run_fires
    (s := { s₁ with executor := s₁.executor.acked header body moment }) ht₁ htelemetry₁ hfiring
    hid hs₁ hroom₁
  -- the end
  obtain ⟨h₄, s₄, hr₄, ht₄, htelemetry₄, hstore₄⟩ := run_stops ht₃ htelemetry₃
    (by rw [hexecutor₃]; rfl) (by rw [hexecutor₃]; exact length_of_decode hd)
  obtain ⟨h₅, s₅, hr₅, ht₅, htelemetry₅, hs₅, hstop₅, hwritten₅⟩ :=
    run_closing ht₄ (by rw [hstore₄]; exact hs₃)
  have hwritten : s₅.store.written = Written.new := by
    rw [hwritten₅, hstore₄, hwritten₃, ← hwritten₁]
  obtain ⟨h, t, hdrain, hsink, hs₆, -, hdurable, hinside⟩ :=
    Store.run_drains hs₅ (by simp) (by rw [hwritten]; rfl)
  obtain ⟨h₆, hr₆⟩ := run_sinks hdrain fun p hp => ⟨by simp [hinside p hp], (hinside p hp).2⟩
  obtain ⟨h₇, s₇, hr₇, hexit, hdurable₇⟩ := run_joins (s := { s₅ with store := t }) ht₅
    (htelemetry₅.trans htelemetry₄) hs₆ (by rw [hsink]; exact hstop₅)
  have hr := (((((hr₁.append hr₂).append hr₃).append hr₄).append hr₅).append hr₆).append hr₇
  refine ⟨_, s₇, hr, hexit, ?_⟩
  rw [hdurable₇, hdurable, hwritten]
  rfl

end Process

end Hotpath
