import Hotpath.Executor.Answering

set_option relaxedAutoImplicit false
set_option autoImplicit false

/-!
# The counters of the executor

Over whole runs the counters account for every frame: each was acked, and each accepted one fired
unless the send of its ack failed and ended the connection. The callbacks were called as often as
the counters say, and every order is for the ticker and the side of the message that caused it.

## Main definitions

* `Hotpath.Executor.Accounted` — the invariant of the counters and the trace.

## Main results

* `Hotpath.Executor.counters_account`.
-/

namespace Hotpath

open System

variable {F ι : Type}

/-- How many fires were counted. -/
def ExecutorStats.fires (stats : ExecutorStats) : ℕ :=
  stats.firesDispatched + stats.firesRefusedPrice + stats.firesRefusedKillSwitch

/-- Every outcome of a fire is counted. -/
lemma ExecutorStats.fires_fired (stats : ExecutorStats) (outcome : FireOutcome) :
    (stats.fired outcome).fires = stats.fires + 1 := by
  cases outcome <;> simp only [fired, fires] <;> omega

namespace ServerEvent

/-- A connection ends because the send of an accepted ack failed. -/
def isLost : ServerEvent F → Bool
  | .ended .acceptedAck => true
  | _ => false

/-- A call of `record_wake_recv`. -/
def isRecorded : ServerEvent F → Bool
  | .frame _ (.recordWakeRecv _) => true
  | _ => false

/-- A call of `dispatch`. -/
def isDispatched : ServerEvent F → Bool
  | .frame _ (.dispatch _) => true
  | _ => false

end ServerEvent

open ServerEvent

/-! ## Requests and the messages that caused them -/

/-- Every request comes right after the fire of the message whose ticker and side its order has. -/
def Caused (trace : List (ServerEvent F)) : Prop :=
  ∀ l₁ n request l₂, trace = l₁ ++ .frame n (.dispatch request) :: l₂ →
    ∃ l₀ message, l₁ = l₀ ++ [.frame n (.handleFire message)] ∧
      request.order = ⟨message.marketTicker, message.direction⟩

/-- Without a request there is nothing to cause. -/
lemma caused_of_none {trace : List (ServerEvent F)} (h : ∀ e ∈ trace, e.isDispatched = false) :
    Caused trace := by
  rintro l₁ n request l₂ rfl
  have := h (.frame n (.dispatch request)) (by simp)
  cases this

/-- What happens later does not change what caused a request. -/
lemma Caused.append {trace later : List (ServerEvent F)} (h : Caused trace) (h' : Caused later) :
    Caused (trace ++ later) := by
  intro l₁ n request l₂ heq
  rcases List.append_eq_append_iff.mp heq with ⟨as, rfl, hlater⟩ | ⟨bs, rfl, hrest⟩
  · obtain ⟨l₀, message, rfl, horder⟩ := h' as n request l₂ hlater
    exact ⟨trace ++ l₀, message, (List.append_assoc _ _ _).symm, horder⟩
  · cases bs with
    | nil =>
      obtain ⟨l₀, message, h₀, -⟩ := h' [] n request l₂ hrest.symm
      simp at h₀
    | cons e bs =>
      obtain ⟨rfl, -⟩ := List.cons.inj hrest
      exact h l₁ n request bs rfl

/-- A request and the fire of its message before it. -/
lemma caused_pair {n : ℕ} {message : WakeMessage F} {request : FireRequest F}
    (horder : request.order = ⟨message.marketTicker, message.direction⟩) :
    Caused [.frame n (.handleFire message), .frame n (.dispatch request)] := by
  rintro l₁ m request' l₂ heq
  rcases l₁ with _ | ⟨e, _ | ⟨e', l₁⟩⟩
  · cases heq
  · cases heq
    exact ⟨[], message, rfl, horder⟩
  · simp at heq

/-! ## The invariant -/

/-- The counters account for the frames, and the trace for the counters; an ack that is still
being sent has been counted and has neither failed nor led to a fire. -/
structure Executor.Accounted (s : Executor F ι) : Prop where
  frames : s.server.stats.framesRead = s.server.stats.acksAccepted + s.server.stats.acksRejected
  fires : s.server.stats.fires + s.trace.countP isLost +
    (if s.control.pending.isSome then 1 else 0) = s.server.stats.acksAccepted
  records : s.trace.countP isRecorded =
    if s.server.recordWakeRecv then s.server.stats.fires else 0
  dispatches : s.trace.countP isDispatched =
    if s.server.dispatch then s.server.stats.firesDispatched else 0
  caused : Caused s.trace

namespace Executor

variable [Double F] {s s' : Executor F ι}

/-- What a fire adds to the trace and to the counters, by its outcome. -/
lemma fire_adds (s : Executor F ι) (moment : Moment) (message : WakeMessage F) :
    ∃ added outcome, (s.fire moment message).trace = s.trace ++ added ∧
      (s.fire moment message).server.stats = s.server.stats.fired outcome ∧
      added.countP isLost = 0 ∧
      added.countP isRecorded = (if s.server.recordWakeRecv then 1 else 0) ∧
      added.countP isDispatched =
        (if outcome = .dispatched ∧ s.server.dispatch then 1 else 0) ∧
      Caused added := by
  refine ⟨_, (s.server.handleFire moment.probe message).1, rfl,
    s.server.handleFire_stats moment.probe message, ?_⟩
  rw [s.server.handleFire_request moment.probe message]
  have hrecorded : ∀ event : WakeRecvEvent F, Caused [s.frameEvent (.recordWakeRecv event)] :=
    fun event => caused_of_none (by simp [frameEvent, isDispatched])
  have hfired : Caused [s.frameEvent (.handleFire message)] :=
    caused_of_none (by simp [frameEvent, isDispatched])
  have hpair : Caused [s.frameEvent (.handleFire message),
      s.frameEvent (.dispatch (ExecutorServer.requestFor message))] := caused_pair rfl
  split_ifs with hrecord hrequest hrequest
  · exact ⟨rfl, rfl, rfl, (hrecorded _).append hpair⟩
  · exact ⟨rfl, rfl, rfl, (hrecorded _).append hfired⟩
  · exact ⟨rfl, rfl, rfl, hpair⟩
  · exact ⟨rfl, rfl, rfl, hfired⟩

/-- A fire keeps the account. -/
lemma Accounted.fire (h : Accounted s) (moment : Moment) {message : WakeMessage F}
    (hp : s.control.pending = some message) : Accounted (s.fire moment message) := by
  obtain ⟨hdispatch, hrecord, -⟩ : (s.fire moment message).server.dispatch = s.server.dispatch ∧
      (s.fire moment message).server.recordWakeRecv = s.server.recordWakeRecv ∧
        (s.fire moment message).server.stopping = s.server.stopping :=
    s.server.handleFire_frame moment.probe message
  obtain ⟨added, outcome, htrace, hstats, hlost, hrecorded, hdispatched, hcaused⟩ :=
    s.fire_adds moment message
  have hfires := h.fires
  rw [hp] at hfires
  refine ⟨?_, ?_, ?_, ?_, htrace ▸ h.caused.append hcaused⟩
  · rw [hstats]
    have := h.frames
    cases outcome <;> exact this
  · have haccepted : (s.server.stats.fired outcome).acksAccepted = s.server.stats.acksAccepted := by
      cases outcome <;> rfl
    rw [hstats, htrace, List.countP_append, hlost, s.server.stats.fires_fired, haccepted, ← hfires]
    show _ + 1 + _ + 0 = _ + _ + 1
    omega
  · rw [hrecord, htrace, hstats, List.countP_append, hrecorded, h.records,
      s.server.stats.fires_fired]
    split_ifs <;> rfl
  · rw [hdispatch, htrace, hstats, List.countP_append, hdispatched, h.dispatches]
    cases outcome <;> cases s.server.dispatch <;> rfl

variable [CharConv F]

/-- The answer to a frame keeps the account. -/
lemma Accounted.answer (h : Accounted s) (moment : Moment) (hp : s.place = .reading) :
    Accounted (s.answer moment) := by
  have hpending : s.control.pending = none := by
    cases hpending : s.control.pending with
    | none => rfl
    | some message =>
      rw [place_of_pending hpending] at hp
      cases hp
  have hframes := h.frames
  have hfires := h.fires
  rw [hpending] at hfires
  unfold Executor.answer
  cases hdecode : decodeWakeMessage (F := F) s.server.body with
  | error e =>
    refine ⟨?_, hfires, h.records, h.dispatches, h.caused⟩
    show s.server.stats.framesRead + 1 =
      s.server.stats.acksAccepted + (s.server.stats.acksRejected + 1)
    omega
  | ok message =>
    refine ⟨?_, congrArg (· + 1) hfires, h.records, h.dispatches, h.caused⟩
    show s.server.stats.framesRead + 1 =
      s.server.stats.acksAccepted + 1 + s.server.stats.acksRejected
    omega

/-- Every step keeps the account. -/
lemma Accounted.step [DecidableEq ι] {a : ServerAction ι} (h : Accounted s) (hs : Step s a s') :
    Accounted s' := by
  obtain ⟨hcounts, hdispatch, hrecord⟩ := hs.counts
  cases hcounts with
  | silent hpending hstats htrace =>
    refine ⟨?_, ?_, ?_, ?_, htrace ▸ h.caused⟩
    · rw [hstats]
      exact h.frames
    · rw [hstats, htrace, hpending]
      exact h.fires
    · rw [hstats, htrace, hrecord]
      exact h.records
    · rw [hstats, htrace, hdispatch]
      exact h.dispatches
  | answers moment hp hs' => exact hs' ▸ h.answer moment hp
  | sends bytes _ hpending hstats htrace =>
    have hnone : ∀ p : ServerEvent F → Bool, (∀ b, p (s.frameEvent (.sent b)) = false) →
        ((bytes.map .sent).map s.frameEvent).countP p = 0 := by
      intro p hp
      simp [List.countP_eq_zero, hp]
    refine ⟨?_, ?_, ?_, ?_, htrace ▸ h.caused.append (caused_of_none ?_)⟩
    · rw [hstats]
      exact h.frames
    · rw [hstats, htrace, hpending, List.countP_append, hnone isLost fun _ => rfl]
      exact h.fires
    · rw [hstats, htrace, hrecord, List.countP_append, hnone isRecorded fun _ => rfl]
      exact h.records
    · rw [hstats, htrace, hdispatch, List.countP_append, hnone isDispatched fun _ => rfl]
      exact h.dispatches
    · simp [frameEvent, isDispatched]
  | fires moment message hp hs' => exact hs' ▸ h.fire moment hp
  | ends ending hending hs' =>
    subst hs'
    have htrace : (s.leave ending).trace = s.trace ++ [.ended ending] := rfl
    have hfires := h.fires
    have hcaused : Caused (s.trace ++ [.ended ending]) :=
      h.caused.append (caused_of_none (by simp [isDispatched]))
    refine ⟨h.frames, ?_, ?_, ?_, htrace ▸ hcaused⟩
    · -- what was pending is lost, if anything was
      show s.server.stats.fires + (s.leave ending).trace.countP isLost + 0 =
        s.server.stats.acksAccepted
      rw [htrace, List.countP_append, ← hfires]
      cases hpending : s.control.pending with
      | none =>
        have hne : ending ≠ .acceptedAck := fun h' => by simpa [hpending] using hending.mp h'
        cases ending <;> first | rfl | exact absurd rfl hne
      | some message =>
        obtain rfl : ending = .acceptedAck := hending.mpr (by rw [hpending]; rfl)
        rfl
    · rw [htrace, List.countP_append]
      exact h.records
    · rw [htrace, List.countP_append]
      exact h.dispatches

/-- **The counters account for every frame.** In every run of a server, over any number of
connections, whatever the peers send and take, wherever they disconnect or the server is asked to
stop: while no frame is being answered, the frames read are the acks accepted and rejected, and
the fires are the accepted acks less the connections that ended because the send of one failed;
the callbacks were called once for each fire and for each dispatch, where they are set; and the
order of every request has the ticker and the side of the message that caused it. -/
theorem counters_account [DecidableEq ι] {killSwitch : Option KillSwitch}
    {dispatch recordWakeRecv : Bool} {d : Descriptors}
    {h : List (Executor F ι × ServerAction ι)} {s : Executor F ι}
    (hr : Run Step (new (ExecutorServer.new killSwitch dispatch recordWakeRecv) d) h s) :
    (s.place ≠ .sending →
      s.server.stats.framesRead = s.server.stats.acksAccepted + s.server.stats.acksRejected ∧
      s.server.stats.fires + s.trace.countP isLost = s.server.stats.acksAccepted ∧
      s.trace.countP isRecorded = (if recordWakeRecv then s.server.stats.fires else 0) ∧
      s.trace.countP isDispatched = (if dispatch then s.server.stats.firesDispatched else 0)) ∧
    Caused s.trace := by
  obtain ⟨haccount, hdispatch, hrecord⟩ : Accounted s ∧ s.server.dispatch = dispatch ∧
      s.server.recordWakeRecv = recordWakeRecv := by
    refine hr.invariant (I := fun s => Accounted s ∧ s.server.dispatch = dispatch ∧
      s.server.recordWakeRecv = recordWakeRecv) ?_ ?_
    · refine ⟨⟨rfl, rfl, ?_, ?_, caused_of_none (by simp [new])⟩, rfl, rfl⟩
      · cases recordWakeRecv <;> rfl
      · cases dispatch <;> rfl
    · rintro s a s' ⟨h, hdispatch, hrecord⟩ hs
      obtain ⟨-, hdispatch', hrecord'⟩ := hs.counts
      exact ⟨h.step hs, hdispatch'.trans hdispatch, hrecord'.trans hrecord⟩
  refine ⟨fun hplace => ⟨haccount.frames, ?_, ?_, ?_⟩, haccount.caused⟩
  · have hpending : s.control.pending = none := by
      cases hpending : s.control.pending with
      | none => rfl
      | some message => exact absurd (place_of_pending hpending) hplace
    have := haccount.fires
    rwa [hpending] at this
  · rw [haccount.records, hrecord]
  · rw [haccount.dispatches, hdispatch]

/-- A server that has rejected the first frame of a connection and has accepted and fired the
second has read two frames, and called each callback once. -/
theorem counters_account_fired :
    ∃ (h : List (Executor SignedZero Unit × ServerAction Unit)) (s : Executor SignedZero Unit),
      Run Step (new (ExecutorServer.new none true true) ⟨3, 4, 5⟩) h s ∧
        s.control = .looping ∧ s.server.stats = ⟨2, 1, 1, 1, 0, 0⟩ ∧
        s.trace.countP isLost = 0 ∧ s.trace.countP isRecorded = 1 ∧
        s.trace.countP isDispatched = 1 ∧ Caused s.trace := by
  have hdecode : (decodeWakeMessage (F := SignedZero) [120]).toOption = none := by decide +kernel
  obtain ⟨error, herror⟩ : ∃ e, decodeWakeMessage (F := SignedZero) [120] = .error e := by
    cases h : decodeWakeMessage (F := SignedZero) [120] with
    | error e => exact ⟨e, rfl⟩
    | ok m => simp [h, Except.toOption] at hdecode
  obtain ⟨h, e, hr, hc, hstop, hroom, hstats⟩ :
      ∃ (h : List (Executor SignedZero Unit × ServerAction Unit)) (e : Executor SignedZero Unit),
        Run Step (new (ExecutorServer.new none true true) ⟨3, 4, 5⟩) h e ∧
          e.control = .looping ∧ e.server.stopping = false ∧
          e.framePrefix.length = kFrameLengthBytes ∧ e.server.stats = ⟨0, 0, 0, 0, 0, 0⟩ :=
    ⟨_, _, Run.cons (.start rfl) (Run.cons (.poll rfl true) (Run.cons (.polled rfl)
      (Run.cons (.accept rfl 7) (Run.cons (.publish rfl rfl) Run.nil)))), rfl, rfl, rfl, rfl⟩
  have hone : decodeFrameLength [0, 0, 0, 1] = .ok 1 := rfl
  obtain ⟨h₁, e₁, hr₁, hc₁, hstop₁, hroom₁, hstats₁⟩ :=
    run_rejected hc hstop hroom hone rfl (by simp) herror
  obtain ⟨header, length, -, hd, hbody⟩ := exists_header firstWake.body (by decide +kernel)
  obtain ⟨h₂, e₂, hr₂, hc₂, -, -, hstats₂⟩ := run_fired hc₁ hstop₁ hroom₁ hd hbody
    (by decide +kernel) decode_firstWake rfl
  rw [hstats₁, hstats] at hstats₂
  have hwhole := (hr.append hr₁).append hr₂
  obtain ⟨haccount, hcaused⟩ := counters_account hwhole
  obtain ⟨-, hlost, hrecorded, hdispatched⟩ := haccount (by rw [place, hc₂]; rintro ⟨⟩)
  rw [hstats₂] at hlost hrecorded hdispatched
  exact ⟨_, e₂, hwhole, hc₂, hstats₂, by simpa [ExecutorStats.fires] using hlost, hrecorded,
    hdispatched, hcaused⟩

end Executor

end Hotpath
