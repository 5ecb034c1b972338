import Hotpath.Executor.Server

set_option relaxedAutoImplicit false
set_option autoImplicit false

/-!
# What a step of the server can do

The steps of the threads, said twice and each time as coarsely as the proofs about runs need
them: by what they do to the place of the serving thread, the socket and the published
descriptor, and by what they do to the counters and the trace.

## Main definitions

* `Hotpath.Place` — where the serving thread is.
* `Hotpath.Executor.Moves`, `Hotpath.Executor.Same`.
* `Hotpath.Executor.Counts`.

## Main results

* `Hotpath.Executor.Step.moves`, `Hotpath.Executor.Step.counts`.
-/

namespace Hotpath

variable {F ι : Type}

/-! ## Places -/

/-- A place of the serving thread, as far as the signals are concerned. -/
inductive Place where
  /-- No connection, and a check before one may be accepted. -/
  | idle
  /-- No connection, and no check before one may be accepted. -/
  | waiting
  | accepted
  | looping
  | reading
  | sending
  | leaving
  | closing
  deriving DecidableEq, Repr

/-- The place of a thread. -/
def Control.place : Control F → Place
  | .start => .idle
  | .polling => .waiting
  | .pollInterrupted => .waiting
  | .polled _ _ => .waiting
  | .accepting => .waiting
  | .acceptFailed _ => .idle
  | .accepted => .accepted
  | .looping => .looping
  | .reading _ _ => .reading
  | .readInterrupted _ _ => .reading
  | .sending _ _ _ => .sending
  | .sendInterrupted _ _ _ => .sending
  | .leaving => .leaving
  | .closing => .closing
  | .closed => .idle
  | .returned => .idle

/-- The message whose accepted ack is being sent. -/
def Control.pending : Control F → Option (WakeMessage F)
  | .sending _ (.ok message) _ => some message
  | .sendInterrupted _ (.ok message) _ => some message
  | _ => none

namespace Executor

/-- The place of the serving thread. -/
def place (s : Executor F ι) : Place := s.control.place

/-- `connection_fd_` is that of the connection. -/
def Published (p : Place) : Prop :=
  p = .looping ∨ p = .reading ∨ p = .sending ∨ p = .leaving

/-- What a step of the serving thread does to the socket, the published descriptor and the place
of the thread. -/
inductive Moves (s s' : Executor F ι) : Prop
  | between (hp : s.place = .idle ∨ s.place = .waiting)
      (hp' : s'.place = .idle ∨
        s'.place = .waiting ∧ (s.place = .waiting ∨ s.server.stopping = false))
      (hsocket : s'.socket = s.socket) (hfd : s'.connectionFd = s.connectionFd)
  | accepts (hp : s.place = .waiting) (hp' : s'.place = .accepted)
      (hfd : s'.connectionFd = s.connectionFd)
  | publishes (k : Socket) (hp : s.place = .accepted) (hp' : s'.place = .looping)
      (hk : s.socket = some k) (hsocket : s'.socket = s.socket) (hfd : s'.connectionFd = k.fd)
  | serves (hp : Published s.place) (hp' : Published s'.place)
      (hreading : s'.place = .reading → s.place = .reading ∨ s.server.stopping = false)
      (hsending : s'.place = .sending → s.place = .reading ∨ s.place = .sending)
      (hsocket : s'.socket = s.socket) (hfd : s'.connectionFd = s.connectionFd)
  | unpublishes (hp : s.place = .leaving) (hp' : s'.place = .closing)
      (hsocket : s'.socket = s.socket) (hfd : s'.connectionFd = -1)
  | closes (hp : s.place = .closing) (hp' : s'.place = .idle) (hsocket : s'.socket = none)
      (hfd : s'.connectionFd = s.connectionFd)

/-- What the serving thread leaves alone. -/
structure Same (s s' : Executor F ι) : Prop where
  stoppers : s'.stoppers = s.stoppers
  pipe : s'.pipe = s.pipe
  stopping : s'.server.stopping = s.server.stopping
  descriptors : s'.descriptors = s.descriptors

variable [DecidableEq ι] [Double F] [CharConv F]

omit [DecidableEq ι] [CharConv F] in
/-- A fire leaves alone what the signals are about. -/
lemma same_fire (s : Executor F ι) (moment : Moment) (message : WakeMessage F) :
    Same s (s.fire moment message) :=
  ⟨rfl, rfl, (s.server.handleFire_frame moment.probe message).2.2, rfl⟩

omit [DecidableEq ι] [Double F] [CharConv F] in
/-- The filling of a buffer leaves alone what the signals are about. -/
lemma same_fill (s : Executor F ι) (part : FramePart) (filled : ℕ) (read : Bytes) :
    Same s (s.fill part filled read) ∧ (s.fill part filled read).socket = s.socket ∧
      (s.fill part filled read).connectionFd = s.connectionFd := by
  cases part <;> exact ⟨⟨rfl, rfl, rfl, rfl⟩, rfl, rfl⟩

/-- **A step is one of `stop` or of the serving thread**, and the latter leaves alone what belongs
to the former. -/
theorem Step.moves {s s' : Executor F ι} {a : ServerAction ι} (hs : Step s a s') :
    (∃ i, a = .stop i) ∨ (Moves s s' ∧ Same s s') := by
  have hbetween : ∀ c : Control F, s.place = .idle ∨ s.place = .waiting →
      (c.place = .idle ∨ c.place = .waiting ∧ (s.place = .waiting ∨ s.server.stopping = false)) →
      (∃ i, a = .stop i) ∨ (Moves s { s with control := c } ∧ Same s { s with control := c }) :=
    fun c hp hp' => Or.inr ⟨.between hp hp' rfl rfl, rfl, rfl, rfl, rfl⟩
  have hserves : ∀ t : Executor F ι, Published s.place → Published t.place →
      (t.place = .reading → s.place = .reading ∨ s.server.stopping = false) →
      (t.place = .sending → s.place = .reading ∨ s.place = .sending) →
      Same s t ∧ t.socket = s.socket ∧ t.connectionFd = s.connectionFd →
      (∃ i, a = .stop i) ∨ (Moves s t ∧ Same s t) :=
    fun t hp hp' hreading hsending h =>
      Or.inr ⟨.serves hp hp' hreading hsending h.2.1 h.2.2, h.1⟩
  have hlooping : s.place = .looping → Published s.place := Or.inl
  have hreading : s.place = .reading → Published s.place := fun h => Or.inr (Or.inl h)
  have hsending : s.place = .sending → Published s.place := fun h => Or.inr (Or.inr (Or.inl h))
  have hleave : ∀ ending, Published s.place →
      (∃ i, a = .stop i) ∨ (Moves s (s.leave ending) ∧ Same s (s.leave ending)) :=
    fun ending hp => hserves _ hp (Or.inr (Or.inr (Or.inr rfl))) (by rintro ⟨⟩) (by rintro ⟨⟩)
      ⟨⟨rfl, rfl, rfl, rfl⟩, rfl, rfl⟩
  have hplace : ∀ {c : Control F}, s.control = c → s.place = c.place := fun hc =>
    congrArg Control.place hc
  cases hs with
  | start hc =>
    apply hbetween _ (Or.inl (hplace hc))
    split_ifs with h
    · exact Or.inl rfl
    · exact Or.inr ⟨rfl, Or.inr (by simpa using (not_or.mp h).1)⟩
  | pollFailed hc => exact hbetween _ (Or.inr (hplace hc)) (Or.inl rfl)
  | pollInterrupted hc =>
    exact hbetween _ (Or.inr (hplace hc)) (Or.inr ⟨rfl, Or.inl (hplace hc)⟩)
  | poll hc listening =>
    exact hbetween _ (Or.inr (hplace hc)) (Or.inr ⟨rfl, Or.inl (hplace hc)⟩)
  | pollAgain hc =>
    apply hbetween _ (Or.inr (hplace hc))
    split_ifs
    · exact Or.inr ⟨rfl, Or.inl (hplace hc)⟩
    · exact Or.inl rfl
  | polled hc =>
    apply hbetween _ (Or.inr (hplace hc))
    split_ifs
    · exact Or.inl rfl
    · exact Or.inr ⟨rfl, Or.inl (hplace hc)⟩
    · exact Or.inr ⟨rfl, Or.inl (hplace hc)⟩
  | accept hc fd => exact Or.inr ⟨.accepts (hplace hc) rfl rfl, rfl, rfl, rfl, rfl⟩
  | acceptInterrupted hc => exact hbetween _ (Or.inr (hplace hc)) (Or.inl rfl)
  | acceptFailed hc => exact hbetween _ (Or.inr (hplace hc)) (Or.inl rfl)
  | acceptReturn hc =>
    apply hbetween _ (Or.inl (hplace hc))
    split_ifs <;> exact Or.inl rfl
  | @publish k hc hk => exact Or.inr ⟨.publishes k (hplace hc) rfl hk rfl rfl, rfl, rfl, rfl, rfl⟩
  | loop hc hstopping =>
    exact hserves _ (hlooping (hplace hc)) (Or.inr (Or.inl rfl)) (fun _ => Or.inr hstopping)
      (by rintro ⟨⟩) ⟨⟨rfl, rfl, rfl, rfl⟩, rfl, rfl⟩
  | loopStopped hc _ => exact hleave _ (hlooping (hplace hc))
  | @read part filled got _ _ read hc =>
    obtain ⟨⟨h₁, h₂, h₃, h₄⟩, hsocket, hfd⟩ := s.same_fill part filled read
    exact hserves _ (hreading (hplace hc)) (Or.inr (Or.inl rfl)) (fun _ => Or.inl (hplace hc))
      (by rintro ⟨⟩) ⟨⟨h₁, h₂, h₃, h₄⟩, hsocket, hfd⟩
  | readFailed hc => exact hleave _ (hreading (hplace hc))
  | readInterrupted hc =>
    exact hserves _ (hreading (hplace hc)) (Or.inr (Or.inl rfl)) (fun _ => Or.inl (hplace hc))
      (by rintro ⟨⟩) ⟨⟨rfl, rfl, rfl, rfl⟩, rfl, rfl⟩
  | readAgain hc =>
    exact hserves _ (hreading (hplace hc)) (Or.inr (Or.inl rfl)) (fun _ => Or.inl (hplace hc))
      (by rintro ⟨⟩) ⟨⟨rfl, rfl, rfl, rfl⟩, rfl, rfl⟩
  | readStopped hc _ => exact hleave _ (hreading (hplace hc))
  | length hc =>
    exact hserves _ (hreading (hplace hc)) (Or.inr (Or.inl rfl)) (fun _ => Or.inl (hplace hc))
      (by rintro ⟨⟩) ⟨⟨rfl, rfl, rfl, rfl⟩, rfl, rfl⟩
  | lengthRefused hc => exact hleave _ (hreading (hplace hc))
  | answer hc _ moment =>
    exact hserves _ (hreading (hplace hc)) (Or.inr (Or.inr (Or.inl rfl))) (by rintro ⟨⟩)
      (fun _ => Or.inl (hplace hc)) ⟨⟨rfl, rfl, rfl, rfl⟩, rfl, rfl⟩
  | send hc =>
    exact hserves _ (hsending (hplace hc)) (Or.inr (Or.inr (Or.inl rfl))) (by rintro ⟨⟩)
      (fun _ => Or.inr (hplace hc)) ⟨⟨rfl, rfl, rfl, rfl⟩, rfl, rfl⟩
  | sendFailed hc => exact hleave _ (hsending (hplace hc))
  | sendInterrupted hc =>
    exact hserves _ (hsending (hplace hc)) (Or.inr (Or.inr (Or.inl rfl))) (by rintro ⟨⟩)
      (fun _ => Or.inr (hplace hc)) ⟨⟨rfl, rfl, rfl, rfl⟩, rfl, rfl⟩
  | sendAgain hc =>
    exact hserves _ (hsending (hplace hc)) (Or.inr (Or.inr (Or.inl rfl))) (by rintro ⟨⟩)
      (fun _ => Or.inr (hplace hc)) ⟨⟨rfl, rfl, rfl, rfl⟩, rfl, rfl⟩
  | sendStopped hc _ => exact hleave _ (hsending (hplace hc))
  | rejected hc =>
    exact hserves _ (hsending (hplace hc)) (Or.inl rfl) (by rintro ⟨⟩) (by rintro ⟨⟩)
      ⟨⟨rfl, rfl, rfl, rfl⟩, rfl, rfl⟩
  | @fire moment message _ hc =>
    exact hserves _ (hsending (hplace hc)) (Or.inl rfl) (by rintro ⟨⟩) (by rintro ⟨⟩)
      ⟨s.same_fire moment message, rfl, rfl⟩
  | unpublish hc => exact Or.inr ⟨.unpublishes (hplace hc) rfl rfl rfl, rfl, rfl, rfl, rfl⟩
  | close hc => exact Or.inr ⟨.closes (hplace hc) rfl rfl rfl, rfl, rfl, rfl, rfl⟩
  | finish hc =>
    apply hbetween _ (Or.inl (hplace hc))
    split_ifs <;> exact Or.inl rfl
  | call hc => exact hbetween _ (Or.inl (hplace hc)) (Or.inl rfl)
  | stopStore _ => exact Or.inl ⟨_, rfl⟩
  | stopWrite _ => exact Or.inl ⟨_, rfl⟩
  | stopLoad _ => exact Or.inl ⟨_, rfl⟩
  | stopShutdown _ => exact Or.inl ⟨_, rfl⟩

/-! ## Counters and trace -/

omit [DecidableEq ι] [Double F] [CharConv F] in
/-- An accepted ack is pending only where one is being sent. -/
lemma place_of_pending {s : Executor F ι} {message : WakeMessage F}
    (h : s.control.pending = some message) : s.place = .sending := by
  cases hc : s.control with
  | sending _ _ _ => exact congrArg Control.place hc
  | sendInterrupted _ _ _ => exact congrArg Control.place hc
  | _ => rw [hc] at h; cases h

/-- What a step does to the counters and the trace. -/
inductive Counts (s s' : Executor F ι) : Prop
  | silent (hpending : s'.control.pending = s.control.pending)
      (hstats : s'.server.stats = s.server.stats) (htrace : s'.trace = s.trace)
  | answers (moment : Moment) (hp : s.place = .reading) (hs' : s' = s.answer moment)
  | sends (bytes : Bytes) (hp : s.place = .sending)
      (hpending : s'.control.pending = s.control.pending)
      (hstats : s'.server.stats = s.server.stats)
      (htrace : s'.trace = s.trace ++ (bytes.map .sent).map s.frameEvent)
  | fires (moment : Moment) (message : WakeMessage F) (hp : s.control.pending = some message)
      (hs' : s' = s.fire moment message)
  | ends (ending : Ending) (hending : ending = .acceptedAck ↔ s.control.pending.isSome = true)
      (hs' : s' = s.leave ending)

/-- **What a step does to the counters and the trace**; the configuration stays. -/
theorem Step.counts {s s' : Executor F ι} {a : ServerAction ι} (hs : Step s a s') :
    Counts s s' ∧ s'.server.dispatch = s.server.dispatch ∧
      s'.server.recordWakeRecv = s.server.recordWakeRecv := by
  have hsilent : ∀ c : Control F, c.pending = none → s.control.pending = none →
      Counts s { s with control := c } := fun c h h' => .silent (h.trans h'.symm) rfl rfl
  have hpending : ∀ {c : Control F}, s.control = c → s.control.pending = c.pending := fun hc =>
    congrArg Control.pending hc
  have hends : ∀ ending, (ending = .acceptedAck ↔ s.control.pending.isSome = true) →
      Counts s (s.leave ending) := fun ending h => .ends ending h rfl
  have hleaves : ∀ ending, ending ≠ .acceptedAck → s.control.pending = none →
      Counts s (s.leave ending) := fun ending hne hnone => hends ending (by simp [hne, hnone])
  cases hs with
  | start hc =>
    refine ⟨hsilent _ ?_ (hpending hc), rfl, rfl⟩
    split_ifs <;> rfl
  | pollFailed hc => exact ⟨hsilent _ rfl (hpending hc), rfl, rfl⟩
  | pollInterrupted hc => exact ⟨hsilent _ rfl (hpending hc), rfl, rfl⟩
  | poll hc _ => exact ⟨hsilent _ rfl (hpending hc), rfl, rfl⟩
  | pollAgain hc =>
    refine ⟨hsilent _ ?_ (hpending hc), rfl, rfl⟩
    split_ifs <;> rfl
  | polled hc =>
    refine ⟨hsilent _ ?_ (hpending hc), rfl, rfl⟩
    split_ifs <;> rfl
  | accept hc _ => exact ⟨.silent (hpending hc).symm rfl rfl, rfl, rfl⟩
  | acceptInterrupted hc => exact ⟨hsilent _ rfl (hpending hc), rfl, rfl⟩
  | acceptFailed hc => exact ⟨hsilent _ rfl (hpending hc), rfl, rfl⟩
  | acceptReturn hc =>
    refine ⟨hsilent _ ?_ (hpending hc), rfl, rfl⟩
    split_ifs <;> rfl
  | publish hc _ => exact ⟨.silent (hpending hc).symm rfl rfl, rfl, rfl⟩
  | loop hc _ => exact ⟨hsilent _ rfl (hpending hc), rfl, rfl⟩
  | loopStopped hc _ => exact ⟨hleaves _ (by rintro ⟨⟩) (hpending hc), rfl, rfl⟩
  | @read part filled got _ _ read hc =>
    cases part <;> exact ⟨.silent (hpending hc).symm rfl rfl, rfl, rfl⟩
  | readFailed hc => exact ⟨hleaves _ (by rintro ⟨⟩) (hpending hc), rfl, rfl⟩
  | readInterrupted hc => exact ⟨hsilent _ rfl (hpending hc), rfl, rfl⟩
  | readAgain hc => exact ⟨hsilent _ rfl (hpending hc), rfl, rfl⟩
  | readStopped hc => exact ⟨hleaves _ (by rintro ⟨⟩) (hpending hc), rfl, rfl⟩
  | length hc => exact ⟨.silent (hpending hc).symm rfl rfl, rfl, rfl⟩
  | lengthRefused hc => exact ⟨hleaves _ (by rintro ⟨⟩) (hpending hc), rfl, rfl⟩
  | answer hc _ moment => exact ⟨.answers moment (congrArg Control.place hc) rfl, rfl, rfl⟩
  | @send moment decoded sent _ _ _ bytes hc =>
    refine ⟨.sends bytes (congrArg Control.place hc) ?_ rfl rfl, rfl, rfl⟩
    rw [hpending hc]
    cases decoded <;> rfl
  | @sendFailed _ decoded _ _ _ _ hc =>
    refine ⟨hends _ ?_, rfl, rfl⟩
    rw [hpending hc]
    cases decoded <;> simp [ackEnding, Control.pending]
  | @sendInterrupted _ decoded _ _ _ _ hc =>
    refine ⟨.silent ?_ rfl rfl, rfl, rfl⟩
    rw [hpending hc]
    cases decoded <;> rfl
  | @sendAgain _ decoded _ hc _ =>
    refine ⟨.silent ?_ rfl rfl, rfl, rfl⟩
    rw [hpending hc]
    cases decoded <;> rfl
  | @sendStopped _ decoded _ hc _ =>
    refine ⟨hends _ ?_, rfl, rfl⟩
    rw [hpending hc]
    cases decoded <;> simp [ackEnding, Control.pending]
  | rejected hc => exact ⟨hsilent _ rfl (hpending hc), rfl, rfl⟩
  | @fire moment message _ hc =>
    obtain ⟨hdispatch, hrecord, -⟩ := s.server.handleFire_frame moment.probe message
    exact ⟨.fires moment message (hpending hc) rfl, hdispatch, hrecord⟩
  | unpublish hc => exact ⟨.silent (hpending hc).symm rfl rfl, rfl, rfl⟩
  | close hc => exact ⟨.silent (hpending hc).symm rfl rfl, rfl, rfl⟩
  | finish hc =>
    refine ⟨hsilent _ ?_ (hpending hc), rfl, rfl⟩
    split_ifs <;> rfl
  | call hc => exact ⟨hsilent _ rfl (hpending hc), rfl, rfl⟩
  | stopStore _ => exact ⟨.silent rfl rfl rfl, rfl, rfl⟩
  | stopWrite _ => exact ⟨.silent rfl rfl rfl, rfl, rfl⟩
  | stopLoad _ => exact ⟨.silent rfl rfl rfl, rfl, rfl⟩
  | stopShutdown _ => exact ⟨.silent rfl rfl rfl, rfl, rfl⟩

end Executor

end Hotpath
