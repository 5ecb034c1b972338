import Hotpath.Bench.AckedFires
import Hotpath.Executor.Counters
import Hotpath.Protocol.Exact

set_option relaxedAutoImplicit false
set_option autoImplicit false

/-!
# The round trips of the benchmark

`bench_roundtrip` of `bench/bench_main.cpp` sends its wakes one after the other, takes every ack as
accepting or gives up, stops the server, joins its thread, and then requires that each wake was
recorded and dispatched. The server may be anywhere behind the last ack when it is stopped.

## Main definitions

* `Hotpath.Exchange.called` — the messages that `send_wake` was called with.
* `Hotpath.Executor.CalledBack` — the callbacks were called for each fire.

## Main results

* `Hotpath.Exchange.roundtrips_handled` — what the benchmark requires holds.
-/

namespace Hotpath

open System
open ServerEvent (isRecorded isDispatched)

variable {F ι : Type}

/-! ## The callbacks -/

/-- A fire without a kill switch is dispatched, unless the price is refused. -/
private lemma ExecutorServer.handleFire_of_none [Double F] {s : ExecutorServer} (probe : Probe)
    (m : WakeMessage F) (h : s.killSwitch = none) :
    (s.handleFire probe m).2.2.killSwitch = none ∧
      (¬ RefusesPrice m → (s.handleFire probe m).1 = .dispatched) := by
  have hengaged : s.engaged probe = (false, s) := by
    rw [engaged, h]
  have hfired := s.handleFire_fired probe m
  generalize (s.handleFire probe m).1 = outcome at hfired ⊢
  generalize (s.handleFire probe m).2.1 = request at hfired
  generalize (s.handleFire probe m).2.2.killSwitch = killSwitch at hfired ⊢
  cases hfired with
  | price hp => exact ⟨h, fun hnot => absurd hp hnot⟩
  | engaged _ _ he => simp [hengaged] at he
  | real _ _ _ => exact ⟨by rw [hengaged]; exact h, fun _ => rfl⟩
  | shadow _ => exact ⟨h, fun _ => rfl⟩

/-- A server without a kill switch and with both callbacks has called each of them once for each
fire, the one for requests unless the price was refused. -/
structure Executor.CalledBack [Double F] (s : Executor F ι) : Prop where
  killSwitch : s.server.killSwitch = none
  dispatch : s.server.dispatch = true
  records : s.server.recordWakeRecv = true
  recorded : s.trace.countP isRecorded = (firedIn s.trace).length
  dispatched : (∀ m ∈ firedIn s.trace, ¬ ExecutorServer.RefusesPrice m) →
    s.trace.countP isDispatched = (firedIn s.trace).length

namespace Executor

variable [Double F] {s s' : Executor F ι}

/-- The counters tell how a fire went. -/
private lemma fired_injective {stats : ExecutorStats} {o o' : FireOutcome}
    (h : stats.fired o = stats.fired o') : o = o' := by
  cases o <;> cases o' <;> simp [ExecutorStats.fired] at h ⊢

/-- A fire calls the callbacks. -/
private lemma CalledBack.fire (h : CalledBack s) (moment : Moment) (message : WakeMessage F) :
    CalledBack (s.fire moment message) := by
  obtain ⟨hkill, hdispatched⟩ :=
    ExecutorServer.handleFire_of_none moment.probe message h.killSwitch
  obtain ⟨hdispatch, hrecord, -⟩ := s.server.handleFire_frame moment.probe message
  obtain ⟨added, outcome, htrace, hstats, -, hrecorded, hrequests, -⟩ := s.fire_adds moment message
  obtain rfl : (s.server.handleFire moment.probe message).1 = outcome :=
    fired_injective ((s.server.handleFire_stats moment.probe message).symm.trans hstats)
  refine ⟨hkill, hdispatch.trans h.dispatch, hrecord.trans h.records, ?_, fun hall => ?_⟩
  · rw [firedIn_fire, htrace, List.countP_append, h.recorded, hrecorded, h.records,
      List.length_append]
    rfl
  · rw [firedIn_fire] at hall ⊢
    have hrequest := hdispatched (hall message (by simp))
    rw [htrace, List.countP_append, hrequests, hrequest, h.dispatch,
      h.dispatched fun m hm => hall m (List.mem_append_left _ hm), List.length_append]
    rfl

/-- No step gives a server a kill switch. -/
private lemma Step.killSwitch_none [CharConv F] [DecidableEq ι] {a : ServerAction ι}
    (hs : Step s a s') (h : s.server.killSwitch = none) : s'.server.killSwitch = none := by
  cases hs with
  | @read part _ _ _ _ _ _ _ _ => cases part <;> exact h
  | fire _ _ => exact (ExecutorServer.handleFire_of_none _ _ h).1
  | _ => exact h

/-- Every step keeps the account of the callbacks. -/
lemma CalledBack.step [CharConv F] [DecidableEq ι] {a : ServerAction ι} (h : CalledBack s)
    (hs : Step s a s') : CalledBack s' := by
  obtain ⟨hcounts, hdispatch, hrecord⟩ := hs.counts
  have hkill := hs.killSwitch_none h.killSwitch
  have hsame : firedIn s'.trace = firedIn s.trace →
      s'.trace.countP isRecorded = s.trace.countP isRecorded →
      s'.trace.countP isDispatched = s.trace.countP isDispatched → CalledBack s' := by
    intro hfired hrecorded hdispatched
    refine ⟨hkill, hdispatch.trans h.dispatch, hrecord.trans h.records, ?_, ?_⟩
    · rw [hrecorded, hfired, h.recorded]
    · rw [hdispatched, hfired]
      exact h.dispatched
  cases hcounts with
  | silent _ _ htrace => exact hsame (by rw [htrace]) (by rw [htrace]) (by rw [htrace])
  | answers moment _ hs' => exact hs' ▸ ⟨h.killSwitch, h.dispatch, h.records, h.recorded,
      h.dispatched⟩
  | sends bytes _ _ _ htrace =>
    have hnone : ∀ p : ServerEvent F → Bool, (∀ b, p (s.frameEvent (.sent b)) = false) →
        s'.trace.countP p = s.trace.countP p := by
      intro p hp
      rw [htrace, List.countP_append]
      simp [List.countP_eq_zero, hp]
    exact hsame (by rw [htrace]; exact firedIn_sent _ _ _) (hnone _ fun _ => rfl)
      (hnone _ fun _ => rfl)
  | fires moment message _ hs' => exact hs' ▸ h.fire moment message
  | ends ending _ hs' =>
    subst hs'
    refine hsame (firedIn_ended _ _) ?_ ?_ <;> exact List.countP_append

end Executor

/-! ## The calls -/

/-- The message of a call. -/
def ClientEvent.called? : ClientEvent F → Option (WakeMessage F)
  | .called message => some message
  | _ => none

namespace Exchange

/-- The messages that `send_wake` was called with. -/
def called (h : List (Exchange F ι × ClientEvent F)) : List (WakeMessage F) :=
  h.filterMap fun p => p.2.called?

/-- One event more calls at most one message more. -/
private lemma called_snoc (h : List (Exchange F ι × ClientEvent F)) (s : Exchange F ι)
    (event : ClientEvent F) : called (h ++ [(s, event)]) = called h ++ event.called?.toList := by
  rw [called, List.filterMap_append]
  cases event <;> rfl

/-- A call that the benchmark goes on after: it is made with a message that fits a frame, and
returns an accepting ack. -/
def GoesOn [CharConv F] (p : Exchange F ι × ClientEvent F) : Prop :=
  match p.2 with
  | .called message => message.body.length < 2 ^ 32
  | .returned result => ∃ ack, result = .ok ack ∧ ack.status = .accepted
  | .internal => True

/-- A call that goes on does not fail amid its ack. -/
lemma GoesOn.clean [CharConv F] {p : Exchange F ι × ClientEvent F} (h : GoesOn p) : Clean p := by
  obtain ⟨s, event⟩ := p
  cases event with
  | internal => trivial
  | called message => exact h
  | returned result =>
    obtain ⟨ack, rfl, -⟩ := h
    trivial

/-- The accepted messages are those that were sent, but for the one of a call that is going on. -/
def Matched [Double F] [CharConv F] (h : List (Exchange F ι × ClientEvent F))
    (s : Exchange F ι) : Prop :=
  if s.client.control = .idle then accepted h = called h
  else ∃ message out, called h = accepted h ++ [message] ∧
    s.client.frame = encodeWakeMessageInto message out

section Matched

variable [Double F] [CharConv F] {h : List (Exchange F ι × ClientEvent F)} {s s' : Exchange F ι}
  {event : ClientEvent F}

/-- A step that neither begins nor ends a call. -/
private lemma Matched.of_silent (hm : Matched h s) (hcalled : event.called? = none)
    (haccepted : acceptance? (s, event) = none)
    (hcontrol : s'.client.control = .idle ↔ s.client.control = .idle)
    (hframe : s'.client.frame = s.client.frame) : Matched (h ++ [(s, event)]) s' := by
  rw [Matched, accepted_snoc haccepted, called_snoc, hcalled, hframe, Option.toList_none,
    List.append_nil]
  simp only [hcontrol]
  exact hm

/-- What is read of a frame that was written for a message is this message. -/
private lemma eq_of_wake? {message message' : WakeMessage F} {out : Bytes}
    (h : wake? (encodeWakeMessageInto message out) = some message') : message' = message := by
  rw [wake?, encodeWakeMessageInto_eq, drop_writeLengthPrefix] at h
  cases hd : decodeWakeMessage (F := F) message.body with
  | error error =>
    rw [hd] at h
    cases h
  | ok m =>
    rw [hd] at h
    obtain rfl := Option.some.inj h
    have hback := decodeWakeMessage_body (encodable_of_wake_body hd)
    exact Except.ok.inj (hd.symm.trans hback)

/-- A call ends with an accepting ack. -/
private lemma Matched.of_acked (hm : Matched h s) (hserved : Served s) (hin : InStep s)
    {filled : ℕ} {ack : WakeAck} (hc : s.client.control = .reading .body filled)
    (hle : s.client.body.length ≤ filled) (hd : decodeWakeAck s.client.body = .ok ack)
    (haccepting : ack.status = .accepted) :
    Matched (h ++ [(s, .returned (.ok ack))]) { s with client := s.client.finish } := by
  have hne : s.client.control ≠ .idle := by rw [hc]; rintro ⟨⟩
  rw [Matched, if_neg hne] at hm
  obtain ⟨message, out, hcalled, hframe⟩ := hm
  obtain ⟨_, ack', -, -, -, -, hd', hstatus⟩ := (hin.inCall rfl hne).acked hserved hc hle
  obtain rfl : ack' = ack := Except.ok.inj (hd'.symm.trans hd)
  -- what the server read is what was written
  obtain ⟨message', hwake⟩ := Option.isSome_iff_exists.mp (hstatus.mp haccepting)
  obtain rfl : message' = message := eq_of_wake? (hframe ▸ hwake)
  have hnow : acceptance? (s, .returned (.ok ack')) = some message' := by
    show (if _ then _ else _) = _
    rw [if_pos haccepting, hwake]
  have hidle : s.client.finish.control = .idle := rfl
  rw [Matched, if_pos hidle, called_snoc, hcalled, accepted, List.filterMap_append,
    List.filterMap_cons_some hnow]
  exact (List.append_nil _).symm

variable [DecidableEq ι]

/-- Every step after which the benchmark goes on keeps the match. -/
private lemma Matched.step (hm : Matched h s) (hserved : Served s) (hin : InStep s)
    (hgoes : GoesOn (s, event)) (hs : Step s event s') : Matched (h ++ [(s, event)]) s' := by
  have hfails : ∀ failure : Bytes, ¬ GoesOn (s, .returned (.error failure)) := by
    rintro failure ⟨ack, h, -⟩
    cases h
  cases hs with
  | serverRead _ _ _ => exact hm.of_silent rfl rfl Iff.rfl rfl
  | serverAnswer _ _ => exact hm.of_silent rfl rfl Iff.rfl rfl
  | serverSend _ _ => exact hm.of_silent rfl rfl Iff.rfl rfl
  | server _ _ => exact hm.of_silent rfl rfl Iff.rfl rfl
  | stop _ => exact hm.of_silent rfl rfl Iff.rfl rfl
  | refuse _ _ => exact absurd hgoes (hfails _)
  | call hc _ message =>
    rw [Matched, if_pos hc] at hm
    rw [Matched, if_neg (by rintro ⟨⟩), accepted_snoc rfl, called_snoc, hm]
    exact ⟨message, s.client.frame, rfl, rfl⟩
  | send hc _ _ _ => exact hm.of_silent rfl rfl (by simp [hc]) rfl
  | sendFailed _ _ _ => exact absurd hgoes (hfails _)
  | sent hc _ => exact hm.of_silent rfl rfl (by simp [hc]) rfl
  | @read part _ _ _ hc _ _ _ =>
    refine hm.of_silent rfl rfl ?_ ?_
    · cases part <;> simp [PollerClient.fill, hc]
    · cases part <;> rfl
  | readClosed _ _ => exact absurd hgoes (hfails _)
  | readFailed _ _ _ => exact absurd hgoes (hfails _)
  | length hc _ _ => exact hm.of_silent rfl rfl (by simp [hc]) rfl
  | lengthRefused _ _ _ => exact absurd hgoes (hfails _)
  | ackRefused _ _ _ => exact absurd hgoes (hfails _)
  | acked hc hle hd =>
    obtain ⟨ack, hack, haccepting⟩ := hgoes
    obtain rfl := Except.ok.inj hack
    exact hm.of_acked hserved hin hc hle hd haccepting
  | close hc => exact hm.of_silent rfl rfl Iff.rfl rfl

end Matched

/-! ## The check after the join -/

section

variable [DecidableEq ι] [Double F] [CharConv F] {e : Executor F ι}
  {h : List (Exchange F ι × ClientEvent F)} {s : Exchange F ι}

/-- The messages match in a run whose calls all go on. -/
private lemma matched_of_run (hlooping : e.control = .looping)
    (hroom : e.framePrefix.length = kFrameLengthBytes) (hr : Run Step (new e) h s)
    (hgoes : ∀ p ∈ h, GoesOn p) : Matched h s := by
  have hI : (∀ p ∈ h, GoesOn p) → Run Step (new e) h s ∧ Matched h s := by
    refine hr.history_invariant (I := fun h s => (∀ p ∈ h, GoesOn p) →
      Run Step (new e) h s ∧ Matched h s) ?_ ?_
    · exact fun _ => ⟨.nil, rfl⟩
    · intro h s event s' hr ih hs hgoes
      obtain ⟨hbefore, hnow⟩ := List.forall_mem_append.mp hgoes
      obtain ⟨hr, hm⟩ := ih hbefore
      obtain ⟨hserved, hin, -⟩ :=
        accounts_of_run hlooping hroom hr fun p hp => (hbefore p hp).clean
      exact ⟨hr.snoc hs, hm.step hserved hin (hnow _ (List.mem_singleton_self _)) hs⟩
  exact (hI hgoes).2

/-- The callbacks are called in every run of the server that the benchmark makes, before the
connection and on it. -/
private lemma calledBack_of_run {descriptors : Descriptors}
    {h₀ : List (Executor F ι × ServerAction ι)}
    (hr₀ : Run Executor.Step (Executor.new (ExecutorServer.new none true true) descriptors) h₀ e)
    (hr : Run Step (new e) h s) : s.executor.CalledBack := by
  have hback : e.CalledBack :=
    hr₀.invariant (I := Executor.CalledBack) ⟨rfl, rfl, rfl, rfl, fun _ => rfl⟩
      fun _ _ _ h hs => h.step hs
  refine hr.invariant (I := fun s => s.executor.CalledBack) hback ?_
  intro s event s' h hs
  rcases hs.executor with heq | ⟨a, ha⟩
  · rwa [heq]
  · exact h.step ha

/-- **What the benchmark requires holds.** The server has no kill switch and both callbacks, and
`e` is a state in which it has accepted its first connection. If every call of the loop returned an
accepting ack, and none is going on, then wherever the server was when it was stopped, once it is
not sending an ack, and so when its thread is joined, it has fired the messages of the calls, in
their order, and has recorded each of them and, unless a price was refused, dispatched each of them.

**Proof sketch.** The calls go on, so none fails amid its ack, and the fires are those that were
accepted; an accepting ack is one for a frame that was read as the message it was written for. The
callbacks are called in every fire. -/
theorem roundtrips_handled {descriptors : Descriptors}
    {h₀ : List (Executor F ι × ServerAction ι)}
    (hr₀ : Run Executor.Step (Executor.new (ExecutorServer.new none true true) descriptors) h₀ e)
    (hlooping : e.control = .looping) (hroom : e.framePrefix.length = kFrameLengthBytes)
    (hfirst : e.trace = []) (hr : Run Step (new e) h s) (hgoes : ∀ p ∈ h, GoesOn p)
    (hidle : s.client.control = .idle) (hplace : s.executor.place ≠ .sending) :
    firedIn s.executor.trace = called h ∧
      s.executor.trace.countP isRecorded = (called h).length ∧
      ((∀ m ∈ called h, ¬ ExecutorServer.RefusesPrice m) →
        s.executor.trace.countP isDispatched = (called h).length) := by
  obtain ⟨hserved, hin, hfires, hacc⟩ :=
    accounts_of_run hlooping hroom hr fun p hp => (hgoes p hp).clean
  obtain ⟨more, hfired, hmore⟩ := hacc.fired hserved hin hfires hplace
  have hmatched := matched_of_run hlooping hroom hr hgoes
  rw [Matched, if_pos hidle] at hmatched
  have hall : firedIn s.executor.trace = called h := by
    rw [hfired, hmore hidle, hfirst, hmatched, List.append_nil]
    rfl
  obtain ⟨-, -, -, hrecorded, hdispatched⟩ := calledBack_of_run hr₀ hr
  rw [hall] at hrecorded hdispatched
  exact ⟨hall, hrecorded, hdispatched⟩

end

/-- A first round trip is handled. -/
theorem roundtrips_handled_first :
    ∃ (e : Executor SignedZero Unit) (h : List (Exchange SignedZero Unit × ClientEvent SignedZero))
      (s : Exchange SignedZero Unit), Run Step (new e) h s ∧ firstWake ∈ accepted h ∧
      firedIn s.executor.trace = called h ∧
      s.executor.trace.countP isRecorded = (called h).length ∧
      ((∀ m ∈ called h, ¬ ExecutorServer.RefusesPrice m) →
        s.executor.trace.countP isDispatched = (called h).length) := by
  obtain ⟨h₀, e, h, s, hr₀, hlooping, hroom, hfirst, hr, hlabels, hidle, hplace, haccepted⟩ :=
    reach_fired
  refine ⟨e, h, s, hr, haccepted,
    roundtrips_handled hr₀ hlooping hroom hfirst hr (fun p hp => ?_) hidle ?_⟩
  · have hcalled : firstWake.body.length < 2 ^ 32 := by decide +kernel
    rcases hlabels p hp with hp | hp | hp
    · rwa [GoesOn, hp]
    · rw [GoesOn, hp]
      trivial
    · rw [GoesOn, hp]
      exact ⟨firstAck, rfl, rfl⟩
  · rw [hplace]
    rintro ⟨⟩

end Exchange

end Hotpath
