import Hotpath.Bench.PollerClientSpec
import Hotpath.Executor.WakeStream

set_option relaxedAutoImplicit false
set_option autoImplicit false

/-!
# What is accepted is fired

The server sends an ack before it fires, and may be stopped or lose its client at any step between
the two. What a client was told to be accepted is nevertheless what is fired, as soon as the server
is done with the frame.

## Main definitions

* `Hotpath.firedIn`, `Hotpath.Exchange.accepted` — the messages that were fired, and those the
  client has an accepting ack for.
* `Hotpath.Exchange.Fires` — the account of the fires.

## Main results

* `Hotpath.Exchange.accepted_fired` — no accepted message is lost, fired twice or out of order.
-/

namespace Hotpath

open System
open Utf8 (bytes)

variable {F ι : Type}

/-- The message that an event fires. -/
def ServerEvent.fired? : ServerEvent F → Option (WakeMessage F)
  | .frame _ event => event.fired?
  | .ended _ => none

/-- The messages that were fired. -/
def firedIn (trace : List (ServerEvent F)) : List (WakeMessage F) :=
  trace.filterMap ServerEvent.fired?

/-- The end of a connection is no fire. -/
@[simp]
lemma firedIn_ended (trace : List (ServerEvent F)) (ending : Ending) :
    firedIn (trace ++ [.ended ending]) = firedIn trace := by
  simp [firedIn, ServerEvent.fired?]

/-- A part of an ack is none. -/
@[simp]
lemma firedIn_sent (trace : List (ServerEvent F)) (n : ℕ) (sent : Bytes) :
    firedIn (trace ++ (sent.map Event.sent).map (.frame n)) = firedIn trace := by
  simp [firedIn, ServerEvent.fired?, Event.fired?, List.filterMap_append, List.filterMap_map,
    List.filterMap_eq_nil_iff]

/-- What a fire adds to the trace. -/
lemma firedIn_fire [Double F] (e : Executor F ι) (moment : Moment) (message : WakeMessage F) :
    firedIn (e.fire moment message).trace = firedIn e.trace ++ [message] := by
  unfold Executor.fire Executor.frameEvent firedIn
  simp only [List.filterMap_append, List.filterMap_map]
  congr 1
  cases e.server.recordWakeRecv <;>
    cases (e.server.handleFire moment.probe message).2.1 <;> rfl

namespace Exchange

/-- The message in a frame. -/
def wake? [Double F] [CharConv F] (frame : Bytes) : Option (WakeMessage F) :=
  (decodeWakeMessage (frame.drop kFrameLengthBytes)).toOption

/-- The messages in the frames that were answered. -/
def wakesIn [Double F] [CharConv F] (answered : List (Bytes × Bytes)) : List (WakeMessage F) :=
  answered.filterMap fun x => wake? x.1

/-- The messages, one frame more. -/
lemma wakesIn_snoc [Double F] [CharConv F] (l : List (Bytes × Bytes)) (x : Bytes × Bytes) :
    wakesIn (l ++ [x]) = wakesIn l ++ ((wake? x.1).toList : List (WakeMessage F)) := by
  rw [wakesIn, List.filterMap_append]
  cases h : (wake? x.1 : Option (WakeMessage F)) <;> simp [wakesIn, h]

/-- The message of the call that returns an accepting ack. -/
def acceptance? [Double F] [CharConv F] (p : Exchange F ι × ClientEvent F) :
    Option (WakeMessage F) :=
  match p.2 with
  | .returned (.ok ack) => if ack.status = .accepted then wake? p.1.client.frame else none
  | _ => none

/-- The messages that the client has an accepting ack for. -/
def accepted [Double F] [CharConv F] (h : List (Exchange F ι × ClientEvent F)) :
    List (WakeMessage F) :=
  h.filterMap acceptance?

/-! ## The account of the server -/

/-- A server that is not serving is at none of the places where it does. -/
private lemma not_serves {s : Exchange F ι} {c : Control F} (hc : s.executor.control = c)
    (hne : c.place ≠ .looping ∧ c.place ≠ .reading ∧ c.place ≠ .sending) : ¬ s.Serves := by
  have hplace : s.executor.place = c.place := congrArg Control.place hc
  rw [Serves, hplace]
  tauto

variable [Double F] [CharConv F]

/-- Fired are the messages of the frames that were answered, but for the last one while its ack is
sent, or if its ack was not sent to the end. -/
def Fires (before : List (WakeMessage F)) (s : Exchange F ι) : Prop :=
  ∃ done rest, s.answered = done ++ rest ∧
    firedIn s.executor.trace = before ++ wakesIn done ∧
    match s.executor.control with
    | .looping | .reading _ _ | .readInterrupted _ _ => rest = []
    | .sending _ decoded _ => ∃ x, rest = [x] ∧
        decoded = decodeWakeMessage (x.1.drop kFrameLengthBytes)
    | .sendInterrupted _ decoded sent => sent < s.executor.server.ack.length ∧ ∃ x, rest = [x] ∧
        decoded = decodeWakeMessage (x.1.drop kFrameLengthBytes)
    | _ => rest = [] ∨ (∃ x, rest = [x]) ∧
        (s.consumed ++ s.toClient).length < (s.answered.map Prod.snd).flatten.length

/-- An ack that is not sent to the end. -/
private lemma Served.unsent {s : Exchange F ι} (h : Served s) {sent : ℕ}
    (hc : ∀ part unsent, Progress s.executor part unsent →
      unsent = s.executor.server.ack.drop sent)
    (hlt : sent < s.executor.server.ack.length) :
    (s.consumed ++ s.toClient).length < (s.answered.map Prod.snd).flatten.length := by
  obtain ⟨-, -, part, unsent, hprogress, -, hacks⟩ := h
  rw [hacks, hc part unsent hprogress]
  simp only [List.length_append, List.length_drop]
  omega

/-- The end of the connection, with all that was answered fired. -/
private lemma Fires.of_leave {before : List (WakeMessage F)} {s : Exchange F ι} {ending : Ending}
    {done rest : List (Bytes × Bytes)} (hanswered : s.answered = done ++ rest)
    (hfired : firedIn s.executor.trace = before ++ wakesIn done)
    (hrest : rest = [] ∨ (∃ x, rest = [x]) ∧
      (s.consumed ++ s.toClient).length < (s.answered.map Prod.snd).flatten.length) :
    Fires before { s with executor := s.executor.leave ending } :=
  ⟨done, rest, hanswered, by rw [← hfired]; exact firedIn_ended _ _, hrest⟩

/-- A step of the client keeps the account of the fires. -/
private lemma Fires.of_client {before : List (WakeMessage F)} {s s' : Exchange F ι}
    (h : Fires before s) (hexecutor : s'.executor = s.executor)
    (hanswered : s'.answered = s.answered)
    (hsent : s'.consumed ++ s'.toClient = s.consumed ++ s.toClient) : Fires before s' := by
  unfold Fires at h ⊢
  rwa [hexecutor, hanswered, hsent]

variable [DecidableEq ι]

/-- A step of either side is one of the server, or the server does not notice it. -/
lemma Step.executor {s s' : Exchange F ι} {event : ClientEvent F} (hs : Step s event s') :
    s'.executor = s.executor ∨ ∃ a, s.executor.Step a s'.executor := by
  cases hs with
  | serverRead _ hs _ => exact .inr ⟨_, hs⟩
  | serverAnswer _ hs => exact .inr ⟨_, hs⟩
  | serverSend _ hs => exact .inr ⟨_, hs⟩
  | server _ hs => exact .inr ⟨_, hs⟩
  | stop hs => exact .inr ⟨_, hs⟩
  | _ => exact .inl rfl

/-- The steps of the serving thread by itself keep the account. -/
private lemma Fires.serve {before : List (WakeMessage F)} {s : Exchange F ι} (h : Fires before s)
    (hserved : Served s) {e : Executor F ι} (hp : s.Serves) (hs : s.executor.Step .serve e) :
    Fires before { s with executor := e } := by
  obtain ⟨done, rest, hanswered, hfired, hrest⟩ := h
  cases hs with
  | start hc => exact (not_serves hc (by simp [Control.place]) hp).elim
  | pollAgain hc => exact (not_serves hc (by simp [Control.place]) hp).elim
  | polled hc => exact (not_serves hc (by simp [Control.place]) hp).elim
  | acceptReturn hc => exact (not_serves hc (by simp [Control.place]) hp).elim
  | publish hc _ => exact (not_serves hc (by simp [Control.place]) hp).elim
  | unpublish hc => exact (not_serves hc (by simp [Control.place]) hp).elim
  | close hc => exact (not_serves hc (by simp [Control.place]) hp).elim
  | finish hc => exact (not_serves hc (by simp [Control.place]) hp).elim
  | loop hc _ =>
    rw [hc] at hrest
    exact ⟨done, rest, hanswered, hfired, hrest⟩
  | loopStopped hc _ =>
    rw [hc] at hrest
    exact .of_leave hanswered hfired (.inl hrest)
  | readFailed hc _ _ _ =>
    rw [hc] at hrest
    exact .of_leave hanswered hfired (.inl hrest)
  | readInterrupted hc _ _ =>
    rw [hc] at hrest
    exact ⟨done, rest, hanswered, hfired, hrest⟩
  | readAgain hc _ =>
    rw [hc] at hrest
    exact ⟨done, rest, hanswered, hfired, hrest⟩
  | readStopped hc _ =>
    rw [hc] at hrest
    exact .of_leave hanswered hfired (.inl hrest)
  | length hc _ _ =>
    rw [hc] at hrest
    exact ⟨done, rest, hanswered, hfired, hrest⟩
  | lengthRefused hc _ _ =>
    rw [hc] at hrest
    exact .of_leave hanswered hfired (.inl hrest)
  | sendFailed hc hlt _ =>
    rw [hc] at hrest
    obtain ⟨x, hx, -⟩ := hrest
    refine .of_leave hanswered hfired
      (.inr ⟨⟨x, hx⟩, hserved.unsent (fun part unsent hp => ?_) hlt⟩)
    rw [Progress, hc] at hp
    exact hp.2
  | sendInterrupted hc hlt _ =>
    rw [hc] at hrest
    exact ⟨done, rest, hanswered, hfired, hlt, hrest⟩
  | sendAgain hc _ =>
    rw [hc] at hrest
    exact ⟨done, rest, hanswered, hfired, hrest.2⟩
  | sendStopped hc _ =>
    rw [hc] at hrest
    obtain ⟨hlt, x, hx, -⟩ := hrest
    refine .of_leave hanswered hfired
      (.inr ⟨⟨x, hx⟩, hserved.unsent (fun part unsent hp => ?_) hlt⟩)
    rw [Progress, hc] at hp
    exact hp.2
  | @rejected moment error sent hc _ =>
    rw [hc] at hrest
    obtain ⟨x, rfl, hdecoded⟩ := hrest
    refine ⟨done ++ [x], [], by rw [hanswered, List.append_nil], ?_, rfl⟩
    have hnone : (wake? x.1 : Option (WakeMessage F)) = none := by rw [wake?, ← hdecoded]; rfl
    rw [wakesIn_snoc, hnone, Option.toList_none, List.append_nil]
    exact hfired
  | @fire moment message sent hc _ =>
    rw [hc] at hrest
    obtain ⟨x, rfl, hdecoded⟩ := hrest
    refine ⟨done ++ [x], [], by rw [hanswered, List.append_nil], ?_, rfl⟩
    have hsome : wake? x.1 = some message := by rw [wake?, ← hdecoded]; rfl
    rw [wakesIn_snoc, hsome, Option.toList_some, ← List.append_assoc, ← hfired]
    exact firedIn_fire _ _ _

/-- A step of `stop` keeps the account of the fires. -/
private lemma Fires.stop {before : List (WakeMessage F)} {s : Exchange F ι} (h : Fires before s)
    {e : Executor F ι} {i : ι} (hs : s.executor.Step (.stop i) e) :
    Fires before { s with executor := e } := by
  cases hs with
  | stopStore _ => exact h
  | stopWrite _ => exact h
  | stopLoad _ => exact h
  | stopShutdown _ => exact h

/-- **Every step keeps the account.** -/
lemma Fires.step {before : List (WakeMessage F)} {s s' : Exchange F ι} {event : ClientEvent F}
    (h : Fires before s) (hserved : Served s) (hs : Step s event s') : Fires before s' := by
  cases hs with
  | serverRead _ hs _ =>
    obtain ⟨done, rest, hanswered, hfired, hrest⟩ := h
    cases hs with
    | @read part _ _ _ _ _ hc _ _ =>
      rw [hc] at hrest
      refine ⟨done, rest, hanswered, ?_, hrest⟩
      cases part <;> exact hfired
  | serverAnswer _ hs =>
    obtain ⟨done, rest, hanswered, hfired, hrest⟩ := h
    cases hs with
    | answer hc _ moment =>
      rw [hc] at hrest
      obtain rfl : rest = [] := hrest
      rw [List.append_nil] at hanswered
      refine ⟨done, [(_, _)], by rw [← hanswered], hfired, _, rfl, ?_⟩
      rw [← hserved.1, List.drop_left]
  | serverSend _ hs =>
    obtain ⟨done, rest, hanswered, hfired, hrest⟩ := h
    cases hs with
    | send hc _ _ =>
      rw [hc] at hrest
      exact ⟨done, rest, hanswered, (firedIn_sent _ _ _).trans hfired, hrest⟩
  | server hp hs => exact h.serve hserved hp hs
  | stop hs => exact h.stop hs
  | refuse _ _ => exact h
  | call _ _ _ => exact h.of_client rfl rfl rfl
  | send _ _ _ _ => exact h.of_client rfl rfl rfl
  | sendFailed _ _ _ => exact h.of_client rfl rfl rfl
  | sent _ _ => exact h.of_client rfl rfl rfl
  | read _ _ _ hin => exact h.of_client rfl rfl (by rw [hin, List.append_assoc])
  | readClosed _ _ => exact h.of_client rfl rfl rfl
  | readFailed _ _ _ => exact h.of_client rfl rfl rfl
  | length _ _ _ => exact h.of_client rfl rfl rfl
  | lengthRefused _ _ _ => exact h.of_client rfl rfl rfl
  | ackRefused _ _ _ => exact h.of_client rfl rfl rfl
  | acked _ _ _ => exact h.of_client rfl rfl rfl
  | close _ => exact h.of_client rfl rfl rfl

/-! ## The account of the client -/

omit [DecidableEq ι] in
/-- **A whole ack is read as what the server made of the frame.** -/
lemma InCall.acked {s : Exchange F ι} (h : InCall s) (hserved : Served s) {filled : ℕ}
    (hc : s.client.control = .reading .body filled) (hle : s.client.body.length ≤ filled) :
    ∃ earlier ack, s.answered = earlier ++ [(s.client.frame, encodeWakeAckInto ack [])] ∧
      (earlier.map Prod.fst).flatten = s.writtenBefore ∧
      (earlier.map Prod.snd).flatten = s.consumedBefore ∧
      s.client.readNow = encodeWakeAckInto ack [] ∧
      decodeWakeAck s.client.body = .ok ack ∧
      (ack.status = .accepted ↔ (wake? s.client.frame : Option (WakeMessage F)).isSome) := by
  obtain ⟨earlier, startedAtMs, hanswered, hfst, hsnd, hwhole⟩ := h.whole hserved hc hle
  obtain ⟨length, hlength, hbody⟩ := h.within.body hc
  obtain ⟨hroom, -⟩ := isFrame_of_decode hlength hbody
  refine ⟨earlier, _, hanswered, hfst, hsnd, (PollerClient.readNow_whole hc hle).trans hwhole,
    ?_, ?_⟩
  · have hgot := congrArg (List.drop kFrameLengthBytes) hwhole
    rw [← hroom, List.drop_left, hroom, encodeWakeAckInto_eq F, drop_writeLengthPrefix] at hgot
    rw [hgot, decodeWakeAck_body F (encodable_ackFor _ _)]
  · rw [wake?]
    cases decodeWakeMessage (F := F) (s.client.frame.drop kFrameLengthBytes) <;>
      simp [ackFor, Except.toOption]

/-- The client's account: the frames before the call, or before now between two calls, are a
beginning of those that were answered, and the messages in them are those accepted. -/
def Accounts (h : List (Exchange F ι × ClientEvent F)) (s : Exchange F ι) : Prop :=
  ∃ earlier later, s.answered = earlier ++ later ∧ accepted h = wakesIn (F := F) earlier ∧
    (earlier.map Prod.fst).flatten =
      (if s.client.control = .idle then s.written else s.writtenBefore) ∧
    (earlier.map Prod.snd).flatten =
      if s.client.control = .idle then s.consumed else s.consumedBefore

omit [DecidableEq ι] in
/-- A step that returns no ack leaves the accepted messages as they are. -/
lemma accepted_snoc {h : List (Exchange F ι × ClientEvent F)}
    {p : Exchange F ι × ClientEvent F} (hp : acceptance? p = none) :
    accepted (h ++ [p]) = accepted h := by
  rw [accepted, List.filterMap_append, List.filterMap_cons_none hp, List.filterMap_nil,
    List.append_nil]
  rfl

section Accounts

variable {h : List (Exchange F ι × ClientEvent F)} {s s' : Exchange F ι} {event : ClientEvent F}

omit [DecidableEq ι] in
/-- A step of the server keeps the account. -/
private lemma Accounts.of_server (hacc : Accounts h s) (hevent : acceptance? (s, event) = none)
    (hclient : s'.client = s.client) (hwritten : s'.written = s.written)
    (hconsumed : s'.consumed = s.consumed) (hwrittenBefore : s'.writtenBefore = s.writtenBefore)
    (hconsumedBefore : s'.consumedBefore = s.consumedBefore)
    (hanswered : s.answered <+: s'.answered) : Accounts (h ++ [(s, event)]) s' := by
  obtain ⟨earlier, later, heq, haccepted, hfst, hsnd⟩ := hacc
  obtain ⟨l, hl⟩ := hanswered
  refine ⟨earlier, later ++ l, by rw [← hl, heq, List.append_assoc],
    (accepted_snoc hevent).trans haccepted, ?_, ?_⟩
  · rw [hclient, hwritten, hwrittenBefore, hfst]
  · rw [hclient, hconsumed, hconsumedBefore, hsnd]

omit [DecidableEq ι] in
/-- A step in a call keeps the client's account. -/
private lemma Accounts.of_call (hacc : Accounts h s) (hevent : acceptance? (s, event) = none)
    (hc : s.client.control ≠ .idle) (hc' : s'.client.control ≠ .idle)
    (hwrittenBefore : s'.writtenBefore = s.writtenBefore)
    (hconsumedBefore : s'.consumedBefore = s.consumedBefore)
    (hanswered : s'.answered = s.answered) : Accounts (h ++ [(s, event)]) s' := by
  obtain ⟨earlier, later, heq, haccepted, hfst, hsnd⟩ := hacc
  rw [if_neg hc] at hfst hsnd
  exact ⟨earlier, later, hanswered.trans heq, (accepted_snoc hevent).trans haccepted,
    by rw [if_neg hc', hwrittenBefore, hfst], by rw [if_neg hc', hconsumedBefore, hsnd]⟩

omit [DecidableEq ι] in
/-- An accepting ack is one more. -/
private lemma Accounts.of_acked (hacc : Accounts h s) (hserved : Served s) (hin : InStep s)
    {filled : ℕ} {ack : WakeAck} (hc : s.client.control = .reading .body filled)
    (hle : s.client.body.length ≤ filled) (hd : decodeWakeAck s.client.body = .ok ack) :
    Accounts (h ++ [(s, .returned (.ok ack))]) { s with client := s.client.finish } := by
  have hne : s.client.control ≠ .idle := by rw [hc]; rintro ⟨⟩
  have hcall := hin.inCall rfl hne
  obtain ⟨earlier, later, heq, haccepted, hfst, hsnd⟩ := hacc
  obtain ⟨earlier', ack', hanswered, hfst', hsnd', hread, hd', hstatus⟩ :=
    hcall.acked hserved hc hle
  rw [if_neg hne] at hfst hsnd
  obtain rfl : ack' = ack := Except.ok.inj (hd'.symm.trans hd)
  -- the frames before the call are those that the account has
  obtain rfl : earlier = earlier' := by
    refine Framing.eq_of_flatten_eq (f := Prod.fst) (heq.symm.trans hanswered) ?_
      (hfst.trans hfst'.symm)
    intro x hx
    exact prefixFree_isFrame.ne_nil _ (hserved.2.1 x (heq ▸ hx)).1
  refine ⟨s.answered, [], (List.append_nil _).symm, ?_, ?_, ?_⟩
  · have hnow : acceptance? (s, .returned (.ok ack')) =
        (wake? s.client.frame : Option (WakeMessage F)) := by
      show (if _ then _ else _) = _
      split_ifs with haccepting
      · rfl
      · rw [hstatus, Bool.not_eq_true, Option.isSome_eq_false_iff] at haccepting
        exact (Option.isNone_iff_eq_none.mp haccepting).symm
    rw [hanswered, wakesIn_snoc, ← haccepted, accepted, List.filterMap_append]
    cases hwake : (wake? s.client.frame : Option (WakeMessage F)) with
    | none =>
      rw [List.filterMap_cons_none (hnow.trans hwake)]
      rfl
    | some message =>
      rw [List.filterMap_cons_some (hnow.trans hwake)]
      rfl
  · rw [hanswered, List.map_append, List.flatten_append, hfst]
    show s.writtenBefore ++ _ = s.written
    rw [hcall.written, PollerClient.sentNow_reading hc]
    simp
  · rw [hanswered, List.map_append, List.flatten_append, hsnd]
    show s.consumedBefore ++ _ = s.consumed
    rw [hcall.consumed, hread]
    simp

/-- **Every clean step keeps the account.** -/
private lemma Accounts.step (hacc : Accounts h s) (hserved : Served s) (hin : InStep s)
    (hclean : Clean (s, event)) (hs : Step s event s') : Accounts (h ++ [(s, event)]) s' := by
  cases hs with
  | serverRead _ _ _ => exact hacc.of_server rfl rfl rfl rfl rfl rfl List.prefix_rfl
  | serverAnswer _ _ => exact hacc.of_server rfl rfl rfl rfl rfl rfl (List.prefix_append _ _)
  | serverSend _ _ => exact hacc.of_server rfl rfl rfl rfl rfl rfl List.prefix_rfl
  | server _ _ => exact hacc.of_server rfl rfl rfl rfl rfl rfl List.prefix_rfl
  | stop _ => exact hacc.of_server rfl rfl rfl rfl rfl rfl List.prefix_rfl
  | refuse _ _ => exact hacc.of_server rfl rfl rfl rfl rfl rfl List.prefix_rfl
  | call hc _ message =>
    obtain ⟨earlier, later, heq, haccepted, hfst, hsnd⟩ := hacc
    rw [if_pos hc] at hfst hsnd
    exact ⟨earlier, later, heq, (accepted_snoc rfl).trans haccepted, hfst, hsnd⟩
  | send hc _ _ _ =>
    exact hacc.of_call rfl (by rw [hc]; rintro ⟨⟩) (by rintro ⟨⟩) rfl rfl rfl
  | @sendFailed sent hc _ _ =>
    have hzero : sent = 0 := by simpa [Clean, hc] using hclean
    have hne : s.client.control ≠ .idle := by rw [hc]; rintro ⟨⟩
    have hcall := hin.inCall rfl hne
    have hwritten := hcall.written
    have hconsumed := hcall.consumed
    rw [PollerClient.sentNow_sending hc, hzero, List.take_zero, List.append_nil] at hwritten
    rw [PollerClient.readNow_sending hc, List.append_nil] at hconsumed
    obtain ⟨earlier, later, heq, haccepted, hfst, hsnd⟩ := hacc
    rw [if_neg hne] at hfst hsnd
    exact ⟨earlier, later, heq, (accepted_snoc rfl).trans haccepted, hfst.trans hwritten.symm,
      hsnd.trans hconsumed.symm⟩
  | sent hc _ => exact hacc.of_call rfl (by rw [hc]; rintro ⟨⟩) (by rintro ⟨⟩) rfl rfl rfl
  | @read part _ _ _ hc _ _ _ =>
    refine hacc.of_call rfl (by rw [hc]; rintro ⟨⟩) ?_ rfl rfl rfl
    cases part <;> rintro ⟨⟩
  | readClosed hc hlt => exact absurd hclean (not_clean_of_reading hc hlt)
  | readFailed hc hlt _ => exact absurd hclean (not_clean_of_reading hc hlt)
  | length hc _ _ => exact hacc.of_call rfl (by rw [hc]; rintro ⟨⟩) (by rintro ⟨⟩) rfl rfl rfl
  | lengthRefused hc _ _ => simp [Clean, hc] at hclean
  | ackRefused hc hle hd =>
    obtain ⟨_, _, _, _, _, _, hd', _⟩ :=
      (hin.inCall hc (by rintro ⟨⟩)).acked hserved hc hle
    rw [hd'] at hd
    cases hd
  | acked hc hle hd => exact hacc.of_acked hserved hin hc hle hd
  | close hc =>
    obtain ⟨earlier, later, heq, haccepted, hfst, hsnd⟩ := hacc
    exact ⟨earlier, later, heq, (accepted_snoc rfl).trans haccepted, hfst, hsnd⟩

omit [Double F] [CharConv F] [DecidableEq ι] in
/-- What the client has the acks of, it has read. -/
private lemma Accounts.le_consumed (hin : InStep s) {earlier : List (Bytes × Bytes)}
    (hsnd : (earlier.map Prod.snd).flatten =
      if s.client.control = .idle then s.consumed else s.consumedBefore) :
    (earlier.map Prod.snd).flatten.length ≤ s.consumed.length := by
  by_cases hc : s.client.control = .idle
  · rw [hsnd, if_pos hc]
  · rw [hsnd, if_neg hc, (hin.inCall rfl hc).consumed, List.length_append]
    omega

omit [DecidableEq ι] in
/-- Between two calls the server has answered nothing else. -/
private lemma Accounts.eq_nil (hserved : Served s) (hc : s.client.control = .idle)
    {earlier later : List (Bytes × Bytes)} (heq : s.answered = earlier ++ later)
    (hfst : (earlier.map Prod.fst).flatten =
      if s.client.control = .idle then s.written else s.writtenBefore) : later = [] := by
  obtain ⟨-, hanswered, part, unsent, -, hwritten, -⟩ := hserved
  rw [if_pos hc, hwritten, heq, List.map_append, List.flatten_append] at hfst
  have hlater : (later.map Prod.fst).flatten = [] := by
    have hlength := congrArg List.length hfst
    simp only [List.length_append] at hlength
    exact List.eq_nil_of_length_eq_zero (by omega)
  cases later with
  | nil => rfl
  | cons x later =>
    have hx := (hanswered x (by simp [heq])).1
    rw [List.map_cons, List.flatten_cons, List.append_eq_nil_iff] at hlater
    exact absurd hlater.1 (prefixFree_isFrame.ne_nil _ hx)

omit [DecidableEq ι] in
/-- Unless an ack is being sent, the fires are those of the accepted calls, and no more between two
calls. -/
lemma Accounts.fired {before : List (WakeMessage F)} (hacc : Accounts h s)
    (hserved : Served s) (hin : InStep s) (hfires : Fires before s)
    (hplace : s.executor.place ≠ .sending) :
    ∃ more, firedIn s.executor.trace = before ++ accepted h ++ more ∧
      (s.client.control = .idle → more = []) := by
  obtain ⟨earlier, later, heq, haccepted, hfst, hsnd⟩ := hacc
  obtain ⟨done, rest, hanswered, hfired, hrest⟩ := hfires
  have hleft : rest = [] ∨ (∃ x, rest = [x]) ∧
      (s.consumed ++ s.toClient).length < (s.answered.map Prod.snd).flatten.length := by
    unfold Executor.place Control.place at hplace
    split at hrest <;> simp_all
  -- the frames with an accepted ack are among those that were fired
  obtain ⟨l, rfl, hl⟩ : ∃ l, done = earlier ++ l ∧ (later = [] → l = []) := by
    rcases hleft with rfl | ⟨⟨x, rfl⟩, hlt⟩
    · exact ⟨later, by rw [← heq, hanswered, List.append_nil], id⟩
    · rcases List.eq_nil_or_concat later with rfl | ⟨l, y, rfl⟩
      · have hle := Accounts.le_consumed hin hsnd
        rw [heq, List.append_nil, List.length_append] at hlt
        omega
      · refine ⟨l, ?_, by simp⟩
        rw [hanswered, List.concat_eq_append, ← List.append_assoc] at heq
        exact (List.append_inj' heq rfl).1
  refine ⟨wakesIn l, ?_, fun hc => ?_⟩
  · rw [hfired, haccepted, List.append_assoc, wakesIn, List.filterMap_append]
    rfl
  · rw [hl (Accounts.eq_nil hserved hc heq hfst)]
    rfl

end Accounts

/-! ## A first message -/

/-- A first call may be told that its message is accepted before the message is fired. -/
lemma reach_told {e : Executor F ι} (hlooping : e.control = .looping)
    (hstopping : e.server.stopping = false)
    (hroom : e.framePrefix.length = kFrameLengthBytes) {message : WakeMessage F}
    (hdecode : decodeWakeMessage message.body = .ok message) (hne : message.body ≠ [])
    (hcap : message.body.length ≤ kMaxFrameBytes) (moment : Moment) {ack : WakeAck}
    (hack : ackFor (.ok message) moment.startedAtMs = ack)
    (hackDecode : decodeWakeAck (ack.body F) = .ok ack) (hackNe : ack.body F ≠ [])
    (hackCap : (ack.body F).length ≤ kMaxFrameBytes) :
    ∃ h s, Run Step (new e) h s ∧
      (∀ p ∈ h, p.2 = .called message ∨ p.2 = .internal ∨ p.2 = .returned (.ok ack)) ∧
      s.client.control = .idle ∧ (∃ sent, s.executor.control = .sending moment (.ok message) sent ∧
        s.executor.server.ack.length ≤ sent) ∧ (∃ x, s.answered = [x]) ∧ message ∈ accepted h := by
  obtain ⟨header, length, hframe, hd, hbody⟩ := exists_header message.body hcap
  obtain ⟨ackHeader, ackLength, hackFrame, hackd, hackBody⟩ := exists_header (ack.body F) hackCap
  rw [← encodeWakeMessageInto_eq message []] at hframe
  rw [← encodeWakeAckInto_eq F ack []] at hackFrame
  obtain ⟨h₁, s₁, hr₁, hlabels₁, hs₁⟩ := reach_sent (s := new e) rfl rfl message hframe
  obtain ⟨h₂, s₂, hr₂, hlabels₂, e₂, ⟨sent, hc₂, hle₂⟩, hs₂⟩ := reach_acked (s := s₁)
    (by rw [hs₁]; exact hlooping) (by rw [hs₁]; exact hstopping) (by rw [hs₁]; exact hroom)
    hd hbody hne [] (by rw [hs₁]; exact (List.append_nil _).symm) moment
  rw [hdecode, hack] at hs₂
  rw [hdecode] at hc₂
  obtain ⟨h₃, s₃, hr₃, hlabels₃, hs₃⟩ := reach_read (s := s₂)
    (by rw [hs₂, hs₁]) (by rw [hs₂, hs₁]; rfl) hackd hackBody hackNe []
    (by rw [hs₂, hs₁, List.append_nil, ← hackFrame]; rfl)
  have hacked : Step s₃ (.returned (.ok ack)) { s₃ with client := s₃.client.finish } :=
    .acked (by rw [hs₃]) (by rw [hs₃]) (by rw [hs₃]; exact hackDecode)
  have hexecutor : s₃.executor = e₂ := by rw [hs₃, hs₂]
  refine ⟨_, _, ((hr₁.append hr₂).append hr₃).snoc hacked, ?_, rfl, ⟨sent, ?_, ?_⟩,
    ⟨(header ++ message.body, encodeWakeAckInto ack []), ?_⟩, ?_⟩
  · simp only [List.forall_mem_append, List.forall_mem_singleton]
    refine ⟨⟨⟨fun p hp => ?_, fun p hp => ?_⟩, fun p hp => ?_⟩, .inr (.inr trivial)⟩
    · exact (hlabels₁ p hp).imp_right .inl
    · exact .inr (.inl (hlabels₂ p hp))
    · exact .inr (.inl (hlabels₃ p hp))
  · rw [← hexecutor] at hc₂
    exact hc₂
  · rw [← hexecutor] at hle₂
    exact hle₂
  · show s₃.answered = _
    rw [hs₃, hs₂, hs₁]
    rfl
  · refine List.mem_filterMap.mpr ⟨(s₃, .returned (.ok ack)), by simp, ?_⟩
    have hwrote : s₃.client.frame = encodeWakeMessageInto message [] := by
      rw [hs₃, hs₂, hs₁, hframe]
    have haccepting : ack.status = .accepted := by rw [← hack]; rfl
    show (if ack.status = .accepted then wake? s₃.client.frame else none) = some message
    rw [if_pos haccepting, hwrote, wake?, encodeWakeMessageInto_eq, drop_writeLengthPrefix, hdecode]
    rfl

omit [Double F] [DecidableEq ι] in
/-- A call that returns an ack is clean, if its message fits a frame. -/
lemma clean_of_labels {h : List (Exchange F ι × ClientEvent F)} {message : WakeMessage F}
    {ack : WakeAck} (hlabels : ∀ p ∈ h, p.2 = .called message ∨ p.2 = .internal ∨
      p.2 = .returned (.ok ack)) (hfits : message.body.length < 2 ^ 32) : ∀ p ∈ h, Clean p := by
  intro p hp
  rcases hlabels p hp with hp | hp | hp
  · rwa [Clean, hp]
  · rw [Clean, hp]
    trivial
  · rw [Clean, hp]
    trivial

/-- A first call that is answered and fired. -/
lemma reach_fired : ∃ (h₀ : List (Executor SignedZero Unit × ServerAction Unit))
    (e : Executor SignedZero Unit) (h : List (Exchange SignedZero Unit × ClientEvent SignedZero))
    (s : Exchange SignedZero Unit),
    Run Executor.Step (Executor.new (ExecutorServer.new none true true) ⟨3, 4, 5⟩) h₀ e ∧
      e.control = .looping ∧ e.framePrefix.length = kFrameLengthBytes ∧ e.trace = [] ∧
      Run Step (new e) h s ∧
      (∀ p ∈ h, p.2 = .called firstWake ∨ p.2 = .internal ∨ p.2 = .returned (.ok firstAck)) ∧
      s.client.control = .idle ∧ s.executor.place = .looping ∧ firstWake ∈ accepted h := by
  obtain ⟨h₀, e, hr₀, hlooping, hstopping, hroom, htrace⟩ :
      ∃ (h₀ : List (Executor SignedZero Unit × ServerAction Unit)) (e : Executor SignedZero Unit),
        Run Executor.Step (Executor.new (ExecutorServer.new none true true) ⟨3, 4, 5⟩) h₀ e ∧
          e.control = .looping ∧ e.server.stopping = false ∧
          e.framePrefix.length = kFrameLengthBytes ∧ e.trace = [] :=
    ⟨_, _, Run.cons (.start rfl) (Run.cons (.poll rfl true) (Run.cons (.polled rfl)
      (Run.cons (.accept rfl 7) (Run.cons (.publish rfl rfl) Run.nil)))), rfl, rfl, rfl, rfl⟩
  obtain ⟨h, s, hr, hlabels, hidle, ⟨sent, hc, hle⟩, -, haccepted⟩ :=
    reach_told hlooping hstopping hroom decode_firstWake (by decide +kernel) (by decide +kernel)
      ⟨0, 0, 0, 0, ⟨0, ⟨false, false⟩⟩⟩ rfl decode_firstAck (by decide +kernel)
      (by decide +kernel)
  have hserves : s.Serves := .inr (.inr (congrArg Control.place hc))
  refine ⟨h₀, e, _, _, hr₀, hlooping, hroom, htrace, hr.snoc (.server hserves (.fire hc hle)), ?_,
    hidle, rfl, ?_⟩
  · simp only [List.forall_mem_append, List.forall_mem_singleton]
    exact ⟨hlabels, .inr (.inl trivial)⟩
  · rw [accepted, List.filterMap_append]
    exact List.mem_append_left _ haccepted

/-! ## Runs -/

section

variable {e : Executor F ι} {h : List (Exchange F ι × ClientEvent F)} {s : Exchange F ι}

/-- The accounts hold in every clean run. -/
lemma accounts_of_run (hlooping : e.control = .looping)
    (hroom : e.framePrefix.length = kFrameLengthBytes) (hr : Run Step (new e) h s)
    (hclean : ∀ p ∈ h, Clean p) :
    Served s ∧ InStep s ∧ Fires (firedIn e.trace) s ∧ Accounts h s := by
  have hI : (∀ p ∈ h, Clean p) → Served s ∧ InStep s ∧ Fires (firedIn e.trace) s ∧
      Accounts h s := by
    refine hr.history_invariant (I := fun h s => (∀ p ∈ h, Clean p) →
      Served s ∧ InStep s ∧ Fires (firedIn e.trace) s ∧ Accounts h s) ?_ ?_
    · intro _
      refine ⟨⟨hroom, by rintro _ ⟨⟩, [], [], ?_, rfl, rfl⟩, ?_, ⟨[], [], rfl, ?_, ?_⟩, [], [],
        rfl, rfl, rfl, rfl⟩
      · show Progress e [] []
        rw [Progress, hlooping]
        exact ⟨rfl, rfl⟩
      · exact Settled.inStep ⟨[], [], rfl, rfl, rfl⟩ rfl
      · exact (List.append_nil _).symm
      · have hnew : (new e).executor.control = .looping := hlooping
        rw [hnew]
    · intro h s event s' _ ih hs hclean
      obtain ⟨hbefore, hnow⟩ := List.forall_mem_append.mp hclean
      obtain ⟨hserved, hin, hfires, hacc⟩ := ih hbefore
      have hcleanNow := hnow _ (List.mem_singleton_self _)
      exact ⟨hserved.step hs, hin.step hserved hcleanNow hs, hfires.step hserved hs,
        hacc.step hserved hin hcleanNow hs⟩
  exact hI hclean

/-- **No accepted message is lost, fired twice or fired out of order.** In every run over one
connection, with any number of callers of `stop`, in which no call fails between the first byte it
sends and the last byte of its ack and no message overflows the length prefix, once the server is
not sending an ack, the messages that the client has an accepting ack for were fired, in the order
of the acks; and between two calls nothing else was.

**Proof sketch.** The server fires after the last byte of an ack, and fails before it if it fails,
so that a message which was not fired has an ack that the client cannot have read to its end. The
frames before a call are those the client has the acks of. -/
theorem accepted_fired (hlooping : e.control = .looping)
    (hroom : e.framePrefix.length = kFrameLengthBytes) (hr : Run Step (new e) h s)
    (hclean : ∀ p ∈ h, Clean p) (hplace : s.executor.place ≠ .sending) :
    ∃ more, firedIn s.executor.trace = firedIn e.trace ++ accepted h ++ more ∧
      (s.client.control = .idle → more = []) := by
  obtain ⟨hserved, hin, hfires, hacc⟩ := accounts_of_run hlooping hroom hr hclean
  exact hacc.fired hserved hin hfires hplace

end

/-- A first call that is answered and fired is fired once. -/
theorem accepted_fired_first : ∃ (e : Executor SignedZero Unit)
    (h : List (Exchange SignedZero Unit × ClientEvent SignedZero)) (s : Exchange SignedZero Unit),
    Run Step (new e) h s ∧ firstWake ∈ accepted h ∧ ∃ more,
      firedIn s.executor.trace = firedIn e.trace ++ accepted h ++ more ∧
        (s.client.control = .idle → more = []) := by
  obtain ⟨-, e, h, s, -, hlooping, hroom, -, hr, hlabels, -, hplace, haccepted⟩ := reach_fired
  refine ⟨e, h, s, hr, haccepted, accepted_fired hlooping hroom hr
    (clean_of_labels hlabels (by decide +kernel)) ?_⟩
  rw [hplace]
  rintro ⟨⟩

end Exchange

end Hotpath
