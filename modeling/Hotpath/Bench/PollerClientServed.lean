import Hotpath.Bench.PollerClient
import Hotpath.Executor.AckSize
import Hotpath.Executor.ConnectionSpec
import Hotpath.Lib.Framing
import Hotpath.Lib.System

set_option relaxedAutoImplicit false
set_option autoImplicit false

/-!
# What the server makes of the bytes of a client

The server cuts what it reads into frames and answers each with one ack: the frames it answered
are a beginning of all that the client sent, and the acks of these are all that the client read
or can still read.

## Main definitions

* `Hotpath.IsFrame` — a length prefix and a body of that length.
* `Hotpath.Exchange.Served` — the account of what was sent, answered and read.

## Main results

* `Hotpath.Exchange.Served.step` — every step of either side keeps the account.
-/

namespace Hotpath

open System
open Utf8 (bytes)

variable {F ι : Type}

/-! ## Frames -/

/-- A length prefix and a body of that length. -/
def IsFrame (w : Bytes) : Prop :=
  ∃ header body, header.length = kFrameLengthBytes ∧ (frameLength header).toNat = body.length ∧
    w = header ++ body

/-- Frames delimit themselves. -/
lemma prefixFree_isFrame : Framing.PrefixFree IsFrame where
  ne_nil := by
    rintro w ⟨header, body, hlen, -, rfl⟩ hnil
    rw [(List.append_eq_nil_iff.mp hnil).1] at hlen
    cases hlen
  eq_of_prefix := by
    rintro v w ⟨header, body, hlen, hbody, rfl⟩ ⟨header', body', hlen', hbody', rfl⟩ ⟨t, ht⟩
    rw [List.append_assoc] at ht
    obtain ⟨rfl, rfl⟩ := List.append_inj ht (hlen.trans hlen'.symm)
    rw [hbody, List.length_append] at hbody'
    rw [List.eq_nil_of_length_eq_zero (l := t) (by omega), List.append_nil]

/-- A prefix that is accepted and as many bytes are a frame. -/
lemma isFrame_of_decode {header body : Bytes} {length : UInt32}
    (h : decodeFrameLength header = .ok length) (hbody : body.length = length.toNat) :
    header.length = kFrameLengthBytes ∧ IsFrame (header ++ body) := by
  unfold decodeFrameLength at h
  split_ifs at h with hlen hmax
  cases h
  exact ⟨not_not.mp hlen, header, body, not_not.mp hlen, hbody.symm, rfl⟩

/-- What the encoders write is a frame, unless the length overflows. -/
lemma isFrame_writeLengthPrefix {body : Bytes} (hlt : body.length < 2 ^ 32) :
    IsFrame (writeLengthPrefix (List.replicate kFrameLengthBytes 0 ++ body)) := by
  obtain ⟨header, h, hlen, hval⟩ := writeLengthPrefix_eq body
  refine ⟨header, body, hlen, ?_, h⟩
  rw [hval, UInt32.toNat_ofNat']
  exact Nat.mod_eq_of_lt hlt

namespace Exchange

/-! ## The server's side -/

variable [Double F] [CharConv F]

/-- A frame that was answered, and the frame of its ack. -/
def Answered (F : Type) [Double F] [CharConv F] (x : Bytes × Bytes) : Prop :=
  IsFrame x.1 ∧ (x.1.drop kFrameLengthBytes).length ≤ kMaxFrameBytes ∧ ∃ startedAtMs,
    x.2 = encodeWakeAckInto (ackFor (decodeWakeMessage (F := F) (x.1.drop kFrameLengthBytes))
      startedAtMs) []

omit [Double F] [CharConv F] in
/-- What the server has read of a frame that it has not answered, and what it has still to send
of an ack, while it serves the connection. -/
def Progress (e : Executor F ι) (part unsent : Bytes) : Prop :=
  match e.control with
  | .looping => part = [] ∧ unsent = []
  | .reading .framePrefix filled => filled ≤ e.framePrefix.length ∧
      part = e.framePrefix.take filled ∧ unsent = []
  | .readInterrupted .framePrefix filled => filled ≤ e.framePrefix.length ∧
      part = e.framePrefix.take filled ∧ unsent = []
  | .reading .body filled => (∃ length, decodeFrameLength e.framePrefix = .ok length ∧
      e.server.body.length = length.toNat) ∧ filled ≤ e.server.body.length ∧
        part = e.framePrefix ++ e.server.body.take filled ∧ unsent = []
  | .readInterrupted .body filled => (∃ length, decodeFrameLength e.framePrefix = .ok length ∧
      e.server.body.length = length.toNat) ∧ filled ≤ e.server.body.length ∧
        part = e.framePrefix ++ e.server.body.take filled ∧ unsent = []
  | .sending _ _ sent => part = [] ∧ unsent = e.server.ack.drop sent
  | .sendInterrupted _ _ sent => part = [] ∧ unsent = e.server.ack.drop sent
  | _ => True

/-- What the client sent are the frames that were answered, a part of one more, and what is in
flight; the acks of those are what the client read, what is in flight, and what is still to be
sent. -/
def Served (s : Exchange F ι) : Prop :=
  s.executor.framePrefix.length = kFrameLengthBytes ∧ (∀ x ∈ s.answered, Answered F x) ∧
    ∃ part unsent, Progress s.executor part unsent ∧
      s.written = (s.answered.map Prod.fst).flatten ++ part ++ s.toServer ∧
      (s.answered.map Prod.snd).flatten = s.consumed ++ s.toClient ++ unsent

variable [DecidableEq ι]

omit [DecidableEq ι] in
/-- A step to the end of the connection keeps the account of what was served. -/
lemma Served.of_leaving {s : Exchange F ι} (h : Served s) {e : Executor F ι}
    (hbuffer : e.framePrefix = s.executor.framePrefix) (hc : e.control = .leaving) :
    Served { s with executor := e } := by
  obtain ⟨hlen, hanswered, part, unsent, -, hwritten, hacks⟩ := h
  refine ⟨by rw [hbuffer]; exact hlen, hanswered, part, unsent, ?_, hwritten, hacks⟩
  rw [Progress, hc]
  trivial

/-- A `read` keeps the bytes of the two sides accounted for. -/
lemma Served.read {s : Exchange F ι} (h : Served s) {e : Executor F ι} {read rest : Bytes}
    (hs : s.executor.Step (.read read) e) (hin : s.toServer = read ++ rest) :
    Served { s with executor := e, toServer := rest } := by
  obtain ⟨hlen, hanswered, part, unsent, hprogress, hwritten, hacks⟩ := h
  cases hs with
  | @read part' filled got peer peer' _ hc hlt hr =>
    obtain ⟨hread, hroom⟩ := Connection.length_of_read hr
    rw [Progress, hc] at hprogress
    rw [hin] at hwritten
    rw [← hread]
    have hle : filled + read.length ≤ (s.executor.buffer part').length := by omega
    obtain ⟨htake, hlength⟩ := take_fill hle
    cases part' with
    | framePrefix =>
      obtain ⟨-, rfl, rfl⟩ := hprogress
      refine ⟨hlength.trans hlen, hanswered, s.executor.framePrefix.take filled ++ read, [],
        ⟨hle.trans_eq hlength.symm, htake.symm, rfl⟩, ?_, hacks⟩
      rw [hwritten]
      simp only [List.append_assoc]
    | body =>
      obtain ⟨⟨length, hlength', hbody⟩, -, rfl, rfl⟩ := hprogress
      refine ⟨hlen, hanswered,
        s.executor.framePrefix ++ (s.executor.server.body.take filled ++ read), [],
        ⟨⟨length, hlength', hlength.trans hbody⟩, hle.trans_eq hlength.symm,
          congrArg (s.executor.framePrefix ++ ·) htake.symm, rfl⟩, ?_, hacks⟩
      rw [hwritten]
      simp only [List.append_assoc]

/-- The answer to a frame keeps the bytes of the two sides accounted for. -/
lemma Served.answer {s : Exchange F ι} (h : Served s) {e : Executor F ι}
    (hs : s.executor.Step .answer e) :
    Served { s with
      executor := e
      answered := s.answered ++
        [(s.executor.framePrefix ++ s.executor.server.body, e.server.ack)] } := by
  obtain ⟨hlen, hanswered, part, unsent, hprogress, hwritten, hacks⟩ := h
  cases hs with
  | @answer filled hc hle moment =>
    rw [Progress, hc] at hprogress
    obtain ⟨⟨length, hlength, hbody⟩, hfilled, rfl, rfl⟩ := hprogress
    rw [List.take_of_length_le hle] at hwritten
    obtain ⟨-, hframe⟩ := isFrame_of_decode hlength hbody
    have hdrop : (s.executor.framePrefix ++ s.executor.server.body).drop kFrameLengthBytes =
        s.executor.server.body := by
      rw [← hlen, List.drop_left]
    refine ⟨hlen, ?_, [], (s.executor.answer moment).server.ack, ⟨rfl, rfl⟩, ?_, ?_⟩
    · intro x hx
      rcases List.mem_append.mp hx with hx | hx
      · exact hanswered x hx
      · obtain rfl := List.mem_singleton.mp hx
        refine ⟨hframe, ?_, moment.startedAtMs, ?_⟩
        · rw [hdrop, hbody]
          unfold decodeFrameLength at hlength
          split_ifs at hlength with _ hmax
          cases hlength
          omega
        · rw [hdrop]
          rfl
    · rw [hwritten]
      simp
    · rw [List.map_append, List.flatten_append, hacks]
      simp

/-- Sending a part of an ack keeps the bytes of the two sides accounted for. -/
lemma Served.send {s : Exchange F ι} (h : Served s) {e : Executor F ι} {sent : Bytes}
    (hs : s.executor.Step (.send sent) e) :
    Served { s with executor := e, toClient := s.toClient ++ sent } := by
  obtain ⟨hlen, hanswered, part, unsent, hprogress, hwritten, hacks⟩ := h
  cases hs with
  | @send moment decoded sent' wrote peer peer' _ hc hlt hr =>
    obtain ⟨rfl, hwrote⟩ := Connection.eq_take_of_send hr
    rw [Progress, hc] at hprogress
    obtain ⟨rfl, rfl⟩ := hprogress
    refine ⟨hlen, hanswered, [], s.executor.server.ack.drop (sent' + wrote), ⟨rfl, rfl⟩, hwritten,
      ?_⟩
    rw [hacks, ← List.drop_drop]
    simp only [List.append_assoc, List.take_append_drop]

/-- The other steps of the serving thread keep the bytes of the two sides accounted for. -/
lemma Served.serve {s : Exchange F ι} (h : Served s) {e : Executor F ι} (hp : s.Serves)
    (hs : s.executor.Step .serve e) : Served { s with executor := e } := by
  have hkeep : ∀ c : Control F,
      (∀ part unsent, Progress s.executor part unsent →
        Progress { s.executor with control := c } part unsent) →
      Served { s with executor := { s.executor with control := c } } := by
    intro c himp
    obtain ⟨hlen, hanswered, part, unsent, hprogress, hwritten, hacks⟩ := h
    exact ⟨hlen, hanswered, part, unsent, himp part unsent hprogress, hwritten, hacks⟩
  have hnot : ∀ {c : Control F}, s.executor.control = c →
      (c.place ≠ .looping ∧ c.place ≠ .reading ∧ c.place ≠ .sending) → False := by
    intro c hc hne
    have hplace : s.executor.place = c.place := congrArg Control.place hc
    unfold Serves at hp
    rw [hplace] at hp
    tauto
  cases hs with
  | start hc => exact (hnot hc (by simp [Control.place])).elim
  | pollAgain hc => exact (hnot hc (by simp [Control.place])).elim
  | polled hc => exact (hnot hc (by simp [Control.place])).elim
  | acceptReturn hc => exact (hnot hc (by simp [Control.place])).elim
  | publish hc _ => exact (hnot hc (by simp [Control.place])).elim
  | unpublish hc => exact (hnot hc (by simp [Control.place])).elim
  | close hc => exact (hnot hc (by simp [Control.place])).elim
  | finish hc => exact (hnot hc (by simp [Control.place])).elim
  | loop hc _ =>
    refine hkeep _ fun part unsent hprogress => ?_
    rw [Progress, hc] at hprogress
    exact ⟨Nat.zero_le _, hprogress.1.trans (List.take_zero).symm, hprogress.2⟩
  | loopStopped _ _ => exact h.of_leaving rfl rfl
  | readFailed _ _ _ _ => exact h.of_leaving rfl rfl
  | @readInterrupted part _ _ _ _ hc _ _ =>
    refine hkeep _ fun part' unsent hprogress => ?_
    rw [Progress, hc] at hprogress
    cases part <;> exact hprogress
  | @readAgain part _ hc _ =>
    refine hkeep _ fun part' unsent hprogress => ?_
    rw [Progress, hc] at hprogress
    cases part <;> exact hprogress
  | readStopped _ _ => exact h.of_leaving rfl rfl
  | @length filled length hc hle hd =>
    obtain ⟨hlen, hanswered, part, unsent, hprogress, hwritten, hacks⟩ := h
    rw [Progress, hc] at hprogress
    obtain ⟨-, rfl, rfl⟩ := hprogress
    rw [List.take_of_length_le hle] at hwritten
    exact ⟨hlen, hanswered, s.executor.framePrefix, [], ⟨⟨length, hd, length_resize _ _⟩,
      Nat.zero_le _, by simp, rfl⟩, hwritten, hacks⟩
  | lengthRefused _ _ _ => exact h.of_leaving rfl rfl
  | sendFailed _ _ _ => exact h.of_leaving rfl rfl
  | sendInterrupted hc _ _ =>
    refine hkeep _ fun part unsent hprogress => ?_
    rwa [Progress, hc] at hprogress
  | sendAgain hc _ =>
    refine hkeep _ fun part unsent hprogress => ?_
    rwa [Progress, hc] at hprogress
  | sendStopped _ _ => exact h.of_leaving rfl rfl
  | rejected hc hle =>
    refine hkeep _ fun part unsent hprogress => ?_
    rw [Progress, hc] at hprogress
    exact ⟨hprogress.1, hprogress.2.trans (List.drop_of_length_le hle)⟩
  | @fire moment message sent hc hle =>
    obtain ⟨hlen, hanswered, part, unsent, hprogress, hwritten, hacks⟩ := h
    rw [Progress, hc] at hprogress
    exact ⟨hlen, hanswered, part, unsent,
      ⟨hprogress.1, hprogress.2.trans (List.drop_of_length_le hle)⟩, hwritten, hacks⟩

/-- The steps of `stop` keep the bytes of the two sides accounted for. -/
lemma Served.stop {s : Exchange F ι} (h : Served s) {e : Executor F ι} {i : ι}
    (hs : s.executor.Step (.stop i) e) : Served { s with executor := e } := by
  cases hs with
  | stopStore _ => exact h
  | stopWrite _ => exact h
  | stopLoad _ => exact h
  | stopShutdown _ => exact h

/-- Every step of either side keeps the account of what was served. -/
lemma Served.step {s s' : Exchange F ι} {event : ClientEvent F} (h : Served s)
    (hs : Step s event s') : Served s' := by
  cases hs with
  | serverRead _ hs hin => exact h.read hs hin
  | serverAnswer _ hs => exact h.answer hs
  | serverSend _ hs => exact h.send hs
  | server hp hs => exact h.serve hp hs
  | stop hs => exact h.stop hs
  | @send sent hc hlt wrote hle =>
    obtain ⟨hlen, hanswered, part, unsent, hprogress, hwritten, hacks⟩ := h
    refine ⟨hlen, hanswered, part, unsent, hprogress, ?_, hacks⟩
    rw [hwritten]
    simp only [List.append_assoc]
  | @read part filled read rest hc hne hle hin =>
    obtain ⟨hlen, hanswered, part', unsent, hprogress, hwritten, hacks⟩ := h
    refine ⟨hlen, hanswered, part', unsent, hprogress, hwritten, ?_⟩
    rw [hacks, hin]
    simp only [List.append_assoc]
  | refuse _ _ => exact h
  | call _ _ _ => exact h
  | sendFailed _ _ _ => exact h
  | sent _ _ => exact h
  | readClosed _ _ => exact h
  | readFailed _ _ _ => exact h
  | length _ _ _ => exact h
  | lengthRefused _ _ _ => exact h
  | ackRefused _ _ _ => exact h
  | acked _ _ _ => exact h
  | close _ => exact h

end Exchange

end Hotpath
