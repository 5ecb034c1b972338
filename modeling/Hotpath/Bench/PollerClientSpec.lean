import Hotpath.Bench.PollerClientRuns

set_option relaxedAutoImplicit false
set_option autoImplicit false

/-!
# Whose ack a call returns

A call of `send_wake` that succeeds returns the ack of the frame it sent, as long as every call
before it either sent nothing or read its ack to the end. A call that fails in between, at a
timeout of its `read` say, leaves the connection open and its ack behind, and the next call takes
that ack for its own.

## Main definitions

* `Hotpath.Exchange.OwnAck` — the ack a call returns is that of its own frame.
* `Hotpath.Exchange.Clean` — a call does not fail between its first byte and its ack's last.
* `Hotpath.Exchange.InStep` — the client is in step with the server.

## Main results

* `Hotpath.Exchange.own_ack`, `Hotpath.Exchange.ack_of_earlier_frame`.
-/

namespace Hotpath

open System
open Utf8 (bytes)

variable {F ι : Type}

namespace Exchange

/-! ## The property and its condition -/

/-- The ack that a call returns is the one the server made for the frame the call sent: the frames
the server answered before that one are all that was sent before the call, and their acks all that
was read before it. -/
def OwnAck [Double F] [CharConv F] (s : Exchange F ι) (ack : WakeAck) : Prop :=
  ∃ earlier later startedAtMs, s.answered = earlier ++
      (s.client.frame, encodeWakeAckInto ack []) :: later ∧
    (earlier.map Prod.fst).flatten = s.writtenBefore ∧
    (earlier.map Prod.snd).flatten = s.consumedBefore ∧
    ack = ackFor (decodeWakeMessage (F := F) (s.client.frame.drop kFrameLengthBytes)) startedAtMs

/-- A call does not fail between the first byte of its frame and the last byte of its ack, and its
message does not overflow the length prefix. -/
def Clean [CharConv F] (p : Exchange F ι × ClientEvent F) : Prop :=
  match p.2 with
  | .called message => message.body.length < 2 ^ 32
  | .returned (.error _) =>
    match p.1.client.control with
    | .idle => True
    | .sending sent => sent = 0
    | .reading .framePrefix _ => False
    | .reading .body filled => p.1.client.body.length ≤ filled
  | _ => True

end Exchange

/-! ## The client's side -/

namespace PollerClient

/-- What the call has sent of its frame. -/
def sentNow (c : PollerClient) : Bytes :=
  match c.control with
  | .idle => []
  | .sending sent => c.frame.take sent
  | .reading _ _ => c.frame

/-- What the call has read of its ack. -/
def readNow (c : PollerClient) : Bytes :=
  match c.control with
  | .idle => []
  | .sending _ => []
  | .reading .framePrefix filled => c.framePrefix.take filled
  | .reading .body filled => c.framePrefix ++ c.body.take filled

/-- How far the call is in its buffers. -/
def Within (c : PollerClient) : Prop :=
  match c.control with
  | .idle => True
  | .sending sent => sent ≤ c.frame.length
  | .reading .framePrefix filled =>
    c.framePrefix.length = kFrameLengthBytes ∧ filled ≤ c.framePrefix.length
  | .reading .body filled => (∃ length, decodeFrameLength c.framePrefix = .ok length ∧
      c.body.length = length.toNat) ∧ filled ≤ c.body.length

variable {c : PollerClient}

/-- While the frame is being sent, what `send` took is on its way. -/
lemma sentNow_sending {sent : ℕ} (hc : c.control = .sending sent) :
    c.sentNow = c.frame.take sent := by
  rw [sentNow, hc]

/-- Once the ack is being read, the whole frame was sent. -/
lemma sentNow_reading {part : FramePart} {filled : ℕ} (hc : c.control = .reading part filled) :
    c.sentNow = c.frame := by
  rw [sentNow, hc]

/-- While the frame is being sent, nothing was read. -/
lemma readNow_sending {sent : ℕ} (hc : c.control = .sending sent) : c.readNow = [] := by
  rw [readNow, hc]

/-- In the length prefix of the ack, what was read is the filled part of it. -/
lemma readNow_framePrefix {filled : ℕ} (hc : c.control = .reading .framePrefix filled) :
    c.readNow = c.framePrefix.take filled := by
  rw [readNow, hc]

/-- In the body of the ack, what was read is the prefix and the filled part of the body. -/
lemma readNow_body {filled : ℕ} (hc : c.control = .reading .body filled) :
    c.readNow = c.framePrefix ++ c.body.take filled := by
  rw [readNow, hc]

/-- A call that has read the body has read the ack. -/
lemma readNow_whole {filled : ℕ} (hc : c.control = .reading .body filled)
    (hle : c.body.length ≤ filled) : c.readNow = c.framePrefix ++ c.body := by
  rw [readNow_body hc, List.take_of_length_le hle]

/-- A call that reads the body has read an accepted prefix. -/
lemma Within.body {filled : ℕ} (h : c.Within) (hc : c.control = .reading .body filled) :
    ∃ length, decodeFrameLength c.framePrefix = .ok length ∧ c.body.length = length.toNat := by
  rw [Within, hc] at h
  exact h.1

/-- Bytes that are read are behind those that were, and the call stays in its buffers. -/
lemma fill_spec {part : FramePart} {filled : ℕ} {read : Bytes} (h : c.Within)
    (hc : c.control = .reading part filled)
    (hle : filled + read.length ≤ (c.buffer part).length) :
    (c.fill part filled read).Within ∧
      (c.fill part filled read).readNow = c.readNow ++ read := by
  obtain ⟨htake, hlength⟩ := take_fill hle
  have hroom := hle.trans_eq hlength.symm
  rw [Within, hc] at h
  cases part with
  | framePrefix =>
    rw [readNow_framePrefix hc]
    exact ⟨⟨hlength.trans h.1, hroom⟩, htake⟩
  | body =>
    obtain ⟨⟨length, hd, hbody⟩, -⟩ := h
    rw [readNow_body hc, List.append_assoc]
    exact ⟨⟨⟨length, hd, hlength.trans hbody⟩, hroom⟩, congrArg (c.framePrefix ++ ·) htake⟩

end PollerClient

namespace Exchange

/-- All that was sent was answered, and the acks of it are all that was read. -/
def Settled (s : Exchange F ι) (written consumed : Bytes) : Prop :=
  ∃ earlier later, s.answered = earlier ++ later ∧
    (earlier.map Prod.fst).flatten = written ∧ (earlier.map Prod.snd).flatten = consumed

/-- A call is in step with the server: all is settled that came before it. -/
structure InCall (s : Exchange F ι) : Prop where
  isFrame : IsFrame s.client.frame
  within : s.client.Within
  settled : s.Settled s.writtenBefore s.consumedBefore
  written : s.written = s.writtenBefore ++ s.client.sentNow
  consumed : s.consumed = s.consumedBefore ++ s.client.readNow

/-- The client is in step with the server, between two calls or in one. -/
def InStep (s : Exchange F ι) : Prop :=
  if s.client.control = .idle then s.Settled s.written s.consumed else s.InCall

/-- In step, a client that is not idle is so in its call. -/
lemma InStep.inCall {s : Exchange F ι} (h : InStep s) {control : ClientControl}
    (hc : s.client.control = control) (hne : control ≠ .idle) : InCall s := by
  rwa [InStep, if_neg (hc ▸ hne)] at h

/-- A client that is idle is in step if all is settled. -/
lemma Settled.inStep {s : Exchange F ι} (h : s.Settled s.written s.consumed)
    (hc : s.client.control = .idle) : InStep s := by
  rwa [InStep, if_pos hc]

/-- A client in step in its call is in step. -/
lemma InCall.inStep {s : Exchange F ι} (h : InCall s) (hne : s.client.control ≠ .idle) :
    InStep s := by
  rwa [InStep, if_neg hne]

section

variable [Double F] [CharConv F]

/-- **A whole ack is that of the frame of the call.** In step, a call that has read an ack to the
end has read the one that the server made for its frame, and the server has answered nothing
since.

**Proof sketch.** What the server answered since the call is a part of the frame of the call, so
it is this frame or nothing. As the call has read something, it is this frame; what it read is the
beginning of the ack, and as both are frames, all of it. -/
lemma InCall.whole {s : Exchange F ι} (h : InCall s) (hserved : Served s) {filled : ℕ}
    (hc : s.client.control = .reading .body filled) (hle : s.client.body.length ≤ filled) :
    ∃ earlier startedAtMs, s.answered = earlier ++ [(s.client.frame, encodeWakeAckInto (ackFor
        (decodeWakeMessage (F := F) (s.client.frame.drop kFrameLengthBytes)) startedAtMs) [])] ∧
      (earlier.map Prod.fst).flatten = s.writtenBefore ∧
      (earlier.map Prod.snd).flatten = s.consumedBefore ∧
      s.client.framePrefix ++ s.client.body = encodeWakeAckInto (ackFor
        (decodeWakeMessage (F := F) (s.client.frame.drop kFrameLengthBytes)) startedAtMs) [] := by
  obtain ⟨earlier, later, hanswered, hfst, hsnd⟩ := h.settled
  obtain ⟨-, hall, part, unsent, -, hserver, hacks⟩ := hserved
  obtain ⟨length, hlength, hbody⟩ := h.within.body hc
  obtain ⟨-, hgot⟩ := isFrame_of_decode hlength hbody
  rw [hanswered, List.map_append, List.flatten_append] at hserver hacks
  rw [hfst, h.written, PollerClient.sentNow_reading hc, List.append_assoc, List.append_assoc]
    at hserver
  rw [hsnd, h.consumed, PollerClient.readNow_whole hc hle, List.append_assoc, List.append_assoc]
    at hacks
  have hserver' := List.append_cancel_left hserver
  have hacks' := List.append_cancel_left hacks
  have hlater : ∀ x ∈ later, Answered F x := fun x hx =>
    hall x (by rw [hanswered]; exact List.mem_append_right _ hx)
  have hwords : ∀ w ∈ later.map Prod.fst, IsFrame w := by
    intro w hw
    obtain ⟨x, hx, rfl⟩ := List.mem_map.mp hw
    exact (hlater x hx).1
  rcases prefixFree_isFrame.flatten_prefix hwords h.isFrame ⟨_, hserver'.symm⟩ with hnil | hone
  · -- nothing was answered, so that nothing could be read
    obtain rfl : later = [] := List.map_eq_nil_iff.mp hnil
    have hne := prefixFree_isFrame.ne_nil _ hgot
    exact absurd (List.append_eq_nil_iff.mp hacks'.symm).1 hne
  · obtain ⟨⟨frame, ack⟩, rfl, hx⟩ := List.map_eq_singleton_iff.mp hone
    obtain ⟨-, hcap, startedAtMs, hack⟩ := hlater (frame, ack) (by simp)
    dsimp only at hx hcap hack
    rw [hx] at hcap hack
    have hackFrame : IsFrame ack := by
      rw [hack, encodeWakeAckInto_eq F]
      exact isFrame_writeLengthPrefix (length_ack_lt startedAtMs hcap)
    rw [List.map_singleton, List.flatten_singleton] at hacks'
    have hwhole := prefixFree_isFrame.eq_of_prefix _ _ hgot hackFrame ⟨_, hacks'.symm⟩
    exact ⟨earlier, startedAtMs, by rw [hanswered, hx, hack], hfst, hsnd, hwhole.trans hack⟩

/-- A call that is in step and has sent nothing, or has read a whole ack, may end. -/
lemma InCall.finish {s : Exchange F ι} (h : InCall s) (hserved : Served s)
    (hdone : s.client.control = .sending 0 ∨
      ∃ filled, s.client.control = .reading .body filled ∧ s.client.body.length ≤ filled) :
    InStep { s with client := s.client.finish } := by
  refine Settled.inStep ?_ rfl
  show s.Settled s.written s.consumed
  rw [h.written, h.consumed]
  rcases hdone with hc | ⟨filled, hc, hle⟩
  · rw [PollerClient.sentNow_sending hc, PollerClient.readNow_sending hc, List.take_zero,
      List.append_nil, List.append_nil]
    exact h.settled
  · obtain ⟨earlier, startedAtMs, hanswered, hfst, hsnd, hwhole⟩ := h.whole hserved hc hle
    rw [PollerClient.sentNow_reading hc, PollerClient.readNow_whole hc hle]
    refine ⟨s.answered, [], (List.append_nil _).symm, ?_, ?_⟩
    · rw [hanswered, List.map_append, List.flatten_append, hfst, List.map_singleton,
        List.flatten_singleton]
    · rw [hanswered, List.map_append, List.flatten_append, hsnd, List.map_singleton,
        List.flatten_singleton, hwhole]

omit [Double F] [CharConv F] in
/-- The server's steps and those of `stop` leave the client in step. -/
lemma InStep.of_server {s s' : Exchange F ι} (h : InStep s) (hclient : s'.client = s.client)
    (hwritten : s'.written = s.written) (hconsumed : s'.consumed = s.consumed)
    (hwrittenBefore : s'.writtenBefore = s.writtenBefore)
    (hconsumedBefore : s'.consumedBefore = s.consumedBefore)
    (hanswered : s.answered <+: s'.answered) : InStep s' := by
  have hsettled : ∀ written consumed, s.Settled written consumed → s'.Settled written consumed := by
    rintro written consumed ⟨earlier, later, heq, hfst, hsnd⟩
    obtain ⟨l, hl⟩ := hanswered
    exact ⟨earlier, later ++ l, by rw [← hl, heq, List.append_assoc], hfst, hsnd⟩
  by_cases hc : s.client.control = .idle
  · rw [InStep, if_pos hc] at h
    refine Settled.inStep ?_ (hclient ▸ hc)
    rw [hwritten, hconsumed]
    exact hsettled _ _ h
  · have hcall := h.inCall rfl hc
    refine InCall.inStep ⟨?_, ?_, ?_, ?_, ?_⟩ (hclient ▸ hc)
    · exact hclient ▸ hcall.isFrame
    · exact hclient ▸ hcall.within
    · rw [hwrittenBefore, hconsumedBefore]
      exact hsettled _ _ hcall.settled
    · rw [hwritten, hwrittenBefore, hclient]
      exact hcall.written
    · rw [hconsumed, hconsumedBefore, hclient]
      exact hcall.consumed

omit [Double F] in
/-- A call that fails amid its ack is not clean. -/
lemma not_clean_of_reading {s : Exchange F ι} {part : FramePart} {filled : ℕ}
    (hc : s.client.control = .reading part filled)
    (hlt : filled < (s.client.buffer part).length) {failure : Bytes} :
    ¬ Clean (s, .returned (.error failure)) := by
  intro hclean
  cases part with
  | framePrefix => simp [Clean, hc] at hclean
  | body =>
    have hle : s.client.body.length ≤ filled := by simpa [Clean, hc] using hclean
    exact absurd hlt (not_lt.mpr hle)

variable [DecidableEq ι]

/-- Every clean step keeps the client in step. -/
lemma InStep.step {s s' : Exchange F ι} {event : ClientEvent F} (h : InStep s)
    (hserved : Served s) (hclean : Clean (s, event)) (hs : Step s event s') : InStep s' := by
  cases hs with
  | serverRead _ _ _ => exact h.of_server rfl rfl rfl rfl rfl List.prefix_rfl
  | serverAnswer _ _ => exact h.of_server rfl rfl rfl rfl rfl (List.prefix_append _ _)
  | serverSend _ _ => exact h.of_server rfl rfl rfl rfl rfl List.prefix_rfl
  | server _ _ => exact h.of_server rfl rfl rfl rfl rfl List.prefix_rfl
  | stop _ => exact h.of_server rfl rfl rfl rfl rfl List.prefix_rfl
  | refuse _ _ => exact h
  | call hc hfd message =>
    rw [InStep, if_pos hc] at h
    refine InCall.inStep ⟨?_, Nat.zero_le _, h, ?_, ?_⟩ (by rintro ⟨⟩)
    · show IsFrame (encodeWakeMessageInto message s.client.frame)
      rw [encodeWakeMessageInto_eq]
      exact isFrame_writeLengthPrefix hclean
    · exact (List.append_nil _).symm
    · exact (List.append_nil _).symm
  | @send sent hc hlt wrote hle =>
    have hcall := h.inCall hc (by rintro ⟨⟩)
    refine InCall.inStep ⟨hcall.isFrame, hle, hcall.settled, ?_, ?_⟩ (by rintro ⟨⟩)
    · show s.written ++ (s.client.frame.drop sent).take wrote =
        s.writtenBefore ++ s.client.frame.take (sent + wrote)
      rw [hcall.written, PollerClient.sentNow_sending hc, List.append_assoc, List.take_add]
    · rw [hcall.consumed, PollerClient.readNow_sending hc]
      rfl
  | @sendFailed sent hc hlt message =>
    have hzero : sent = 0 := by simpa [Clean, hc] using hclean
    exact (h.inCall hc (by rintro ⟨⟩)).finish hserved (Or.inl (hzero ▸ hc))
  | @sent sent hc hle =>
    have hcall := h.inCall hc (by rintro ⟨⟩)
    refine InCall.inStep ⟨hcall.isFrame, ⟨List.length_replicate, Nat.zero_le _⟩, hcall.settled,
      ?_, ?_⟩ (by rintro ⟨⟩)
    · rw [hcall.written, PollerClient.sentNow_sending hc, List.take_of_length_le hle]
      rfl
    · rw [hcall.consumed, PollerClient.readNow_sending hc]
      rfl
  | @read part filled read rest hc hne hle hin =>
    have hcall := h.inCall hc (by rintro ⟨⟩)
    obtain ⟨hwithin, hread⟩ := PollerClient.fill_spec hcall.within hc hle
    have hreading : (s.client.fill part filled read).control =
        .reading part (filled + read.length) := by
      cases part <;> rfl
    have hframe : (s.client.fill part filled read).frame = s.client.frame := by
      cases part <;> rfl
    refine InCall.inStep ⟨?_, hwithin, hcall.settled, ?_, ?_⟩ (by rw [hreading]; rintro ⟨⟩)
    · rw [hframe]
      exact hcall.isFrame
    · rw [PollerClient.sentNow_reading hreading, hframe, hcall.written,
        PollerClient.sentNow_reading hc]
    · rw [hread, ← List.append_assoc, ← hcall.consumed]
  | readClosed hc hlt => exact absurd hclean (not_clean_of_reading hc hlt)
  | readFailed hc hlt _ => exact absurd hclean (not_clean_of_reading hc hlt)
  | @length filled length hc hle hd =>
    have hcall := h.inCall hc (by rintro ⟨⟩)
    refine InCall.inStep ⟨hcall.isFrame, ⟨⟨length, hd, length_resize _ _⟩, Nat.zero_le _⟩,
      hcall.settled, ?_, ?_⟩ (by rintro ⟨⟩)
    · rw [hcall.written, PollerClient.sentNow_reading hc]
      rfl
    · rw [hcall.consumed, PollerClient.readNow_framePrefix hc, List.take_of_length_le hle]
      exact congrArg (s.consumedBefore ++ ·) (List.append_nil _).symm
  | lengthRefused hc _ _ => simp [Clean, hc] at hclean
  | ackRefused hc hle _ =>
    exact (h.inCall hc (by rintro ⟨⟩)).finish hserved (Or.inr ⟨_, hc, hle⟩)
  | acked hc hle _ => exact (h.inCall hc (by rintro ⟨⟩)).finish hserved (Or.inr ⟨_, hc, hle⟩)
  | close hc =>
    rw [InStep, if_pos hc] at h
    exact Settled.inStep h hc

/-- In step, the ack that a call returns is its own. -/
lemma InStep.ownAck {s s' : Exchange F ι} {ack : WakeAck} (h : InStep s) (hserved : Served s)
    (hs : Step s (.returned (.ok ack)) s') : OwnAck s ack := by
  cases hs with
  | @acked filled ack hc hle hd =>
    have hcall := h.inCall hc (by rintro ⟨⟩)
    obtain ⟨earlier, startedAtMs, hanswered, hfst, hsnd, hwhole⟩ := hcall.whole hserved hc hle
    obtain ⟨length, hlength, hbody⟩ := hcall.within.body hc
    obtain ⟨hroom, -⟩ := isFrame_of_decode hlength hbody
    have hgot := congrArg (List.drop kFrameLengthBytes) hwhole
    rw [← hroom, List.drop_left, hroom, encodeWakeAckInto_eq F, drop_writeLengthPrefix] at hgot
    rw [hgot, decodeWakeAck_body F (encodable_ackFor _ _)] at hd
    obtain rfl := Except.ok.inj hd
    exact ⟨earlier, [], startedAtMs, hanswered, hfst, hsnd, rfl⟩

/-- **A successful call returns its own ack.** In every run over one connection, with any number
of callers of `stop`, in which no call fails between the first byte it sends and the last byte of
its ack and no message overflows the length prefix, whenever a call succeeds it returns the ack
that the server made for the frame the call sent. -/
theorem own_ack {e : Executor F ι} (hlooping : e.control = .looping)
    (hroom : e.framePrefix.length = kFrameLengthBytes)
    {h : List (Exchange F ι × ClientEvent F)} {s : Exchange F ι} (hr : Run Step (new e) h s)
    (hclean : ∀ p ∈ h, Clean p) :
    ∀ p ∈ h, ∀ ack, p.2 = .returned (.ok ack) → OwnAck p.1 ack := by
  have hI : (∀ p ∈ h, Clean p) → Served s ∧ InStep s ∧
      ∀ p ∈ h, ∀ ack, p.2 = .returned (.ok ack) → OwnAck p.1 ack := by
    refine hr.history_invariant (I := fun h s => (∀ p ∈ h, Clean p) → Served s ∧ InStep s ∧
      ∀ p ∈ h, ∀ ack, p.2 = .returned (.ok ack) → OwnAck p.1 ack) ?_ ?_
    · intro _
      refine ⟨⟨hroom, by rintro _ ⟨⟩, [], [], ?_, rfl, rfl⟩, ?_, by rintro _ ⟨⟩⟩
      · show Progress e [] []
        rw [Progress, hlooping]
        exact ⟨rfl, rfl⟩
      · exact Settled.inStep ⟨[], [], rfl, rfl, rfl⟩ rfl
    · intro h s event s' _ ih hs hclean
      obtain ⟨hbefore, hnow⟩ := List.forall_mem_append.mp hclean
      obtain ⟨hserved, hinStep, hown⟩ := ih hbefore
      refine ⟨hserved.step hs, hinStep.step hserved (hnow _ (List.mem_singleton_self _)) hs, ?_⟩
      intro p hp ack hack
      rcases List.mem_append.mp hp with hp | hp
      · exact hown p hp ack hack
      · obtain rfl := List.mem_singleton.mp hp
        obtain rfl : event = .returned (.ok ack) := hack
        exact hinStep.ownAck hserved hs
  exact (hI hclean).2.2

end

/-- A first call that is answered returns its own ack. -/
theorem own_ack_first : ∃ (e : Executor SignedZero Unit)
    (h : List (Exchange SignedZero Unit × ClientEvent SignedZero)) (s : Exchange SignedZero Unit)
    (p : Exchange SignedZero Unit × ClientEvent SignedZero) (ack : WakeAck),
    Run Step (new e) h s ∧ p ∈ h ∧ p.2 = .returned (.ok ack) ∧ OwnAck p.1 ack := by
  obtain ⟨-, e, -, hlooping, hstopping, hroom⟩ := reach_accepted
  obtain ⟨header, length, hframe, hd, hbody⟩ :=
    exists_header firstWake.body (by decide +kernel)
  obtain ⟨ackHeader, ackLength, hackFrame, hackd, hackBody⟩ :=
    exists_header (firstAck.body SignedZero) (by decide +kernel)
  rw [← encodeWakeMessageInto_eq firstWake []] at hframe
  rw [← encodeWakeAckInto_eq SignedZero firstAck []] at hackFrame
  obtain ⟨h₁, s₁, hr₁, hlabels₁, hs₁⟩ := reach_sent (s := new e) rfl rfl firstWake hframe
  obtain ⟨h₂, s₂, hr₂, hlabels₂, e₂, hs₂⟩ := reach_answered (s := s₁)
    (by rw [hs₁]; exact hlooping) (by rw [hs₁]; exact hstopping) (by rw [hs₁]; exact hroom)
    hd hbody (by decide +kernel) [] (by rw [hs₁]; exact (List.append_nil _).symm)
    ⟨0, 0, 0, 0, ⟨0, ⟨false, false⟩⟩⟩
  rw [decode_firstWake] at hs₂
  obtain ⟨h₃, s₃, hr₃, hlabels₃, hs₃⟩ := reach_read (s := s₂)
    (by rw [hs₂, hs₁]) (by rw [hs₂, hs₁]; rfl) hackd hackBody (by decide +kernel) []
    (by rw [hs₂, hs₁, List.append_nil, ← hackFrame]; rfl)
  have hr := ((hr₁.append hr₂).append hr₃).snoc
    (.acked (by rw [hs₃]) (by rw [hs₃]) (by rw [hs₃]; exact decode_firstAck))
  have hclean : ∀ p ∈ h₁ ++ h₂ ++ h₃ ++ [(s₃, .returned (.ok firstAck))], Clean p := by
    simp only [List.forall_mem_append, List.forall_mem_singleton]
    refine ⟨⟨⟨fun p hp => ?_, fun p hp => ?_⟩, fun p hp => ?_⟩, trivial⟩
    · have hcalled : firstWake.body.length < 2 ^ 32 := by decide +kernel
      rcases hlabels₁ p hp with hp | hp
      · rwa [Clean, hp]
      · rw [Clean, hp]
        trivial
    · rw [Clean, hlabels₂ p hp]
      trivial
    · rw [Clean, hlabels₃ p hp]
      trivial
  have hmem : (s₃, ClientEvent.returned (.ok firstAck)) ∈
      h₁ ++ h₂ ++ h₃ ++ [(s₃, ClientEvent.returned (.ok firstAck))] := by simp
  exact ⟨e, _, _, _, _, hr, hmem, rfl, own_ack hlooping hroom hr hclean _ hmem _ rfl⟩

/-- A call after one that timed out returns the ack of the earlier message, which the server has
read alone. -/
theorem ack_of_earlier_frame : ∃ (h₀ : List (Executor SignedZero Unit × ServerAction Unit))
    (e : Executor SignedZero Unit) (h : List (Exchange SignedZero Unit × ClientEvent SignedZero))
    (s : Exchange SignedZero Unit) (p : Exchange SignedZero Unit × ClientEvent SignedZero)
    (first second : WakeMessage SignedZero) (ack : WakeAck),
    Run Executor.Step (Executor.new (ExecutorServer.new none true true) ⟨3, 4, 5⟩) h₀ e ∧
      e.control = .looping ∧ Run Step (new e) h s ∧ p ∈ h ∧ p.2 = .returned (.ok ack) ∧
      p.1.client.frame = encodeWakeMessageInto second [] ∧
      ack.correlationId = first.correlationId ∧ first.correlationId ≠ second.correlationId ∧
      ¬ OwnAck p.1 ack := by
  obtain ⟨h₀, e, hr₀, hlooping, hstopping, hroom⟩ := reach_accepted
  obtain ⟨header, length, hframe, hd, hbody⟩ :=
    exists_header firstWake.body (by decide +kernel)
  obtain ⟨ackHeader, ackLength, hackFrame, hackd, hackBody⟩ :=
    exists_header (firstAck.body SignedZero) (by decide +kernel)
  rw [← encodeWakeMessageInto_eq firstWake []] at hframe
  rw [← encodeWakeAckInto_eq SignedZero firstAck []] at hackFrame
  -- the first call sends its frame, and its `read` times out
  obtain ⟨h₁, s₁, hr₁, -, hs₁⟩ := reach_sent (s := new e) rfl rfl firstWake hframe
  have hfailed : Step s₁ (.returned (.error (syscallError (bytes "read")
      (bytes "Resource temporarily unavailable")))) { s₁ with client := s₁.client.finish } :=
    .readFailed (show s₁.client.control = .reading .framePrefix 0 by rw [hs₁])
      (by rw [hs₁]; exact (by decide : 0 < kFrameLengthBytes)) _
  obtain ⟨s₂, hs₂⟩ : ∃ s₂, s₂ = { s₁ with client := s₁.client.finish } := ⟨_, rfl⟩
  rw [← hs₂] at hfailed
  -- the server answers it
  obtain ⟨h₃, s₃, hr₃, -, e₃, hs₃⟩ := reach_answered (s := s₂)
    (by rw [hs₂, hs₁]; exact hlooping) (by rw [hs₂, hs₁]; exact hstopping)
    (by rw [hs₂, hs₁]; exact hroom) hd hbody (by decide +kernel) []
    (by rw [hs₂, hs₁]; exact (List.append_nil _).symm) ⟨0, 0, 0, 0, ⟨0, ⟨false, false⟩⟩⟩
  rw [decode_firstWake] at hs₃
  -- the second call sends its frame and reads what is in flight
  obtain ⟨h₄, s₄, hr₄, -, hs₄⟩ := reach_sent (s := s₃) (by rw [hs₃, hs₂]; rfl)
    (by rw [hs₃, hs₂, hs₁]; rfl) (wake (bytes "2")) rfl
  obtain ⟨h₅, s₅, hr₅, -, hs₅⟩ := reach_read (s := s₄) (by rw [hs₄])
    (by rw [hs₄]; rfl) hackd hackBody (by decide +kernel) []
    (by rw [hs₄, hs₃, hs₂, hs₁, List.append_nil, ← hackFrame]; rfl)
  have hr := ((((hr₁.snoc hfailed).append hr₃).append hr₄).append hr₅).snoc
    (.acked (by rw [hs₅]) (by rw [hs₅]) (by rw [hs₅]; exact decode_firstAck))
  refine ⟨h₀, e, _, _, (s₅, .returned (.ok firstAck)), firstWake, wake (bytes "2"), firstAck, hr₀,
    hlooping, hr, by simp, rfl, by rw [hs₅, hs₄], rfl, by decide, ?_⟩
  rintro ⟨earlier, later, startedAtMs, hanswered, hfst, -, -⟩
  have hone : s₅.answered.length = 1 := by rw [hs₅, hs₄, hs₃, hs₂, hs₁]; rfl
  have hbefore : s₅.writtenBefore = header ++ firstWake.body := by rw [hs₅, hs₄, hs₃, hs₂, hs₁]; rfl
  dsimp only at hanswered hfst
  rw [hanswered, List.length_append, List.length_cons] at hone
  obtain rfl : earlier = [] := List.eq_nil_of_length_eq_zero (by omega)
  rw [hbefore] at hfst
  have hne : firstWake.body ≠ [] := by decide +kernel
  exact hne (List.append_eq_nil_iff.mp hfst.symm).2

end Exchange

end Hotpath
