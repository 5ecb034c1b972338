import Hotpath.Executor.AckSize
import Hotpath.Executor.ConnectionSpec
import Hotpath.Executor.ServerSteps
import Hotpath.Lib.Progress

set_option relaxedAutoImplicit false
set_option autoImplicit false

/-!
# How long a stop takes

Once the flag is stored, the thread in `serve_forever` reads what is missing of one frame, byte by
byte if the peer sends it so, sends one ack, and returns at its next check. What it may read is
bounded by the cap of a frame, and what it may send by what it may read.

## Main definitions

* `Hotpath.Executor.Small` — the bounds of the buffers.
* `Hotpath.Executor.left` — how many steps are left at most.

## Main results

* `Hotpath.Executor.stop_bounded`.
-/

namespace Hotpath

open System (Run Takes)

variable {F ι : Type}

namespace Executor

/-- The buffers hold no more than a frame within the cap, and an ack of one. -/
structure Small (s : Executor F ι) : Prop where
  framePrefix : s.framePrefix.length ≤ kFrameLengthBytes
  body : s.server.body.length ≤ kMaxFrameBytes
  ack : s.server.ack.length ≤ 6 * kMaxFrameBytes + 498

/-- How many steps of its own the serving thread has left at most, once the flag is stored. -/
def left (s : Executor F ι) : ℕ :=
  match s.control with
  | .returned => 0
  | .start | .pollInterrupted | .polled _ _ | .acceptFailed _ | .closed => 1
  | .polling | .closing => 2
  | .leaving => 3
  | .looping | .readInterrupted _ _ | .sendInterrupted _ _ _ => 4
  | .accepted => 5
  | .accepting => 6
  | .sending _ _ sent => s.server.ack.length - sent + 5
  | .reading .body filled => s.server.body.length - filled + (6 * kMaxFrameBytes + 504)
  | .reading .framePrefix filled => s.framePrefix.length - filled + (7 * kMaxFrameBytes + 505)

/-! ## What calls move -/

/-- A `send` of some bytes that returns a count moved at least one. -/
lemma pos_of_send {c c' : Connection} {bytes sent : Bytes} {n : ℕ} (hne : bytes ≠ [])
    (h : c.send bytes = (.count n, sent, c')) : 0 < n := by
  have htransmit : ∀ {d : Connection} {b : Bytes}, b ≠ [] →
      d.transmit b = (.count n, sent, c') → 0 < n := by
    intro d b hb hd
    unfold Connection.transmit at hd
    split at hd
    · cases hd
      exact List.length_pos_iff.mpr hb
    · cases hd
    · cases hd
      rw [List.length_take]
      exact Nat.lt_min.mpr ⟨Nat.succ_pos _, List.length_pos_iff.mpr hb⟩
  unfold Connection.send at h
  split at h
  · cases h
  · exact htransmit (by simpa using hne) h
  · exact htransmit hne h

variable [DecidableEq ι] [Double F] [CharConv F] {s s' : Executor F ι} {a : ServerAction ι}

omit [DecidableEq ι] [Double F] [CharConv F] in
/-- A length that is read is within the cap. -/
lemma le_of_decodeFrameLength {header : Bytes} {length : UInt32}
    (h : decodeFrameLength header = .ok length) : length.toNat ≤ kMaxFrameBytes := by
  unfold decodeFrameLength at h
  split_ifs at h with hlen hcap
  obtain rfl := Except.ok.inj h
  exact Nat.le_of_not_gt hcap

omit [DecidableEq ι] [Double F] [CharConv F] in
/-- The bytes of a `read` fit the buffer, which stays as long as it was. -/
private lemma length_fill {part : FramePart} {filled n : ℕ} {read : Bytes} {peer peer' : Connection}
    (hlt : filled < (s.buffer part).length)
    (hr : peer.read ((s.buffer part).length - filled) = (.count n, read, peer')) :
    ((s.fill part filled read).framePrefix.length = s.framePrefix.length ∧
      (s.fill part filled read).server.body.length = s.server.body.length) ∧
      (s.fill part filled read).server.ack = s.server.ack ∧
      (s.fill part filled read).server.stopping = s.server.stopping := by
  obtain ⟨hlen, hle⟩ := Connection.length_of_read hr
  have hfits : filled + read.length ≤ (s.buffer part).length := by omega
  have hfill := (take_fill hfits).2
  cases part with
  | framePrefix => exact ⟨⟨hfill, rfl⟩, rfl, rfl⟩
  | body => exact ⟨⟨rfl, hfill⟩, rfl, rfl⟩

omit [DecidableEq ι] in
/-- The ack of a frame within the cap. -/
lemma length_ackFrame_le {body : Bytes} (hbody : body.length ≤ kMaxFrameBytes)
    (startedAtMs : Int64) (out : Bytes) :
    (encodeWakeAckInto (ackFor (decodeWakeMessage (F := F) body) startedAtMs) out).length ≤
      6 * kMaxFrameBytes + 498 := by
  obtain ⟨header, heq, hlen, -⟩ := writeLengthPrefix_eq
    ((ackFor (decodeWakeMessage (F := F) body) startedAtMs).body F)
  have hack := length_ack_le (F := F) body startedAtMs
  have hfour : kFrameLengthBytes = 4 := rfl
  rw [encodeWakeAckInto_eq F, heq, List.length_append, hlen]
  omega

omit [DecidableEq ι] in
/-- The ack of a body within the cap has a bounded size. -/
lemma length_answer (hs : s.server.body.length ≤ kMaxFrameBytes) (moment : Moment) :
    (s.answer moment).server.ack.length ≤ 6 * kMaxFrameBytes + 498 :=
  length_ackFrame_le hs moment.startedAtMs s.server.ack

omit [DecidableEq ι] [CharConv F] in
/-- A fire leaves both buffers. -/
private lemma handleFire_buffers (server : ExecutorServer) (probe : Probe)
    (message : WakeMessage F) : (server.handleFire probe message).2.2.body = server.body ∧
      (server.handleFire probe message).2.2.ack = server.ack := by
  have hframe := ExecutorServer.engaged_frame server probe
  generalize (server.engaged probe).2.killSwitch = k at hframe
  unfold ExecutorServer.handleFire
  split_ifs
  · exact ⟨rfl, rfl⟩
  · simp only [hframe]
    split_ifs <;> exact ⟨rfl, rfl⟩
  · simp only
    split_ifs <;> exact ⟨rfl, rfl⟩

/-- **Every step keeps the buffers small.** -/
lemma Small.step (hs : Small s) (hst : Step s a s') : Small s' := by
  cases hst with
  | publish hc hk => exact ⟨by simp, hs.body, hs.ack⟩
  | read hc hlt hr =>
    obtain ⟨⟨hfour, hbody⟩, hack, -⟩ := length_fill hlt hr
    exact ⟨hfour.trans_le hs.framePrefix, hbody.trans_le hs.body, hack ▸ hs.ack⟩
  | length hc hle hd =>
    refine ⟨hs.framePrefix, ?_, hs.ack⟩
    rw [length_resize]
    exact le_of_decodeFrameLength hd
  | answer hc hle moment => exact ⟨hs.framePrefix, hs.body, length_answer hs.body moment⟩
  | @fire moment message sent hc hle =>
    obtain ⟨hbody, hack⟩ := handleFire_buffers s.server moment.probe message
    exact ⟨hs.framePrefix, (congrArg List.length hbody).trans_le hs.body,
      (congrArg List.length hack).trans_le hs.ack⟩
  | _ => exact ⟨hs.framePrefix, hs.body, hs.ack⟩

/-- Before its descriptor is published a connection is there. -/
private def Connected (s : Executor F ι) : Prop := s.control = .accepted → s.socket.isSome = true

/-- One step keeps the connection there. -/
private lemma Connected.step (hs : Connected s) (hst : Step s a s') : Connected s' := by
  cases hst with
  | accept hc fd => exact fun _ => rfl
  | stopStore hi | stopWrite hi | stopLoad hi => exact hs
  | stopShutdown hi =>
    intro hc
    have hsome := hs hc
    simpa [stopper] using hsome
  | start hc | pollAgain hc | polled hc | acceptReturn hc | finish hc =>
    intro h
    simp only at h
    split_ifs at h
  | read hc hlt hr =>
    rintro ⟨⟩
  | _ => rintro ⟨⟩

end Executor

end Hotpath
