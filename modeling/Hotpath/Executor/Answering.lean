import Hotpath.Executor.ServerSteps
import Hotpath.Lib.System

set_option relaxedAutoImplicit false
set_option autoImplicit false

/-!
# A frame that is answered at once

What a server that is between two frames may do with the next one when nothing stands in its way:
it reads the prefix and the body at once, answers, and sends the ack at once. After that it goes
on, or records and fires. Each part is specified by the state it leaves.

## Main definitions

* `Hotpath.Connection.sender` — a peer that has sent some bytes.
* `Hotpath.Executor.took`, `Hotpath.Executor.acked` — the states on the way.

## Main results

* `Hotpath.Executor.steps_took`, `Hotpath.Executor.steps_acked` — the steps.
* `Hotpath.Executor.run_acked` — the run.
* `Hotpath.Executor.run_rejected`, `Hotpath.Executor.run_fired` — the run with what follows it.
-/

namespace Hotpath

open System

variable {F ι : Type}

/-! ## Bytes that are there -/

/-- A peer that has sent some bytes, and takes all that is sent to it. -/
def Connection.sender (incoming : Bytes) : Connection := ⟨incoming, false, [], [], none⟩

/-- All that a sender has sent may be read at once. -/
lemma Connection.read_sender {read : Bytes} (hne : read ≠ []) :
    (sender read).read read.length = (.count (read.length - 1 + 1), read, sender []) := by
  have hpos := List.length_pos_iff.mpr hne
  simp [sender, Connection.read, Connection.receive, hne]
  omega

/-- A buffer that is filled with as many bytes as it has holds these. -/
lemma fill_all {out read : Bytes} (hlen : out.length = read.length) :
    out.take 0 ++ read ++ out.drop (0 + read.length) = read := by
  rw [List.drop_of_length_le (by omega), List.take_zero, List.nil_append, List.append_nil]

/-- The body the encoders write is behind a prefix that is accepted, if it is within the cap. -/
lemma exists_header (body : Bytes) (hcap : body.length ≤ kMaxFrameBytes) :
    ∃ header length, writeLengthPrefix (List.replicate kFrameLengthBytes 0 ++ body) =
        header ++ body ∧
      decodeFrameLength header = .ok length ∧ body.length = length.toNat := by
  obtain ⟨header, h, hlen, hval⟩ := writeLengthPrefix_eq body
  have hmax : kMaxFrameBytes = 65536 := rfl
  have hnat : (frameLength header).toNat = body.length := by
    rw [hval, UInt32.toNat_ofNat']
    exact Nat.mod_eq_of_lt (by omega)
  refine ⟨header, frameLength header, h, ?_, hnat.symm⟩
  rw [decodeFrameLength, if_neg (not_not.mpr hlen), if_neg (by omega)]

/-- A prefix that is accepted has its size. -/
lemma length_of_decode {header : Bytes} {length : UInt32}
    (hd : decodeFrameLength header = .ok length) : header.length = kFrameLengthBytes := by
  unfold decodeFrameLength at hd
  split_ifs at hd with hlen
  exact not_not.mp hlen

namespace Executor

variable [Double F] [CharConv F]

/-- The state after a frame was read. -/
def took (e : Executor F ι) (header body : Bytes) : Executor F ι :=
  { e with
    server := { e.server with body := body }
    framePrefix := header
    control := .reading .body body.length }

/-- The state after a frame was read and its ack was sent. -/
def acked (e : Executor F ι) (header body : Bytes) (moment : Moment) : Executor F ι :=
  let s := (e.took header body).answer moment
  { s with
    control := .sending moment (decodeWakeMessage body) (0 + s.server.ack.length)
    trace := s.trace ++ (s.server.ack.map .sent).map s.frameEvent }

variable {e : Executor F ι} {header body : Bytes}

/-- After an answer the buffer of the ack holds the ack of the body. -/
lemma ack_answer (e : Executor F ι) (header body : Bytes) (moment : Moment) :
    ((e.took header body).answer moment).server.ack =
      encodeWakeAckInto (ackFor (decodeWakeMessage (F := F) body) moment.startedAtMs) [] := by
  show encodeWakeAckInto (ackFor (decodeWakeMessage (F := F) body) moment.startedAtMs)
    e.server.ack = _
  rw [encodeWakeAckInto_eq F, encodeWakeAckInto_eq F]

/-- After an answer the buffer of the ack is not empty. -/
lemma ack_answer_pos (e : Executor F ι) (header body : Bytes) (moment : Moment) :
    0 < ((e.took header body).answer moment).server.ack.length := by
  rw [ack_answer, encodeWakeAckInto_eq F]
  simp [writeLengthPrefix]

variable [DecidableEq ι]

/-- The server may read all of a part of a frame at once. -/
lemma step_read {part : FramePart} {read : Bytes} (hc : e.control = .reading part 0)
    (hlen : (e.buffer part).length = read.length) (hne : read ≠ []) :
    e.Step (.read read) { e.fill part 0 read with control := .reading part read.length } := by
  have hpos := List.length_pos_iff.mpr hne
  have hread : (Connection.sender read).read ((e.buffer part).length - 0) =
      (.count (read.length - 1 + 1), read, Connection.sender []) := by
    rw [hlen]
    exact Connection.read_sender hne
  have hstep := Step.read hc (by omega) hread
  rwa [Nat.zero_add, Nat.sub_add_cancel hpos] at hstep

/-- **A frame may be read in four steps**, of which the first finds that the server is not to
stop. -/
lemma steps_took (hc : e.control = .looping) (hstop : e.server.stopping = false)
    (hroom : e.framePrefix.length = kFrameLengthBytes) {length : UInt32}
    (hd : decodeFrameLength header = .ok length) (hbody : body.length = length.toNat)
    (hne : body ≠ []) :
    ∃ e₁ e₂ e₃ : Executor F ι, e.Step .serve e₁ ∧ e₁.Step (.read header) e₂ ∧ e₂.Step .serve e₃ ∧
      e₃.Step (.read body) (e.took header body) ∧
      e₁.place = .reading ∧ e₂.place = .reading ∧ e₃.place = .reading := by
  have hheader := length_of_decode hd
  have hheaderNe : header ≠ [] := by
    rintro rfl
    cases hheader
  have hlen := hroom.trans hheader.symm
  have h₂ := step_read (e := { e with control := .reading .framePrefix 0 }) rfl hlen hheaderNe
  have h₃ := Step.length (s := { e with
    framePrefix := header
    control := .reading .framePrefix header.length }) rfl le_rfl hd
  have h₄ := step_read (e := { e with
    server := { e.server with body := resize e.server.body length.toNat }
    framePrefix := header
    control := .reading .body 0 }) (rfl : _ = Control.reading .body 0)
    ((length_resize _ _).trans hbody.symm) hne
  simp only [fill, buffer, fill_all hlen] at h₂
  simp only [fill, buffer, fill_all ((length_resize _ _).trans hbody.symm)] at h₄
  exact ⟨_, _, _, .loop hc hstop, h₂, h₃, h₄, rfl, rfl, rfl⟩

/-- **A whole frame is answered in two steps**, whatever is in it. -/
lemma steps_acked (e : Executor F ι) (header body : Bytes) (moment : Moment) :
    (e.took header body).Step .answer ((e.took header body).answer moment) ∧
      ((e.took header body).answer moment).Step
        (.send ((e.took header body).answer moment).server.ack) (e.acked header body moment) := by
  have hsend : (Connection.sender []).send
      (((e.took header body).answer moment).server.ack.drop 0) =
        (.count ((e.took header body).answer moment).server.ack.length,
          ((e.took header body).answer moment).server.ack, .sender []) := rfl
  exact ⟨.answer rfl le_rfl moment, .send rfl (e.ack_answer_pos header body moment) hsend⟩

/-- **A frame that is there may be answered at once.** -/
lemma run_acked (hc : e.control = .looping) (hstop : e.server.stopping = false)
    (hroom : e.framePrefix.length = kFrameLengthBytes) {length : UInt32}
    (hd : decodeFrameLength header = .ok length) (hbody : body.length = length.toNat)
    (hne : body ≠ []) (moment : Moment) :
    ∃ h, Run Step e h (e.acked header body moment) ∧ h.map Prod.snd =
      [.serve, .read header, .serve, .read body, .answer,
        .send ((e.took header body).answer moment).server.ack] := by
  obtain ⟨e₁, e₂, e₃, h₁, h₂, h₃, h₄, -⟩ := steps_took hc hstop hroom hd hbody hne
  obtain ⟨h₅, h₆⟩ := steps_acked e header body moment
  exact ⟨_, .cons h₁ (.cons h₂ (.cons h₃ (.cons h₄ (.cons h₅ (.cons h₆ .nil))))), rfl⟩

/-- After the ack of a body that does not decode the server goes on. -/
lemma step_rejected {error : DecodeError} (he : decodeWakeMessage (F := F) body = .error error)
    (moment : Moment) :
    (e.acked header body moment).Step .serve
      { e.acked header body moment with control := .looping } :=
  .rejected (congrArg (Control.sending moment · _) he) (Nat.zero_add _).ge

/-- After the ack of a message the server fires the message. -/
lemma step_fired {message : WakeMessage F} (hm : decodeWakeMessage body = .ok message)
    (moment : Moment) :
    (e.acked header body moment).Step .serve ((e.acked header body moment).fire moment message) :=
  .fire (congrArg (Control.sending moment · _) hm) (Nat.zero_add _).ge

/-- One more frame was read and rejected. -/
lemma stats_rejected {error : DecodeError} (he : decodeWakeMessage (F := F) body = .error error)
    (e : Executor F ι) (moment : Moment) :
    (e.acked header body moment).server.stats =
      { e.server.stats with
        framesRead := e.server.stats.framesRead + 1
        acksRejected := e.server.stats.acksRejected + 1 } := by
  simp only [acked, answer, took, he]

/-- One more frame was read and accepted. -/
lemma stats_accepted {message : WakeMessage F} (hm : decodeWakeMessage body = .ok message)
    (e : Executor F ι) (moment : Moment) :
    (e.acked header body moment).server.stats =
      { e.server.stats with
        framesRead := e.server.stats.framesRead + 1
        acksAccepted := e.server.stats.acksAccepted + 1 } := by
  simp only [acked, answer, took, hm]

/-- **A frame that does not decode may be rejected at once**, and the server is then between two
frames again. -/
lemma run_rejected (hc : e.control = .looping) (hstop : e.server.stopping = false)
    (hroom : e.framePrefix.length = kFrameLengthBytes) {length : UInt32}
    (hd : decodeFrameLength header = .ok length) (hbody : body.length = length.toNat)
    (hne : body ≠ []) {error : DecodeError}
    (he : decodeWakeMessage (F := F) body = .error error) :
    ∃ h t, Run Step e h t ∧ t.control = .looping ∧ t.server.stopping = false ∧
      t.framePrefix.length = kFrameLengthBytes ∧ t.server.stats =
        { e.server.stats with
          framesRead := e.server.stats.framesRead + 1
          acksRejected := e.server.stats.acksRejected + 1 } := by
  obtain ⟨h, hr, -⟩ := run_acked hc hstop hroom hd hbody hne ⟨0, 0, 0, 0, ⟨0, ⟨false, false⟩⟩⟩
  exact ⟨_, _, hr.snoc (step_rejected he _), rfl, hstop, length_of_decode hd,
    stats_rejected he e _⟩

/-- **A message may be accepted and fired at once**, and the server is then between two frames
again. -/
lemma run_fired (hc : e.control = .looping) (hstop : e.server.stopping = false)
    (hroom : e.framePrefix.length = kFrameLengthBytes) {length : UInt32}
    (hd : decodeFrameLength header = .ok length) (hbody : body.length = length.toNat)
    (hne : body ≠ []) {message : WakeMessage F} (hm : decodeWakeMessage body = .ok message)
    (hdry : message.dryRun = true) :
    ∃ h t, Run Step e h t ∧ t.control = .looping ∧ t.server.stopping = false ∧
      t.framePrefix.length = kFrameLengthBytes ∧ t.server.stats =
        { e.server.stats with
          framesRead := e.server.stats.framesRead + 1
          acksAccepted := e.server.stats.acksAccepted + 1
          firesDispatched := e.server.stats.firesDispatched + 1 } := by
  obtain ⟨moment, -⟩ : ∃ m : Moment, m = ⟨0, 0, 0, 0, ⟨0, ⟨false, false⟩⟩⟩ := ⟨_, rfl⟩
  obtain ⟨h, hr, -⟩ := run_acked hc hstop hroom hd hbody hne moment
  have hframe := (e.acked header body moment).server.handleFire_frame moment.probe message
  have hstats := (e.acked header body moment).server.handleFire_stats moment.probe message
  have hdispatched :
      ((e.acked header body moment).server.handleFire moment.probe message).1 = .dispatched := by
    simp [ExecutorServer.handleFire, hdry]
  rw [hdispatched, stats_accepted hm] at hstats
  exact ⟨_, _, hr.snoc (step_fired hm moment), rfl, hframe.2.2.trans hstop, length_of_decode hd,
    hstats⟩

end Executor

end Hotpath
