import Hotpath.Bench.PollerClientServed
import Hotpath.Executor.Answering

set_option relaxedAutoImplicit false
set_option autoImplicit false

/-!
# The stages of a call

What a call of `send_wake` needs of a run, in three stages that go through without a cut or an
interruption: the client sends its frame, the server reads and answers it, the client reads the
ack. Other calls may come and fail between the stages.

## Main results

* `Hotpath.Exchange.reach_sent`, `Hotpath.Exchange.reach_answered`,
  `Hotpath.Exchange.reach_read`.
-/

namespace Hotpath

open System
open Utf8 (bytes)

variable {F ι : Type}

namespace Exchange

variable [Double F] [CharConv F] [DecidableEq ι]

/-- The server may answer a frame at once. It has then sent the ack, and what follows the ack is to
come. -/
lemma reach_acked {s : Exchange F ι} (hc : s.executor.control = .looping)
    (hstop : s.executor.server.stopping = false)
    (hroom : s.executor.framePrefix.length = kFrameLengthBytes) {header body : Bytes}
    {length : UInt32} (hd : decodeFrameLength header = .ok length)
    (hbody : body.length = length.toNat) (hne : body ≠ []) (rest : Bytes)
    (hin : s.toServer = header ++ body ++ rest) (moment : Moment) :
    ∃ h s', Run Step s h s' ∧ (∀ p ∈ h, p.2 = .internal) ∧ ∃ e, (∃ sent,
      e.control = .sending moment (decodeWakeMessage body) sent ∧ e.server.ack.length ≤ sent) ∧
      s' =
      { s with
        executor := e
        toServer := rest
        toClient := s.toClient ++ encodeWakeAckInto
          (ackFor (decodeWakeMessage (F := F) body) moment.startedAtMs) []
        answered := s.answered ++ [(header ++ body, encodeWakeAckInto
          (ackFor (decodeWakeMessage (F := F) body) moment.startedAtMs) [])] } := by
  rw [List.append_assoc] at hin
  obtain ⟨e₁, e₂, e₃, h₁, h₂, h₃, h₄, hplace₁, hplace₂, hplace₃⟩ :=
    Executor.steps_took hc hstop hroom hd hbody hne
  obtain ⟨h₅, h₆⟩ := Executor.steps_acked s.executor header body moment
  have hack := Executor.ack_answer s.executor header body moment
  have h₅' : Step { s with executor := s.executor.took header body, toServer := rest } .internal
      { s with
        executor := (s.executor.took header body).answer moment
        toServer := rest
        answered := s.answered ++ [(header ++ body,
          ((s.executor.took header body).answer moment).server.ack)] } :=
    .serverAnswer (.inr (.inl rfl)) h₅
  rw [hack] at h₅' h₆
  refine ⟨_, _, Run.cons (.server (.inl (congrArg Control.place hc)) h₁)
    (Run.cons (.serverRead (.inr (.inl hplace₁)) h₂ hin)
      (Run.cons (.server (.inr (.inl hplace₂)) h₃)
        (Run.cons (.serverRead (.inr (.inl hplace₃)) h₄ rfl)
          (Run.cons h₅' (Run.cons (.serverSend (.inr (.inr rfl)) h₆) Run.nil))))), ?_, _,
    ⟨_, rfl, (Nat.zero_add _).ge⟩, rfl⟩
  simp

/-- The server may answer a frame at once. -/
lemma reach_answered {s : Exchange F ι} (hc : s.executor.control = .looping)
    (hstop : s.executor.server.stopping = false)
    (hroom : s.executor.framePrefix.length = kFrameLengthBytes) {header body : Bytes}
    {length : UInt32} (hd : decodeFrameLength header = .ok length)
    (hbody : body.length = length.toNat) (hne : body ≠ []) (rest : Bytes)
    (hin : s.toServer = header ++ body ++ rest) (moment : Moment) :
    ∃ h s', Run Step s h s' ∧ (∀ p ∈ h, p.2 = .internal) ∧ ∃ e, s' =
      { s with
        executor := e
        toServer := rest
        toClient := s.toClient ++ encodeWakeAckInto
          (ackFor (decodeWakeMessage (F := F) body) moment.startedAtMs) []
        answered := s.answered ++ [(header ++ body, encodeWakeAckInto
          (ackFor (decodeWakeMessage (F := F) body) moment.startedAtMs) [])] } := by
  obtain ⟨h, s', hr, hlabels, e, -, hs⟩ :=
    reach_acked hc hstop hroom hd hbody hne rest hin moment
  exact ⟨h, s', hr, hlabels, e, hs⟩

/-- A call may send its frame at once. -/
lemma reach_sent {s : Exchange F ι} (hc : s.client.control = .idle)
    (hfd : s.client.connected = true) (message : WakeMessage F) {frame : Bytes}
    (hframe : encodeWakeMessageInto message [] = frame) :
    ∃ h s', Run Step s h s' ∧ (∀ p ∈ h, p.2 = .called message ∨ p.2 = .internal) ∧ s' =
      { s with
        client := { s.client with
          frame := frame
          framePrefix := List.replicate kFrameLengthBytes 0
          control := .reading .framePrefix 0 }
        toServer := s.toServer ++ frame
        written := s.written ++ frame
        writtenBefore := s.written
        consumedBefore := s.consumed } := by
  have hframe' : encodeWakeMessageInto message s.client.frame = frame := by
    rw [← hframe, encodeWakeMessageInto_eq, encodeWakeMessageInto_eq]
  have hpos : 0 < frame.length := by
    rw [← hframe, encodeWakeMessageInto_eq]
    simp [writeLengthPrefix]
  have hcall := Step.call hc hfd message
  rw [hframe'] at hcall
  have hsend := Step.send (F := F) (s := { s with
    client := { s.client with frame := frame, control := .sending 0 }
    writtenBefore := s.written
    consumedBefore := s.consumed }) rfl hpos frame.length (Nat.zero_add _).le
  simp only [List.drop_zero, List.take_length, Nat.zero_add] at hsend
  refine ⟨_, _, Run.cons hcall (Run.cons hsend (Run.cons (.sent rfl le_rfl) Run.nil)), ?_, rfl⟩
  simp

/-- A call that has sent its frame may read an ack that is in flight. -/
lemma reach_read {s : Exchange F ι} (hc : s.client.control = .reading .framePrefix 0)
    (hroom : s.client.framePrefix.length = kFrameLengthBytes) {header body : Bytes}
    {length : UInt32} (hd : decodeFrameLength header = .ok length)
    (hbody : body.length = length.toNat) (hne : body ≠ []) (rest : Bytes)
    (hin : s.toClient = header ++ body ++ rest) :
    ∃ h s', Run Step s h s' ∧ (∀ p ∈ h, p.2 = .internal) ∧ s' =
      { s with
        client := { s.client with
          framePrefix := header
          body := body
          control := .reading .body body.length }
        toClient := rest
        consumed := s.consumed ++ (header ++ body) } := by
  obtain ⟨hheader, -⟩ := isFrame_of_decode hd hbody
  have hheaderNe : header ≠ [] := by
    rintro rfl
    cases hheader
  rw [List.append_assoc] at hin
  have hread := Step.read hc hheaderNe
    (by rw [Nat.zero_add]; exact (hheader.trans hroom.symm).le) hin
  simp only [PollerClient.fill, PollerClient.buffer, fill_all (hroom.trans hheader.symm)] at hread
  have hlength := Step.length (F := F) (s := { s with
    client := { s.client with
      framePrefix := header
      control := .reading .framePrefix (0 + header.length) }
    toClient := body ++ rest
    consumed := s.consumed ++ header }) rfl (Nat.zero_add _).ge hd
  have hlen : (resize s.client.body length.toNat).length = body.length :=
    (length_resize _ _).trans hbody.symm
  have hread' := Step.read (F := F) (s := { s with
    client := { s.client with
      framePrefix := header
      body := resize s.client.body length.toNat
      control := .reading .body 0 }
    toClient := body ++ rest
    consumed := s.consumed ++ header }) rfl hne ((Nat.zero_add _).trans hlen.symm).le rfl
  simp only [PollerClient.fill, PollerClient.buffer, fill_all hlen] at hread'
  rw [List.append_assoc, Nat.zero_add] at hread'
  refine ⟨_, _, Run.cons hread (Run.cons hlength (Run.cons hread' Run.nil)), ?_, rfl⟩
  simp

end Exchange

/-! ## A first message -/

/-- The ack of the first message. -/
def firstAck : WakeAck := ackFor (.ok firstWake) 0

/-- The first ack is read back from its body. -/
lemma decode_firstAck : decodeWakeAck (firstAck.body SignedZero) = .ok firstAck :=
  decodeWakeAck_body SignedZero ⟨Utf8.valid_of_ascii (by decide), by rintro _ ⟨⟩⟩

/-- A server that listens may accept a connection. -/
lemma reach_accepted : ∃ (h : List (Executor SignedZero Unit × ServerAction Unit))
    (e : Executor SignedZero Unit),
    Run Executor.Step (Executor.new (ExecutorServer.new none true true) ⟨3, 4, 5⟩) h e ∧
      e.control = .looping ∧ e.server.stopping = false ∧
      e.framePrefix.length = kFrameLengthBytes :=
  ⟨_, _, Run.cons (.start rfl) (Run.cons (.poll rfl true) (Run.cons (.polled rfl)
    (Run.cons (.accept rfl 7) (Run.cons (.publish rfl rfl) Run.nil)))), rfl, rfl, rfl⟩

end Hotpath
