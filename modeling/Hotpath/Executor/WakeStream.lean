import Hotpath.Executor.AckSize
import Hotpath.Executor.ConnectionSpec

set_option relaxedAutoImplicit false
set_option autoImplicit false

/-!
# A stream of wakes

What a client encodes arrives: a peer that sends the frames of some messages, one after the other
and perhaps a part of one more, has every message recorded and fired, in order and once, and gets
back the frames of as many acks, each of which decodes to the acceptance of its message, and no
byte besides. Encoders,
framing, decoders and the read loop are put together here.

## Main definitions

* `Hotpath.wakeFrames`, `Hotpath.ackFrames` — the frames of some messages, and of some acks.
* `Hotpath.Cut` — a frame that has not come whole.
* `Hotpath.Event.byte?`, `Event.recorded?`, `Event.fired?` — what the events of a connection tell
  the peer, the telemetry and the executor.

## Main results

* `Hotpath.serveConnection_wakes` — the messages, their records, their fires and their acks.
-/

namespace Hotpath

variable {F : Type}

/-! ## Frames in a stream -/

/-- A frame that has not come whole: nothing of it, or a proper part. -/
def Cut (cut : Bytes) : Prop :=
  cut = [] ∨ ∃ body : Bytes, body.length ≤ kMaxFrameBytes ∧
    cut <+: writeLengthPrefix (List.replicate kFrameLengthBytes 0 ++ body) ∧
    cut.length < kFrameLengthBytes + body.length

/-- A frame that has not come whole is none. -/
lemma Cut.completeFrames_eq {cut : Bytes} (h : Cut cut) : completeFrames cut = [] := by
  have hfour : 0 < kFrameLengthBytes := by decide
  rcases h with rfl | ⟨body, hlen, hcut, hshort⟩
  · exact completeFrames_eq_nil (Or.inl (by simp only [List.length_nil]; omega))
  · obtain ⟨header, hframe, hheader, hval⟩ := prefixValue_header hlen
    rw [hframe] at hcut
    refine completeFrames_eq_nil (Or.inl ?_)
    rcases Nat.lt_or_ge cut.length kFrameLengthBytes with hlt | hge
    · omega
    · have htake : cut.take kFrameLengthBytes = header := by
        obtain ⟨t, ht⟩ := hcut
        have h := congrArg (List.take kFrameLengthBytes) ht
        rwa [List.take_append_of_le_length hge, ← hheader, List.take_left, hheader] at h
      rw [htake, hval]
      exact hshort

/-- The frames of some messages, one after the other. -/
def wakeFrames [CharConv F] (messages : List (WakeMessage F)) : Bytes :=
  (messages.map fun m => encodeWakeMessageInto m []).flatten

/-- The messages' bodies are the complete frames. -/
private lemma completeFrames_wakeFrames [CharConv F] {messages : List (WakeMessage F)}
    (hm : ∀ m ∈ messages, m.body.length ≤ kMaxFrameBytes) {cut : Bytes} (hcut : Cut cut) :
    completeFrames (wakeFrames messages ++ cut) = messages.map WakeMessage.body := by
  induction messages with
  | nil => simpa [wakeFrames] using hcut.completeFrames_eq
  | cons m messages ih =>
    have hrest := ih fun m' hm' => hm m' (List.mem_cons_of_mem m hm')
    unfold wakeFrames at hrest ⊢
    rw [List.map_cons, List.flatten_cons, List.append_assoc, encodeWakeMessageInto_eq,
      completeFrames_append (hm m (by simp)), hrest]
    rfl

/-! ## What the events tell -/

/-- The byte that reaches the peer. -/
def Event.byte? : Event F → Option UInt8
  | .sent byte => some byte
  | _ => none

/-- The event that is recorded. -/
def Event.recorded? : Event F → Option (WakeRecvEvent F)
  | .recordWakeRecv event => some event
  | _ => none

/-- The message that is fired. -/
def Event.fired? : Event F → Option (WakeMessage F)
  | .handleFire message => some message
  | _ => none

/-- What is read off a trace piece by piece. -/
private lemma filterMap_flatten_mapIdx {α β γ : Type} {f : β → Option γ} {l : List α}
    {pieces : ℕ → α → List β} {g : ℕ → α → List γ}
    (h : ∀ j a, (pieces j a).filterMap f = g j a) :
    ((l.mapIdx pieces).flatten).filterMap f = (l.mapIdx g).flatten := by
  induction l generalizing pieces g with
  | nil => rfl
  | cons a l ih =>
    rw [List.mapIdx_cons, List.flatten_cons, List.filterMap_append, h, List.mapIdx_cons,
      List.flatten_cons, ih fun j => h (j + 1)]

/-- Pieces of one element each. -/
private lemma flatten_mapIdx_singleton {α β : Type} (g : ℕ → α → β) (l : List α) :
    (l.mapIdx fun j a => [g j a]).flatten = l.mapIdx g := by
  induction l generalizing g with
  | nil => rfl
  | cons a l ih =>
    rw [List.mapIdx_cons, List.flatten_cons, ih fun j => g (j + 1), List.mapIdx_cons]
    rfl

/-- What dispatches tell nothing of can be read off the events of the connection. -/
private lemma filterMap_ofConnection {β : Type} {f : Event F → Option β}
    (hf : ∀ request, f (.dispatch request) = none) (trace : List (Event F)) :
    (trace.filter Event.ofConnection).filterMap f = trace.filterMap f := by
  rw [List.filterMap_filter]
  congr 1
  funext event
  cases event <;> simp [Event.ofConnection, hf]

variable [Double F] [CharConv F]

/-- What is expected for the bodies of messages that are all taken: for each its ack, its record
and its fire. -/
private lemma expectedTrace_wakes (records : Bool) (moments : ℕ → Moment) (i : ℕ)
    {messages : List (WakeMessage F)} (hm : ∀ m ∈ messages, m.Encodable) :
    expectedTrace records moments i none (messages.map WakeMessage.body) =
      (messages.mapIdx fun j m =>
        (encodeWakeAckInto (ackFor (.ok m) (moments (i + j)).startedAtMs) []).map Event.sent ++
          ((if records then [Event.recordWakeRecv (wakeRecvEvent (moments (i + j)) m)] else []) ++
            [Event.handleFire m])).flatten := by
  induction messages generalizing i with
  | nil => rfl
  | cons m messages ih =>
    have hdecode := decodeWakeMessage_body (hm m (by simp))
    have hrest := ih (i + 1) fun m' hm' => hm m' (List.mem_cons_of_mem m hm')
    have hindex : ∀ j, i + 1 + j = i + (j + 1) := fun j => by omega
    simp only [hindex] at hrest
    rw [List.map_cons, expectedTrace, if_pos (by simp [Fits]), Option.map_none, hrest,
      List.mapIdx_cons, List.flatten_cons]
    simp only [ackFrame, callsFor, hdecode, Nat.add_zero, List.append_assoc]

/-- The acks of the messages. -/
def acceptedAcks (moments : ℕ → Moment) (messages : List (WakeMessage F)) : List WakeAck :=
  messages.mapIdx fun j m => ackFor (.ok m) (moments j).startedAtMs

/-- The frames of some acks, one after the other. -/
def ackFrames (acks : List WakeAck) : Bytes :=
  (acks.map fun ack => encodeWakeAckInto ack []).flatten

/-- The bodies of the acceptances are the complete frames of the bytes, and decode to them. -/
private lemma acks_received (moments : ℕ → Moment) {messages : List (WakeMessage F)}
    (hm : ∀ m ∈ messages, m.Encodable ∧ m.body.length ≤ kMaxFrameBytes) :
    (completeFrames (ackFrames (acceptedAcks moments messages))).map decodeWakeAck =
      (acceptedAcks moments messages).map .ok := by
  unfold acceptedAcks ackFrames
  induction messages generalizing moments with
  | nil => simp [Cut.completeFrames_eq (Or.inl rfl)]
  | cons m messages ih =>
    obtain ⟨hencodable, hlen⟩ := hm m (by simp)
    have hdecode := decodeWakeMessage_body hencodable
    have hshort := accepted_lt_body hdecode (moments 0).startedAtMs
    have hack := encodable_ackFor (F := F) m.body (moments 0).startedAtMs
    rw [hdecode] at hack
    have hrest := ih (fun j => moments (j + 1))
      fun m' hm' => hm m' (List.mem_cons_of_mem m hm')
    rw [List.mapIdx_cons, List.map_cons, List.flatten_cons, encodeWakeAckInto_eq F,
      completeFrames_append (by omega), List.map_cons, hrest, decodeWakeAck_body F hack,
      List.map_cons]

/-- **A stream of encoded wakes is served one to one.** Let the peer send the frames of some
encodable messages of at most the cap, one after the other, and perhaps a part of one more, and
take all it is sent. However the system calls cut both directions and whatever the buffers of the
server hold, serving the connection ends; the fired messages are then those messages, in order,
each recorded with its own times if records are configured, the bytes the peer got are the frames
of the acceptances of the messages and nothing else, and they decode to these.

**Proof sketch.** The bodies of the messages are the complete frames of the stream, and each
decodes to its message; the trace of the connection is then the expected one of the bodies. An
accepted ack is shorter than the body it answers, so that its frame is within the cap too and is
cut off the bytes whole. -/
theorem serveConnection_wakes (moments : ℕ → Moment) (server : ExecutorServer)
    (connection : Connection) (hstop : server.stopping = false)
    {messages : List (WakeMessage F)} {cut : Bytes}
    (hm : ∀ m ∈ messages, m.Encodable ∧ m.body.length ≤ kMaxFrameBytes) (hcut : Cut cut)
    (hin : connection.incoming = wakeFrames messages ++ cut) (hroom : connection.room = none) :
    ∃ s : Serving F, serveConnection moments server connection = some s ∧
      s.trace.filterMap Event.fired? = messages ∧
      s.trace.filterMap Event.recorded? = (if server.recordWakeRecv then
        messages.mapIdx fun j m => wakeRecvEvent (moments j) m else []) ∧
      s.trace.filterMap Event.byte? = ackFrames (acceptedAcks moments messages) ∧
      (completeFrames (s.trace.filterMap Event.byte?)).map decodeWakeAck =
        (acceptedAcks moments messages).map .ok := by
  obtain ⟨s, hs, htrace⟩ := serveConnection_spec (F := F) moments server connection hstop
  rw [hin, hroom, completeFrames_wakeFrames (fun m hm' => (hm m hm').2) hcut,
    expectedTrace_wakes _ _ _ fun m hm' => (hm m hm').1] at htrace
  simp only [Nat.zero_add] at htrace
  have hbytes : s.trace.filterMap Event.byte? = ackFrames (acceptedAcks moments messages) := by
    rw [← filterMap_ofConnection (fun _ => rfl), htrace, filterMap_flatten_mapIdx (g := fun j m =>
      encodeWakeAckInto (ackFor (.ok m) (moments j).startedAtMs) [])]
    · refine congrArg List.flatten (List.mapIdx_eq_iff.mpr fun i => ?_)
      rw [acceptedAcks, List.getElem?_map, List.getElem?_mapIdx, Option.map_map]
      rfl
    · intro j m
      have hsent : ∀ sent : Bytes,
          (sent.map (Event.sent (F := F))).filterMap Event.byte? = sent := by
        intro sent
        rw [List.filterMap_map]
        exact List.filterMap_some
      rw [List.filterMap_append, hsent]
      cases server.recordWakeRecv <;> simp [List.filterMap_cons, Event.byte?]
  refine ⟨s, hs, ?_, ?_, hbytes, ?_⟩
  · rw [← filterMap_ofConnection (fun _ => rfl), htrace,
      filterMap_flatten_mapIdx (g := fun _ m => [m]), flatten_mapIdx_singleton]
    · exact List.mapIdx_eq_iff.mpr fun i => by simp
    · intro j m
      cases server.recordWakeRecv <;> simp [List.filterMap_cons, Event.fired?, List.filterMap_map]
  · rw [← filterMap_ofConnection (fun _ => rfl), htrace]
    cases server.recordWakeRecv with
    | false =>
      rw [filterMap_flatten_mapIdx (g := fun _ _ => [])]
      · simp
      · intro j m
        simp [Event.recorded?, List.filterMap_map]
    | true =>
      rw [filterMap_flatten_mapIdx (g := fun j m => [wakeRecvEvent (moments j) m]),
        flatten_mapIdx_singleton]
      · rfl
      · intro j m
        simp [List.filterMap_cons, Event.recorded?, List.filterMap_map]
  · rw [hbytes]
    exact acks_received moments hm

/-- Two messages of zeros and the first byte of a third, in pieces. -/
theorem serveConnection_wakes_two :
    ∃ (messages : List (WakeMessage SignedZero)) (s : Serving SignedZero),
      messages.map WakeMessage.correlationId = [[0x61], [0x62]] ∧
      serveConnection (fun _ => ⟨7, 0, 0, 7, ⟨0, ⟨false, false⟩⟩⟩)
        (ExecutorServer.new none false true)
        { incoming := wakeFrames messages ++ [0]
          reset := false
          reads := [.upTo 2, .interrupted]
          writes := [.interrupted, .upTo 5]
          room := none } = some s ∧
      s.trace.filterMap Event.fired? = messages ∧
      s.trace.filterMap Event.byte? = ackFrames
        [⟨kSchemaVersion, [0x61], 7, .accepted, none⟩,
          ⟨kSchemaVersion, [0x62], 7, .accepted, none⟩] := by
  have hm : ∀ m ∈ [wake [0x61], wake [0x62]],
      m.Encodable ∧ m.body.length ≤ kMaxFrameBytes := by
    simp only [List.mem_cons, List.not_mem_nil, or_false]
    rintro m (rfl | rfl)
    · exact ⟨encodable_wake (Utf8.valid_of_ascii (by decide)), by decide +kernel⟩
    · exact ⟨encodable_wake (Utf8.valid_of_ascii (by decide)), by decide +kernel⟩
  have hcut : Cut [0] := Or.inr ⟨[], by decide, ⟨[0, 0, 0], by decide⟩, by decide⟩
  obtain ⟨s, hs, hfired, -, hbytes, -⟩ := serveConnection_wakes
    (fun _ => ⟨7, 0, 0, 7, ⟨0, ⟨false, false⟩⟩⟩) (ExecutorServer.new none false true)
    { incoming := wakeFrames [wake [0x61], wake [0x62]] ++ [0]
      reset := false
      reads := [.upTo 2, .interrupted]
      writes := [.interrupted, .upTo 5]
      room := none } rfl hm hcut rfl rfl
  exact ⟨_, s, rfl, hs, hfired, hbytes⟩

end Hotpath
