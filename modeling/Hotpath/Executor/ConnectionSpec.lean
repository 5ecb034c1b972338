import Hotpath.Executor.Connection

set_option relaxedAutoImplicit false
set_option autoImplicit false

/-!
# What a connection does

However the system calls cut the two directions of a connection, and whatever the buffers held
before, what happens in its course is a function of the peer's byte stream: for each complete
frame, in order, its ack, and for each that decodes a record and a fire.

## Main definitions

* `Hotpath.completeFrames` — the bodies of the complete frames of a stream.
* `Hotpath.expectedTrace` — what happens, as a function of those.

## Main results

* `Hotpath.readExactly_spec`, `Hotpath.sendFrame_spec` — the two loops over partial transfers.
* `Hotpath.completeFrames_append` — a frame is cut off the stream whole.
* `Hotpath.serveConnection_spec` — the connection's trace is the expected one.
-/

namespace Hotpath

open Loop

variable {F : Type}

/-! ## Reading a whole buffer -/

/-- A `read` that is due some bytes: it is interrupted and has one more entry behind it, or
moves some of them, or finds the peer's side at its end. -/
lemma Connection.read_cases (c : Connection) {count : ℕ} (hcount : 0 < count) :
    (∃ reads, reads.length + 1 = c.reads.length ∧
      c.read count = (.interrupted, [], { c with reads := reads })) ∨
    (∃ n reads, 0 < n ∧ n ≤ count ∧ n ≤ c.incoming.length ∧ reads.length ≤ c.reads.length ∧
      c.read count = (.count n, c.incoming.take n,
        { c with incoming := c.incoming.drop n, reads := reads })) ∨
    (c.incoming = [] ∧ ∃ result reads, (result = .count 0 ∨ result = .failed) ∧
      c.read count = (result, [], { c with reads := reads })) := by
  have hreceive : ∀ (reads : List Transfer) (n : ℕ), reads.length ≤ c.reads.length → 0 < n →
      n ≤ count → c.read count = { c with reads := reads }.receive n →
      (∃ n reads, 0 < n ∧ n ≤ count ∧ n ≤ c.incoming.length ∧ reads.length ≤ c.reads.length ∧
        c.read count = (.count n, c.incoming.take n,
          { c with incoming := c.incoming.drop n, reads := reads })) ∨
      (c.incoming = [] ∧ ∃ result reads, (result = .count 0 ∨ result = .failed) ∧
        c.read count = (result, [], { c with reads := reads })) := by
    intro reads n hreads hn hle heq
    by_cases hnil : c.incoming = []
    · right
      refine ⟨hnil, _, reads, ?_, by rw [heq, receive, if_pos hnil]⟩
      cases c.reset <;> simp
    · left
      have hpos := List.length_pos_iff.mpr hnil
      refine ⟨min n c.incoming.length, reads, by omega, by omega, by omega, hreads, ?_⟩
      rw [heq, receive, if_neg hnil]
      rcases Nat.le_total n c.incoming.length with h | h
      · rw [Nat.min_eq_left h, List.length_take, Nat.min_eq_left h]
      · rw [Nat.min_eq_right h, List.take_of_length_le h, List.drop_of_length_le h]
        simp
  obtain hr | ⟨t, reads, hr⟩ : c.reads = [] ∨ ∃ t reads, c.reads = t :: reads := by
    cases c.reads <;> simp
  · right
    exact hreceive c.reads count le_rfl hcount le_rfl
      (show c.read count = c.receive count by rw [read, hr])
  · cases t with
    | interrupted => exact Or.inl ⟨reads, by simp [hr], by rw [read, hr]⟩
    | upTo more =>
      right
      exact hreceive reads (min (more + 1) count) (by simp [hr]) (by omega) (by omega)
        (by rw [read, hr])

/-- The buffer of `read_exactly` is filled up to a point with the next bytes of the stream. -/
private def Filled (c : Connection) (n : ℕ) (s : ℕ × Bytes × Connection) : Prop :=
  s.1 ≤ n ∧ s.1 ≤ c.incoming.length ∧ s.2.1.length = n ∧ s.2.1.take s.1 = c.incoming.take s.1 ∧
    ∃ reads, s.2.2 = { c with incoming := c.incoming.drop s.1, reads := reads }

/-- `read_exactly` returns the next bytes of the stream if there are enough. -/
private def FillResult (c : Connection) (n : ℕ) (a : ReadResult × Bytes × Connection) : Prop :=
  (n ≤ c.incoming.length → a.1 = .ok ∧ a.2.1 = c.incoming.take n ∧
    ∃ reads, a.2.2 = { c with incoming := c.incoming.drop n, reads := reads }) ∧
  (c.incoming.length < n → a.1 ≠ .ok)

/-- One iteration fills more of the buffer or uses up an entry of the script, or returns. -/
private lemma readBody_step {c : Connection} {n : ℕ} (s : ℕ × Bytes × Connection)
    (hs : Filled c n s) :
    (∃ a, readBody n false s = .done a ∧ FillResult c n a) ∨
    ∃ s', readBody n false s = .more s' ∧ Filled c n s' ∧
      s'.2.2.incoming.length + s'.2.2.reads.length <
        s.2.2.incoming.length + s.2.2.reads.length := by
  obtain ⟨filled, out, c'⟩ := s
  obtain ⟨hle, hle', hlen, htake, reads, hc'⟩ := hs
  simp only at hle hle' hlen htake hc'
  subst hc'
  by_cases hlt : filled < n
  · have hcount : 0 < n - filled := by omega
    rcases Connection.read_cases { c with incoming := c.incoming.drop filled, reads := reads }
      hcount with ⟨reads', hreads', hread⟩ | ⟨k, reads', hk, hk', hk'', hreads', hread⟩ |
        ⟨hnil, result, reads', hresult, hread⟩
    · right
      refine ⟨(filled, out, { c with incoming := c.incoming.drop filled, reads := reads' }), ?_,
        ⟨hle, hle', hlen, htake, reads', rfl⟩, ?_⟩
      · simp [readBody, hlt, hread]
      · simp only at hreads' ⊢
        omega
    · right
      obtain ⟨m, rfl⟩ : ∃ m, k = m + 1 := ⟨k - 1, by omega⟩
      simp only [List.length_drop] at hk''
      refine ⟨(filled + (m + 1),
        out.take filled ++ (c.incoming.drop filled).take (m + 1) ++ out.drop (filled + (m + 1)),
        { c with incoming := (c.incoming.drop filled).drop (m + 1), reads := reads' }),
        by simp [readBody, hlt, hread], ⟨?_, ?_, ?_, ?_, reads', ?_⟩, ?_⟩
      · simp only
        omega
      · simp only
        omega
      · simp only [List.length_append, List.length_take, List.length_drop, hlen]
        omega
      · have hnew : out.take filled ++ (c.incoming.drop filled).take (m + 1) =
            c.incoming.take (filled + (m + 1)) := by
          rw [htake]
          exact List.take_add.symm
        have hnewlen : (c.incoming.take (filled + (m + 1))).length = filled + (m + 1) := by
          rw [List.length_take]
          omega
        simp only
        rw [hnew, List.take_append_of_le_length hnewlen.ge, List.take_of_length_le hnewlen.le]
      · simp only [List.drop_drop]
      · simp only [List.length_drop] at hreads' ⊢
        omega
    · left
      have hshort : ¬ n ≤ c.incoming.length := by
        have := List.drop_eq_nil_iff.mp hnil
        omega
      obtain ⟨c', hc'⟩ : ∃ c', c' =
          { c with incoming := c.incoming.drop filled, reads := reads' } := ⟨_, rfl⟩
      rcases hresult with rfl | rfl
      · refine ⟨(if filled = 0 then .peerClosed else .failed, out, c'), ?_,
          fun h => absurd h hshort, fun _ => ?_⟩
        · simp [readBody, hlt, hread, hc']
        · simp only
          split_ifs <;> simp
      · refine ⟨(.failed, out, c'), ?_, fun h => absurd h hshort, fun _ => by simp⟩
        simp [readBody, hlt, hread, hc']
  · left
    obtain rfl : filled = n := by omega
    refine ⟨(.ok, out, { c with incoming := c.incoming.drop filled, reads := reads }),
      by simp [readBody], fun _ => ⟨rfl, ?_, reads, rfl⟩, fun h => ?_⟩
    · rw [← htake, ← hlen, List.take_length]
    · omega

/-- **`read_exactly` takes the next bytes of the stream**, if there are enough, whatever its
buffer held; otherwise it reports that it did not.

**Proof sketch.** The filled part of the buffer is always the part taken from the stream; each
call takes one byte or uses up an entry of its script. -/
theorem readExactly_spec (c : Connection) (out : Bytes) :
    ∃ result out' c', readExactly c out false = some (result, out', c') ∧
      (out.length ≤ c.incoming.length → result = .ok ∧ out' = c.incoming.take out.length ∧
        ∃ reads, c' = { c with incoming := c.incoming.drop out.length, reads := reads }) ∧
      (c.incoming.length < out.length → result ≠ .ok) := by
  have hstart : Filled c out.length (0, out, c) :=
    ⟨by simp, by simp, rfl, by simp, c.reads, by simp⟩
  obtain ⟨⟨result, out', c'⟩, hrun, hQ⟩ := run_of_cases
    (fun s : ℕ × Bytes × Connection => s.2.2.incoming.length + s.2.2.reads.length)
    readBody_step hstart (Nat.lt_succ_self _)
  exact ⟨result, out', c', hrun, hQ⟩

/-! ## Sending a whole frame -/

/-- The peer takes `n` more bytes. -/
def Fits (room : Option ℕ) (n : ℕ) : Prop := ∀ r ∈ room, n ≤ r

/-- Whether something fits is decided by its size. -/
instance (room : Option ℕ) (n : ℕ) : Decidable (Fits room n) := by
  unfold Fits
  infer_instance

/-- A `send` of some bytes: it is interrupted and has one more entry behind it, or moves some of
them, or the peer takes no more. -/
lemma Connection.send_cases (c : Connection) {bytes : Bytes} (hne : bytes ≠ []) :
    (∃ writes, writes.length + 1 = c.writes.length ∧
      c.send bytes = (.interrupted, [], { c with writes := writes })) ∨
    (∃ n writes, 0 < n ∧ n ≤ bytes.length ∧ Fits c.room n ∧ writes.length ≤ c.writes.length ∧
      c.send bytes = (.count n, bytes.take n,
        { c with writes := writes, room := c.room.map (· - n) })) ∨
    (c.room = some 0 ∧ ∃ writes, c.send bytes = (.failed, [], { c with writes := writes })) := by
  have hpos := List.length_pos_iff.mpr hne
  have htransmit : ∀ (writes : List Transfer) (k : ℕ), writes.length ≤ c.writes.length → 0 < k →
      c.send bytes = { c with writes := writes }.transmit (bytes.take k) →
      (∃ n writes, 0 < n ∧ n ≤ bytes.length ∧ Fits c.room n ∧ writes.length ≤ c.writes.length ∧
        c.send bytes = (.count n, bytes.take n,
          { c with writes := writes, room := c.room.map (· - n) })) ∨
      (c.room = some 0 ∧ ∃ writes, c.send bytes = (.failed, [], { c with writes := writes })) := by
    intro writes k hwrites hk heq
    rw [transmit] at heq
    rcases hroom : c.room with _ | _ | room
    · left
      refine ⟨min k bytes.length, writes, by omega, by omega, by simp [Fits], hwrites, ?_⟩
      simp only [hroom] at heq
      rw [heq, List.length_take, List.take_eq_take_iff.mpr
        (show min (min k bytes.length) bytes.length = min k bytes.length by omega)]
      simp
    · right
      simp only [hroom] at heq
      exact ⟨rfl, writes, heq⟩
    · left
      refine ⟨min (room + 1) (min k bytes.length), writes, by omega, by omega, ?_, hwrites, ?_⟩
      · intro r hr
        obtain rfl : room + 1 = r := by simpa using hr
        exact Nat.min_le_left _ _
      · simp only [hroom] at heq
        rw [heq, List.length_take, List.length_take, List.take_take, List.take_eq_take_iff.mpr
          (show min (min (room + 1) (min k bytes.length)) bytes.length =
            min (min (room + 1) k) bytes.length by omega)]
        simp
  obtain hw | ⟨t, writes, hw⟩ : c.writes = [] ∨ ∃ t writes, c.writes = t :: writes := by
    cases c.writes <;> simp
  · right
    refine htransmit c.writes bytes.length le_rfl hpos ?_
    rw [List.take_length]
    exact show c.send bytes = c.transmit bytes by rw [send, hw]
  · cases t with
    | interrupted => exact Or.inl ⟨writes, by simp [hw], by rw [send, hw]⟩
    | upTo more =>
      right
      exact htransmit writes (more + 1) (by simp [hw]) (by omega) (by rw [send, hw])

/-- The peer got the beginning of the frame. -/
private def Sent (c : Connection) (frame : Bytes) (s : ℕ × Bytes × Connection) : Prop :=
  s.1 ≤ frame.length ∧ s.2.1 = frame.take s.1 ∧ Fits c.room s.1 ∧
    ∃ writes, s.2.2 = { c with writes := writes, room := c.room.map (· - s.1) }

/-- The peer got the frame if it takes as much, and what it takes of it otherwise. -/
private def SendResult (c : Connection) (frame : Bytes) (a : Bool × Bytes × Connection) : Prop :=
  (Fits c.room frame.length → a.1 = true ∧ a.2.1 = frame ∧
    ∃ writes, a.2.2 = { c with writes := writes, room := c.room.map (· - frame.length) }) ∧
  (¬ Fits c.room frame.length → a.1 = false ∧ a.2.1 = frame.take (c.room.getD 0))

/-- One iteration sends more of the frame or uses up an entry of the script, or returns. -/
private lemma sendBody_step {c : Connection} {frame : Bytes} (s : ℕ × Bytes × Connection)
    (hs : Sent c frame s) :
    (∃ a, sendBody frame false s = .done a ∧ SendResult c frame a) ∨
    ∃ s', sendBody frame false s = .more s' ∧ Sent c frame s' ∧
      (frame.length - s'.1) + s'.2.2.writes.length <
        (frame.length - s.1) + s.2.2.writes.length := by
  obtain ⟨sent, got, c'⟩ := s
  obtain ⟨hle, hgot, hfits, writes, hc'⟩ := hs
  simp only at hle hgot hfits hc'
  subst hgot hc'
  by_cases hlt : sent < frame.length
  · have hne : frame.drop sent ≠ [] := by
      intro h
      have := List.drop_eq_nil_iff.mp h
      omega
    rcases Connection.send_cases { c with writes := writes, room := c.room.map (· - sent) } hne
      with ⟨writes', hwrites', hsend⟩ | ⟨n, writes', hn, hn', hfits', hwrites', hsend⟩ |
        ⟨hroom, writes', hsend⟩
    · right
      refine ⟨(sent, frame.take sent,
        { c with writes := writes', room := c.room.map (· - sent) }),
        by simp [sendBody, hlt, hsend], ⟨hle, rfl, hfits, writes', rfl⟩, ?_⟩
      simp only at hwrites' ⊢
      omega
    · right
      rw [List.length_drop] at hn'
      refine ⟨(sent + n, frame.take sent ++ (frame.drop sent).take n,
        { c with writes := writes', room := (c.room.map (· - sent)).map (· - n) }),
        by simp [sendBody, hlt, hsend], ⟨by simp only; omega, List.take_add.symm, ?_, writes', ?_⟩,
        ?_⟩
      · intro r hr
        have h1 := hfits r hr
        have h2 := hfits' (r - sent) (by simp only [Option.mem_def] at hr ⊢; simp [hr])
        simp only
        omega
      · simp only [Option.map_map]
        congr 2
        funext r
        simp only [Function.comp_apply]
        omega
      · simp only at hwrites' ⊢
        omega
    · left
      refine ⟨(false, frame.take sent,
        { c with writes := writes', room := c.room.map (· - sent) }),
        by simp [sendBody, hlt, hsend], ?_⟩
      obtain ⟨r, hr, hrs⟩ := Option.map_eq_some_iff.mp hroom
      have hrle := hfits r (by simp [hr])
      obtain rfl : r = sent := by omega
      refine ⟨fun h => ?_, fun _ => ⟨rfl, by simp [hr]⟩⟩
      have := h r (by simp [hr])
      omega
  · left
    obtain rfl : sent = frame.length := by omega
    refine ⟨(true, frame, { c with writes := writes, room := c.room.map (· - frame.length) }),
      by simp [sendBody], fun _ => ⟨rfl, rfl, writes, rfl⟩, fun h => absurd hfits h⟩

/-- **`send_frame` delivers the frame**, if the peer takes as much; otherwise it reports that it
did not, and the peer got what it takes.

**Proof sketch.** What was sent is always the beginning of the frame; each call moves one byte
or uses up an entry of its script. -/
theorem sendFrame_spec (c : Connection) (frame : Bytes) :
    ∃ sent got c', sendFrame c frame false = some (sent, got, c') ∧
      (Fits c.room frame.length → sent = true ∧ got = frame ∧
        ∃ writes, c' = { c with writes := writes, room := c.room.map (· - frame.length) }) ∧
      (¬ Fits c.room frame.length → sent = false ∧ got = frame.take (c.room.getD 0)) := by
  have hstart : Sent c frame (0, [], c) := ⟨by simp, by simp, by simp [Fits], c.writes, by simp⟩
  obtain ⟨⟨sent, got, c'⟩, hrun, hQ⟩ := run_of_cases
    (fun s : ℕ × Bytes × Connection => (frame.length - s.1) + s.2.2.writes.length)
    sendBody_step hstart (Nat.lt_succ_self _)
  exact ⟨sent, got, c', hrun, hQ⟩

/-! ## The expected trace -/

/-- The number a length prefix denotes, most significant byte first. -/
def prefixValue (header : Bytes) : ℕ := header.foldl (fun n byte => n * 256 + byte.toNat) 0

/-- The bodies of the complete frames of a stream, in order, up to the first prefix above the
cap. -/
def completeFrames (stream : Bytes) : List Bytes :=
  if _h : kFrameLengthBytes + prefixValue (stream.take kFrameLengthBytes) ≤ stream.length ∧
      prefixValue (stream.take kFrameLengthBytes) ≤ kMaxFrameBytes then
    (stream.drop kFrameLengthBytes).take (prefixValue (stream.take kFrameLengthBytes)) ::
      completeFrames
        (stream.drop (kFrameLengthBytes + prefixValue (stream.take kFrameLengthBytes)))
  else []
termination_by stream.length
decreasing_by
  rw [List.length_drop]
  have : 0 < kFrameLengthBytes := by decide
  omega

/-- An event of the connection itself, rather than of the fire it calls. -/
def Event.ofConnection : Event F → Bool
  | .dispatch _ => false
  | _ => true

/-- The frame of the ack of a body. -/
def ackFrame (F : Type) [OfScientific F] [CharConv F] (startedAtMs : Int64) (body : Bytes) :
    Bytes :=
  encodeWakeAckInto (ackFor (decodeWakeMessage (F := F) body) startedAtMs) []

/-- The calls after the ack of a body: for one that decodes, the record, if that is configured,
and the fire. -/
def callsFor [Double F] [CharConv F] (records : Bool) (moment : Moment) (body : Bytes) :
    List (Event F) :=
  match decodeWakeMessage (F := F) body with
  | .error _ => []
  | .ok message =>
    (if records then [.recordWakeRecv (wakeRecvEvent moment message)] else []) ++
      [.handleFire message]

/-- What is expected to happen for the bodies of complete frames, from the `i`-th on, with a peer
that takes so many bytes: ack and calls of one body after the other; an ack that the peer does
not take whole ends it. -/
def expectedTrace [Double F] [CharConv F] (records : Bool) (moments : ℕ → Moment) :
    ℕ → Option ℕ → List Bytes → List (Event F)
  | _, _, [] => []
  | i, room, body :: bodies =>
    let ack := ackFrame F (moments i).startedAtMs body
    if Fits room ack.length then
      ack.map .sent ++ callsFor records (moments i) body ++
        expectedTrace records moments (i + 1) (room.map (· - ack.length)) bodies
    else (ack.take (room.getD 0)).map .sent

/-! ## The read loop -/

/-- One more byte of a prefix. -/
private lemma toNat_shift_or (x : UInt32) (b : UInt8) (hx : x.toNat < 2 ^ 24) :
    (x <<< 8 ||| b.toUInt32).toNat = x.toNat * 256 + b.toNat := by
  have hb := b.toNat_lt
  have hshift : (x <<< 8).toNat = x.toNat <<< 8 := by
    rw [UInt32.toNat_shiftLeft]
    have h8 : (8 : UInt32).toNat % 32 = 8 := by decide
    rw [h8, Nat.shiftLeft_eq]
    exact Nat.mod_eq_of_lt (by omega)
  rw [UInt32.toNat_or, hshift, UInt8.toNat_toUInt32,
    ← Nat.shiftLeft_add_eq_or_of_lt (by omega), Nat.shiftLeft_eq]

/-- **The prefix is read as the number it denotes.** -/
lemma toNat_frameLength {header : Bytes} (h : header.length = kFrameLengthBytes) :
    (frameLength header).toNat = prefixValue header := by
  match header, h with
  | [a, b, c, d], _ =>
    have ha := a.toNat_lt
    have hb := b.toNat_lt
    have hc := c.toNat_lt
    have h0 : (0 : UInt32).toNat = 0 := rfl
    simp only [frameLength, prefixValue, List.foldl_cons, List.foldl_nil]
    have h1 := toNat_shift_or 0 a (by decide)
    generalize (0 : UInt32) <<< 8 ||| a.toUInt32 = x at h1 ⊢
    have h2 := toNat_shift_or x b (by omega)
    generalize x <<< 8 ||| b.toUInt32 = y at h2 ⊢
    have h3 := toNat_shift_or y c (by omega)
    generalize y <<< 8 ||| c.toUInt32 = z at h3 ⊢
    rw [toNat_shift_or z d (by omega), h3, h2, h1, h0]

/-- The events so far that are the connection's own. -/
private def own (s : Serving F) : List (Event F) := s.trace.filter Event.ofConnection

/-- The bytes that reach the peer are the connection's own. -/
private lemma filter_sent (bytes : Bytes) :
    (bytes.map (Event.sent (F := F))).filter Event.ofConnection = bytes.map .sent := by
  rw [List.filter_eq_self]
  intro e he
  obtain ⟨b, -, rfl⟩ := List.mem_map.mp he
  rfl

section Serve

variable [Double F]

/-- After an accepted ack come the record and the fire. -/
private lemma fireMessage_spec (moment : Moment) (message : WakeMessage F) (s : Serving F) :
    own (fireMessage moment message s) = own s ++
        ((if s.server.recordWakeRecv then [.recordWakeRecv (wakeRecvEvent moment message)]
          else []) ++ [.handleFire message]) ∧
      (fireMessage moment message s).frames = s.frames + 1 ∧
      (fireMessage moment message s).connection = s.connection ∧
      (fireMessage moment message s).framePrefix = s.framePrefix ∧
      (fireMessage moment message s).server.stopping = s.server.stopping ∧
      (fireMessage moment message s).server.recordWakeRecv = s.server.recordWakeRecv := by
  obtain ⟨-, hrecord, hstop⟩ := s.server.handleFire_frame moment.probe message
  refine ⟨?_, rfl, rfl, rfl, hstop, hrecord⟩
  simp only [own, fireMessage, List.filter_append, List.filter_cons]
  cases s.server.recordWakeRecv <;>
    cases (s.server.handleFire moment.probe message).2.1 <;>
      simp [List.filter_cons, Event.ofConnection]

variable [CharConv F]

/-- **One answer**: if the peer takes the ack of the body that was read, ack and calls happen and
the loop goes on behind the frame; otherwise the part that it takes, and the loop ends. -/
private lemma answerFrame_spec (moment : Moment) (s : Serving F)
    (hstop : s.server.stopping = false) :
    (Fits s.connection.room (ackFrame F moment.startedAtMs s.server.body).length →
      ∃ s' writes, answerFrame moment s = .more s' ∧
        own s' = own s ++ ((ackFrame F moment.startedAtMs s.server.body).map .sent ++
          callsFor s.server.recordWakeRecv moment s.server.body) ∧
        s'.frames = s.frames + 1 ∧ s'.framePrefix = s.framePrefix ∧
        s'.connection = { s.connection with
          writes := writes
          room := s.connection.room.map
            (· - (ackFrame F moment.startedAtMs s.server.body).length) } ∧
        s'.server.stopping = false ∧ s'.server.recordWakeRecv = s.server.recordWakeRecv) ∧
    (¬ Fits s.connection.room (ackFrame F moment.startedAtMs s.server.body).length →
      ∃ s', answerFrame moment s = .done (some s') ∧ own s' = own s ++
        ((ackFrame F moment.startedAtMs s.server.body).take
          (s.connection.room.getD 0)).map .sent) := by
  have hack : (s.server.answered F moment.startedAtMs).ack =
      ackFrame F moment.startedAtMs s.server.body := rfl
  obtain ⟨sent, got, c', hsend, hfit, hnofit⟩ :=
    sendFrame_spec s.connection (ackFrame F moment.startedAtMs s.server.body)
  rw [← hack, ← hstop] at hsend
  constructor
  · intro hfits
    obtain ⟨rfl, rfl, writes, rfl⟩ := hfit hfits
    cases hdecode : decodeWakeMessage (F := F) s.server.body with
    | error error =>
      refine ⟨_, writes, answerFrame_rejected hsend hdecode, ?_, rfl, rfl, rfl, hstop, rfl⟩
      simp only [own, List.filter_append, filter_sent, callsFor, hdecode, List.append_nil]
    | ok message =>
      obtain ⟨hown, hframes, hconnection, hpre, hstop', hrecord⟩ := fireMessage_spec moment message
        { s with
          server := s.server.answered F moment.startedAtMs
          connection := { s.connection with
            writes := writes
            room := s.connection.room.map
              (· - (ackFrame F moment.startedAtMs s.server.body).length) }
          trace := s.trace ++ (ackFrame F moment.startedAtMs s.server.body).map .sent }
      refine ⟨_, writes, answerFrame_accepted hsend hdecode, ?_, hframes, hpre, hconnection,
        hstop'.trans hstop, hrecord⟩
      rw [hown]
      simp only [own, List.filter_append, filter_sent, callsFor, hdecode, List.append_assoc]
      rfl
  · intro hfits
    obtain ⟨rfl, rfl⟩ := hnofit hfits
    refine ⟨_, answerFrame_cut hsend, ?_⟩
    simp only [own, List.filter_append, filter_sent]

/-- A stream without a complete frame within the cap in front. -/
lemma completeFrames_eq_nil {stream : Bytes}
    (h : stream.length < kFrameLengthBytes + prefixValue (stream.take kFrameLengthBytes) ∨
      kMaxFrameBytes < prefixValue (stream.take kFrameLengthBytes)) :
    completeFrames stream = [] := by
  rw [completeFrames, dif_neg (by omega)]

/-- A stream with a complete frame within the cap in front. -/
lemma completeFrames_eq_cons {stream : Bytes} {n : ℕ}
    (hn : prefixValue (stream.take kFrameLengthBytes) = n)
    (hle : kFrameLengthBytes + n ≤ stream.length) (hmax : n ≤ kMaxFrameBytes) :
    completeFrames stream = (stream.drop kFrameLengthBytes).take n ::
      completeFrames ((stream.drop kFrameLengthBytes).drop n) := by
  rw [completeFrames, dif_pos (by omega), hn, List.drop_drop]

/-- The prefix an encoder writes denotes the length of the body. -/
lemma prefixValue_header {body : Bytes} (hlen : body.length ≤ kMaxFrameBytes) :
    ∃ header, writeLengthPrefix (List.replicate kFrameLengthBytes 0 ++ body) = header ++ body ∧
      header.length = kFrameLengthBytes ∧ prefixValue header = body.length := by
  obtain ⟨header, h, hheader, hval⟩ := writeLengthPrefix_eq body
  refine ⟨header, h, hheader, ?_⟩
  have hlt : body.length < 2 ^ 32 := lt_of_le_of_lt hlen (by decide)
  rw [← toNat_frameLength hheader, hval, UInt32.toNat_ofNat']
  exact Nat.mod_eq_of_lt hlt

/-- **A frame within the cap is cut off the stream whole.** -/
lemma completeFrames_append {body : Bytes} (hlen : body.length ≤ kMaxFrameBytes) (t : Bytes) :
    completeFrames (writeLengthPrefix (List.replicate kFrameLengthBytes 0 ++ body) ++ t) =
      body :: completeFrames t := by
  obtain ⟨header, h, hheader, hval⟩ := prefixValue_header hlen
  have hdrop : (header ++ (body ++ t)).drop kFrameLengthBytes = body ++ t := by
    rw [← hheader, List.drop_left]
  have htake : (header ++ (body ++ t)).take kFrameLengthBytes = header := by
    rw [← hheader, List.take_left]
  rw [h, List.append_assoc, completeFrames_eq_cons (n := body.length), hdrop, List.take_left,
    List.drop_left]
  · rw [htake, hval]
  · rw [List.length_append, List.length_append, hheader]
    omega
  · exact hlen

/-- What happened so far and what is still expected make up the whole. -/
private def Expects (records : Bool) (moments : ℕ → Moment) (total : List (Event F))
    (s : Serving F) : Prop :=
  s.server.stopping = false ∧ s.server.recordWakeRecv = records ∧
    s.framePrefix.length = kFrameLengthBytes ∧
    own s ++ expectedTrace records moments s.frames s.connection.room
      (completeFrames s.connection.incoming) = total

/-- **One iteration** answers the next complete frame and goes on behind it, or ends the
connection with nothing further expected.

**Proof sketch.** The cases are the ways a stream can go on: no whole prefix, a prefix above the
cap, no whole body, a frame whose ack the peer does not take, and a frame that is answered. -/
private lemma serveBody_step {records : Bool} {moments : ℕ → Moment} {total : List (Event F)}
    (s : Serving F) (hs : Expects records moments total s) :
    (∃ a, serveBody moments s = .done a ∧ ∃ s', a = some s' ∧ own s' = total) ∨
    ∃ s', serveBody moments s = .more s' ∧ Expects records moments total s' ∧
      s'.connection.incoming.length < s.connection.incoming.length := by
  obtain ⟨hstop, hrecords, hpre, htotal⟩ := hs
  obtain ⟨result, header, c₁, hread₁, hok₁, hshort₁⟩ := readExactly_spec s.connection s.framePrefix
  rw [hpre] at hok₁ hshort₁
  have hend : ∀ s', serveBody moments s = .done (some s') → own s' = own s →
      completeFrames s.connection.incoming = [] →
      (∃ a, serveBody moments s = .done a ∧ ∃ s', a = some s' ∧ own s' = total) := by
    intro s' hdone hown hnil
    refine ⟨_, hdone, s', rfl, ?_⟩
    rw [hown, ← htotal, hnil, expectedTrace, List.append_nil]
  by_cases hheader : s.connection.incoming.length < kFrameLengthBytes
  · left
    refine hend { s with framePrefix := header, connection := c₁ } ?_ rfl
      (completeFrames_eq_nil (Or.inl (by omega)))
    exact serveBody_short hstop hread₁ (hshort₁ hheader)
  · obtain ⟨rfl, rfl, reads, rfl⟩ := hok₁ (by omega)
    have hlen : (s.connection.incoming.take kFrameLengthBytes).length = kFrameLengthBytes := by
      rw [List.length_take]
      omega
    have hvalue := toNat_frameLength hlen
    generalize hn : prefixValue (s.connection.incoming.take kFrameLengthBytes) = n at hvalue
    by_cases hmax : kMaxFrameBytes < n
    · left
      refine hend { s with
          framePrefix := s.connection.incoming.take kFrameLengthBytes
          connection := { s.connection with
            incoming := s.connection.incoming.drop kFrameLengthBytes, reads := reads } } ?_ rfl
        (completeFrames_eq_nil (Or.inr (by omega)))
      exact serveBody_refused hstop hread₁ (by
        rw [decodeFrameLength, if_neg (not_not.mpr hlen), if_pos (by rw [hvalue]; exact hmax)])
    · have hlength : decodeFrameLength (s.connection.incoming.take kFrameLengthBytes) =
          .ok (frameLength (s.connection.incoming.take kFrameLengthBytes)) := by
        simp [decodeFrameLength, hlen, hvalue, hmax]
      obtain ⟨result, body, c₂, hread₂, hok₂, hshort₂⟩ := readExactly_spec
        { s.connection with
          incoming := s.connection.incoming.drop kFrameLengthBytes, reads := reads }
        (resize s.server.body n)
      rw [length_resize, List.length_drop] at hok₂ hshort₂
      by_cases hbody : s.connection.incoming.length - kFrameLengthBytes < n
      · left
        refine hend { s with
            server := { s.server with body := body }
            framePrefix := s.connection.incoming.take kFrameLengthBytes
            connection := c₂ } ?_ rfl
          (completeFrames_eq_nil (Or.inl (by omega)))
        exact serveBody_cut hstop hread₁ hlength (by rw [hvalue]; exact hread₂) (hshort₂ hbody)
      · obtain ⟨rfl, rfl, reads', rfl⟩ := hok₂ (by omega)
        have hframes := completeFrames_eq_cons hn (by omega) (by omega)
        obtain ⟨s₁, hbody₁, hs₁⟩ : ∃ s₁ : Serving F,
            serveBody moments s = answerFrame (moments s.frames) s₁ ∧
            s₁ = { s with
              server := { s.server with
                body := (s.connection.incoming.drop kFrameLengthBytes).take n }
              framePrefix := s.connection.incoming.take kFrameLengthBytes
              connection := { s.connection with
                incoming := (s.connection.incoming.drop kFrameLengthBytes).drop n
                reads := reads' } } := by
          refine ⟨_, ?_, rfl⟩
          exact serveBody_whole hstop hread₁ hlength (by rw [hvalue]; exact hread₂)
        obtain ⟨hfit, hnofit⟩ := answerFrame_spec (moments s.frames) s₁ (by rw [hs₁]; exact hstop)
        rw [hframes, expectedTrace] at htotal
        simp only [hs₁] at hfit hnofit
        by_cases hfits : Fits s.connection.room (ackFrame F (moments s.frames).startedAtMs
            ((s.connection.incoming.drop kFrameLengthBytes).take n)).length
        · right
          obtain ⟨s', writes, hmore, hown, hframes', hpre', hconnection, hstop', hrecords'⟩ :=
            hfit hfits
          rw [if_pos hfits] at htotal
          refine ⟨s', by rw [hbody₁, hs₁, hmore], ⟨hstop', hrecords'.trans hrecords, ?_, ?_⟩, ?_⟩
          · rw [hpre', hlen]
          · rw [hown, hframes', hconnection, ← htotal, hrecords]
            simp only [own, List.append_assoc]
          · have : 0 < kFrameLengthBytes := by decide
            rw [hconnection]
            simp only [List.length_drop]
            omega
        · left
          obtain ⟨s', hdone, hown⟩ := hnofit hfits
          rw [if_neg hfits] at htotal
          exact ⟨_, by rw [hbody₁, hs₁, hdone], s', rfl, by rw [hown, ← htotal]; rfl⟩

/-- **A connection does what its stream asks for.** On a server that is not asked to stop,
however `read` and `send` cut the two directions and whatever the buffers of the server hold,
serving a connection ends, and the events of its own are the expected ones: for the complete
frames of the stream, in order, the ack, and after a whole ack of a body that decodes the record
and the fire of the message.

**Proof sketch.** One iteration turns the next complete frame from expected into happened and
takes its bytes off the stream. -/
theorem serveConnection_spec (moments : ℕ → Moment) (server : ExecutorServer)
    (connection : Connection) (hstop : server.stopping = false) :
    ∃ s : Serving F, serveConnection moments server connection = some s ∧
      s.trace.filter Event.ofConnection = expectedTrace server.recordWakeRecv moments 0
        connection.room (completeFrames connection.incoming) := by
  have hstart : Expects (F := F) server.recordWakeRecv moments
      (expectedTrace server.recordWakeRecv moments 0 connection.room
        (completeFrames connection.incoming))
      { server := server
        connection := connection
        framePrefix := List.replicate kFrameLengthBytes 0
        frames := 0
        trace := [] } := ⟨hstop, rfl, by simp, by simp [own]⟩
  obtain ⟨_, hrun, s, rfl, hown⟩ := run_of_cases
    (fun s : Serving F => s.connection.incoming.length) serveBody_step hstart
    (Nat.lt_succ_self _)
  exact ⟨s, by rw [serveConnection, hrun]; rfl, hown⟩

/-- A peer that sends a frame that does not decode, one that does and then a prefix above the cap,
all in pieces: it gets the acks of the first two, and the second is recorded and fired. -/
theorem serveConnection_oversize :
    ∃ (moments : ℕ → Moment) (e : DecodeError) (s : Serving SignedZero),
      decodeWakeMessage (F := SignedZero) [120] = .error e ∧
      serveConnection moments (ExecutorServer.new none true true)
        { incoming := [0, 0, 0, 1, 120] ++ encodeWakeMessageInto firstWake [] ++ [0, 1, 0, 1]
          reset := false
          reads := [.upTo 2, .interrupted, .upTo 0]
          writes := [.interrupted, .upTo 5]
          room := none } = some s ∧
      s.trace.filter Event.ofConnection =
        (encodeWakeAckInto (ackFor (.error e : Decoded (WakeMessage SignedZero)) 7) []).map .sent ++
        (encodeWakeAckInto (ackFor (.ok firstWake) 7) []).map .sent ++
        [.recordWakeRecv (wakeRecvEvent (moments 1) firstWake), .handleFire firstWake] := by
  have hdecode : (decodeWakeMessage (F := SignedZero) [120]).toOption = none := by decide +kernel
  obtain ⟨e, he⟩ : ∃ e, decodeWakeMessage (F := SignedZero) [120] = .error e := by
    cases h : decodeWakeMessage (F := SignedZero) [120] with
    | error e => exact ⟨e, rfl⟩
    | ok m => simp [h, Except.toOption] at hdecode
  have hframes : completeFrames ([0, 0, 0, 1, 120] ++ encodeWakeMessageInto firstWake [] ++
      [0, 1, 0, 1]) = [[120], firstWake.body] := by
    have hlen : firstWake.body.length ≤ kMaxFrameBytes := by decide +kernel
    have hfirst : [0, 0, 0, 1, 120] =
        writeLengthPrefix (List.replicate kFrameLengthBytes 0 ++ ([120] : Bytes)) := by decide
    rw [encodeWakeMessageInto_eq, hfirst, List.append_assoc, completeFrames_append (by decide),
      completeFrames_append hlen, completeFrames_eq_nil (Or.inr (by decide))]
  obtain ⟨s, hs, htrace⟩ := serveConnection_spec (F := SignedZero)
    (fun _ => ⟨7, 0, 0, 7, ⟨0, ⟨false, false⟩⟩⟩) (ExecutorServer.new none true true)
    { incoming := [0, 0, 0, 1, 120] ++ encodeWakeMessageInto firstWake [] ++ [0, 1, 0, 1]
      reset := false
      reads := [.upTo 2, .interrupted, .upTo 0]
      writes := [.interrupted, .upTo 5]
      room := none } rfl
  refine ⟨_, e, s, he, hs, ?_⟩
  rw [htrace, hframes]
  simp [expectedTrace, Fits, callsFor, ackFrame, he, decode_firstWake, ExecutorServer.new]

end Serve

end Hotpath
