import Hotpath.Executor.Ack
import Hotpath.Executor.Fire

set_option relaxedAutoImplicit false
set_option autoImplicit false

/-!
# Serving a connection

`read_exactly`, `ExecutorServer::send_frame` and `ExecutorServer::serve_connection`. A
connection is what the peer sends before its side ends and how many bytes of output it takes,
with the ways the system calls cut both into pieces. The loops are bounded by what is left of
these, and answer `none` where that bound were not enough.

## Main definitions

* `Hotpath.Connection` — a peer, with `Connection.read` and `Connection.send`.
* `Hotpath.readExactly`, `Hotpath.sendFrame`.
* `Hotpath.Event` — what a connection sees and what the callbacks see, in order.
* `Hotpath.serveConnection`.
-/

namespace Hotpath

variable {F : Type}

/-! ## System calls -/

/-- How a system call goes: it is interrupted, or moves one byte and at most so many more. -/
inductive Transfer where
  | interrupted
  | upTo (more : ℕ)

/-- What a system call returns: a count, or an error, which is `EINTR` or another one. -/
inductive SysResult where
  | count (n : ℕ)
  | interrupted
  | failed

/-- The peer of a connection. -/
structure Connection where
  /-- What it sends before its side ends, as far as it was not read yet. -/
  incoming : Bytes
  /-- Its side ends with an error, not with the end of the stream. -/
  reset : Bool
  /-- How the next calls of `read` go; later ones move all they can. -/
  reads : List Transfer
  /-- How the next calls of `send` go; later ones move all they can. -/
  writes : List Transfer
  /-- How many bytes it takes before `send` fails, if it does not take all. -/
  room : Option ℕ

namespace Connection

/-- A `read` that is not interrupted, of at most `n` bytes. -/
def receive (c : Connection) (n : ℕ) : SysResult × Bytes × Connection :=
  if c.incoming = [] then (if c.reset then .failed else .count 0, [], c)
  else
    (.count (c.incoming.take n).length, c.incoming.take n,
      { c with incoming := c.incoming.drop n })

/-- `read` into a buffer of `count` bytes: the result and the bytes. -/
def read (c : Connection) (count : ℕ) : SysResult × Bytes × Connection :=
  match c.reads with
  | .interrupted :: reads => (.interrupted, [], { c with reads := reads })
  | .upTo more :: reads => { c with reads := reads }.receive (min (more + 1) count)
  | [] => c.receive count

/-- A `send` that is not interrupted, of the given bytes. -/
def transmit (c : Connection) (bytes : Bytes) : SysResult × Bytes × Connection :=
  match c.room with
  | none => (.count bytes.length, bytes, c)
  | some 0 => (.failed, [], c)
  | some (room + 1) =>
    (.count (bytes.take (room + 1)).length, bytes.take (room + 1),
      { c with room := some (room + 1 - (bytes.take (room + 1)).length) })

/-- `send` of the given bytes: the result and those it moved. -/
def send (c : Connection) (bytes : Bytes) : SysResult × Bytes × Connection :=
  match c.writes with
  | .interrupted :: writes => (.interrupted, [], { c with writes := writes })
  | .upTo more :: writes => { c with writes := writes }.transmit (bytes.take (more + 1))
  | [] => c.transmit bytes

/-- A `read` that returns a count moved as many bytes, and at most as many as there is room
for. -/
lemma length_of_read {c c' : Connection} {count n : ℕ} {read : Bytes}
    (h : c.read count = (.count n, read, c')) : read.length = n ∧ n ≤ count := by
  have hreceive : ∀ {d : Connection} {k : ℕ}, k ≤ count → d.receive k = (.count n, read, c') →
      read.length = n ∧ n ≤ count := by
    intro d k hk hd
    unfold receive at hd
    split_ifs at hd
    · cases hd
    · cases hd
      exact ⟨rfl, Nat.zero_le _⟩
    · cases hd
      refine ⟨rfl, ?_⟩
      rw [List.length_take]
      omega
  unfold Connection.read at h
  split at h
  · cases h
  · exact hreceive (Nat.min_le_right _ _) h
  · exact hreceive le_rfl h

/-- A `send` that returns a count moved as many bytes from the front. -/
lemma eq_take_of_send {c c' : Connection} {bytes sent : Bytes} {n : ℕ}
    (h : c.send bytes = (.count n, sent, c')) : sent = bytes.take n ∧ n ≤ bytes.length := by
  have htransmit : ∀ {d : Connection} {k : ℕ}, d.transmit (bytes.take k) = (.count n, sent, c') →
      sent = bytes.take n ∧ n ≤ bytes.length := by
    intro d k hd
    unfold transmit at hd
    split at hd
    · cases hd
      rw [List.length_take]
      exact ⟨(List.take_eq_take_iff.mpr (by omega)), by omega⟩
    · cases hd
    · cases hd
      rw [List.length_take, List.length_take, List.take_take]
      exact ⟨List.take_eq_take_iff.mpr (by omega), by omega⟩
  unfold Connection.send at h
  split at h
  · cases h
  · exact htransmit h
  · rw [← List.take_length (l := bytes)] at h
    exact htransmit h

end Connection

/-! ## Whole frames -/

/-- What `read_exactly` answers. -/
inductive ReadResult where
  | ok
  | peerClosed
  | failed
  deriving DecidableEq, Repr

/-- One iteration of `read_exactly`, on the count filled so far, the buffer and the peer. -/
def readBody (count : ℕ) (stop : Bool) (s : ℕ × Bytes × Connection) :
    Loop.Step (ℕ × Bytes × Connection) (ReadResult × Bytes × Connection) :=
  let (filled, out, c) := s
  if filled < count then
    match c.read (count - filled) with
    | (.count 0, _, c) => .done (if filled = 0 then .peerClosed else .failed, out, c)
    | (.count got, bytes, c) =>
      .more (filled + got, out.take filled ++ bytes ++ out.drop (filled + got), c)
    | (.interrupted, _, c) =>
      if !stop then .more (filled, out, c) else .done (.failed, out, c)
    | (.failed, _, c) => .done (.failed, out, c)
  else .done (.ok, out, c)

/-- `read_exactly` into a buffer, of which it fills all. -/
def readExactly (c : Connection) (out : Bytes) (stop : Bool) :
    Option (ReadResult × Bytes × Connection) :=
  Loop.run (readBody out.length stop) (c.incoming.length + c.reads.length + 1) (0, out, c)

/-- One iteration of `send_frame`, on the count sent so far, the bytes the peer got and the
peer. -/
def sendBody (frame : Bytes) (stop : Bool) (s : ℕ × Bytes × Connection) :
    Loop.Step (ℕ × Bytes × Connection) (Bool × Bytes × Connection) :=
  let (sent, got, c) := s
  if sent < frame.length then
    match c.send (frame.drop sent) with
    | (.count wrote, bytes, c) => .more (sent + wrote, got ++ bytes, c)
    | (.interrupted, _, c) => if !stop then .more (sent, got, c) else .done (false, got, c)
    | (.failed, _, c) => .done (false, got, c)
  else .done (true, got, c)

/-- `send_frame`: whether it sent all, the bytes the peer got, and the peer. -/
def sendFrame (c : Connection) (frame : Bytes) (stop : Bool) : Option (Bool × Bytes × Connection) :=
  Loop.run (sendBody frame stop) (frame.length + c.writes.length + 1) (0, [], c)

/-! ## The read loop -/

/-- What `serve_connection` reads off the clocks for one frame, and what its fire meets. -/
structure Moment where
  startedAtMs : Int64
  startedNs : Int64
  endedNs : Int64
  endedAtMs : Int64
  probe : Probe

/-- The event that `record_wake_recv` hands to the telemetry. -/
structure WakeRecvEvent (F : Type) where
  correlationId : Bytes
  startedAtMs : Int64
  endedAtMs : Int64
  durationMs : F
  dryRun : Bool

/-- What happens in the course of a connection: a byte reaches the peer, a callback is called,
`handle_fire` is called. -/
inductive Event (F : Type) where
  | sent (byte : UInt8)
  | recordWakeRecv (event : WakeRecvEvent F)
  | handleFire (message : WakeMessage F)
  | dispatch (request : FireRequest F)

/-- The state of the loop in `serve_connection`: the server, the peer, the buffer of the length
prefix, how many frames were answered, and what happened so far. -/
structure Serving (F : Type) where
  server : ExecutorServer
  connection : Connection
  framePrefix : Bytes
  frames : ℕ
  trace : List (Event F)

/-- The event `serve_connection` records for a message. -/
def wakeRecvEvent [Double F] (moment : Moment) (message : WakeMessage F) : WakeRecvEvent F where
  correlationId := message.correlationId
  startedAtMs := moment.startedAtMs
  endedAtMs := moment.endedAtMs
  durationMs := Double.ofInt (moment.endedNs - moment.startedNs).toInt / 1000000.0
  dryRun := message.dryRun

/-- The rest of an iteration after the ack of a message was sent: the record and the fire. -/
def fireMessage [Double F] (moment : Moment) (message : WakeMessage F) (s : Serving F) :
    Serving F :=
  let recorded : List (Event F) :=
    if s.server.recordWakeRecv then [.recordWakeRecv (wakeRecvEvent moment message)] else []
  let fired := s.server.handleFire moment.probe message
  { s with
    server := fired.2.2
    frames := s.frames + 1
    trace := s.trace ++ recorded ++ .handleFire message :: (fired.2.1.map .dispatch).toList }

/-- The rest of an iteration after the body was read: the ack, which both branches of the source
encode into `ack_` and send, and after an accepted one the record and the fire. -/
def answerFrame [Double F] [CharConv F] (moment : Moment) (s : Serving F) :
    Loop.Step (Serving F) (Option (Serving F)) :=
  let decoded : Decoded (WakeMessage F) := decodeWakeMessage s.server.body
  let ack := encodeWakeAckInto (ackFor decoded moment.startedAtMs) s.server.ack
  let stats := { s.server.stats with framesRead := s.server.stats.framesRead + 1 }
  let stats := match decoded with
    | .error _ => { stats with acksRejected := stats.acksRejected + 1 }
    | .ok _ => { stats with acksAccepted := stats.acksAccepted + 1 }
  let s := { s with server := { s.server with ack := ack, stats := stats } }
  match sendFrame s.connection ack s.server.stopping with
  | none => .done none
  | some (sent, bytes, connection) =>
    let s := { s with connection := connection, trace := s.trace ++ bytes.map .sent }
    if !sent then .done (some s)
    else
      match decoded with
      | .error _ => .more { s with frames := s.frames + 1 }
      | .ok message => .more (fireMessage moment message s)

/-- One iteration of `serve_connection`. -/
def serveBody [Double F] [CharConv F] (moments : ℕ → Moment) (s : Serving F) :
    Loop.Step (Serving F) (Option (Serving F)) :=
  if s.server.stopping then .done (some s)
  else
    match readExactly s.connection s.framePrefix s.server.stopping with
    | none => .done none
    | some (result, framePrefix, connection) =>
      let s := { s with framePrefix := framePrefix, connection := connection }
      if result ≠ .ok then .done (some s)
      else
        match decodeFrameLength framePrefix with
        | .error _ => .done (some s)
        | .ok length =>
          match readExactly connection (resize s.server.body length.toNat) s.server.stopping with
          | none => .done none
          | some (result, body, connection) =>
            let s := { s with
              server := { s.server with body := body }
              connection := connection }
            if result ≠ .ok then .done (some s) else answerFrame (moments s.frames) s

/-! ### One answer -/

/-- The server with a body answered: its ack in the buffer, and the counters behind it. -/
def ExecutorServer.answered (F : Type) [OfScientific F] [CharConv F] (server : ExecutorServer)
    (startedAtMs : Int64) : ExecutorServer :=
  let decoded : Decoded (WakeMessage F) := decodeWakeMessage server.body
  let stats := { server.stats with framesRead := server.stats.framesRead + 1 }
  { server with
    ack := encodeWakeAckInto (ackFor decoded startedAtMs) server.ack
    stats := match decoded with
      | .error _ => { stats with acksRejected := stats.acksRejected + 1 }
      | .ok _ => { stats with acksAccepted := stats.acksAccepted + 1 } }

section

variable [Double F] [CharConv F] {moment : Moment} {s : Serving F} {got : Bytes} {c : Connection}

/-- The peer does not take the whole ack. -/
lemma answerFrame_cut (hsend : sendFrame s.connection
    (s.server.answered F moment.startedAtMs).ack s.server.stopping = some (false, got, c)) :
    answerFrame moment s = .done (some { s with
      server := s.server.answered F moment.startedAtMs
      connection := c
      trace := s.trace ++ got.map .sent }) := by
  rw [ExecutorServer.answered] at hsend
  simp only [answerFrame, hsend]
  rfl

/-- The ack of a refused body was sent. -/
lemma answerFrame_rejected (hsend : sendFrame s.connection
    (s.server.answered F moment.startedAtMs).ack s.server.stopping = some (true, got, c))
    {error : DecodeError} (hd : decodeWakeMessage (F := F) s.server.body = .error error) :
    answerFrame moment s = .more { s with
      server := s.server.answered F moment.startedAtMs
      connection := c
      frames := s.frames + 1
      trace := s.trace ++ got.map .sent } := by
  rw [ExecutorServer.answered] at hsend
  simp only [answerFrame, hsend]
  simp only [ExecutorServer.answered, hd, Bool.not_true, Bool.false_eq_true, if_false]

/-- The ack of a message was sent. -/
lemma answerFrame_accepted (hsend : sendFrame s.connection
    (s.server.answered F moment.startedAtMs).ack s.server.stopping = some (true, got, c))
    {message : WakeMessage F} (hd : decodeWakeMessage s.server.body = .ok message) :
    answerFrame moment s = .more (fireMessage moment message { s with
      server := s.server.answered F moment.startedAtMs
      connection := c
      trace := s.trace ++ got.map .sent }) := by
  rw [ExecutorServer.answered] at hsend
  simp only [answerFrame, hsend]
  simp only [ExecutorServer.answered, hd, Bool.not_true, Bool.false_eq_true, if_false]

end

/-! ### One iteration -/

section

variable [Double F] [CharConv F] {moments : ℕ → Moment} {s : Serving F}
  (hstop : s.server.stopping = false) {result : ReadResult} {header body : Bytes}
  {c c' : Connection}

include hstop

/-- The stream ends before the length prefix does. -/
lemma serveBody_short (hread : readExactly s.connection s.framePrefix false =
    some (result, header, c)) (hresult : result ≠ .ok) :
    serveBody moments s = .done (some { s with framePrefix := header, connection := c }) := by
  simp [serveBody, hstop, hread, hresult]

/-- The iteration that reads a length above the cap ends the connection. -/
lemma serveBody_refused (hread : readExactly s.connection s.framePrefix false =
    some (.ok, header, c)) {error : DecodeError} (hd : decodeFrameLength header = .error error) :
    serveBody moments s = .done (some { s with framePrefix := header, connection := c }) := by
  simp [serveBody, hstop, hread, hd]

/-- The stream ends before the body does. -/
lemma serveBody_cut (hread : readExactly s.connection s.framePrefix false =
    some (.ok, header, c)) {length : UInt32} (hd : decodeFrameLength header = .ok length)
    (hbody : readExactly c (resize s.server.body length.toNat) false = some (result, body, c'))
    (hresult : result ≠ .ok) :
    serveBody moments s = .done (some { s with
      server := { s.server with body := body }
      framePrefix := header
      connection := c' }) := by
  simp [serveBody, hstop, hread, hd, hbody, hresult]

/-- The iteration that reads a whole frame answers it. -/
lemma serveBody_whole (hread : readExactly s.connection s.framePrefix false =
    some (.ok, header, c)) {length : UInt32} (hd : decodeFrameLength header = .ok length)
    (hbody : readExactly c (resize s.server.body length.toNat) false = some (.ok, body, c')) :
    serveBody moments s = answerFrame (moments s.frames) { s with
      server := { s.server with body := body }
      framePrefix := header
      connection := c' } := by
  simp [serveBody, hstop, hread, hd, hbody]

end

/-- `serve_connection`: the state its loop ends in. -/
def serveConnection [Double F] [CharConv F] (moments : ℕ → Moment) (server : ExecutorServer)
    (connection : Connection) : Option (Serving F) :=
  (Loop.run (serveBody moments) (connection.incoming.length + 1)
    { server := server
      connection := connection
      framePrefix := List.replicate kFrameLengthBytes 0
      frames := 0
      trace := [] }).join

end Hotpath
