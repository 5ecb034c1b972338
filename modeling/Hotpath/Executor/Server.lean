import Hotpath.Executor.Connection
import Mathlib.Logic.Function.Basic

set_option relaxedAutoImplicit false
set_option autoImplicit false

/-!
# The server and its callers

`ExecutorServer::serve_forever` and `serve_one_connection`, with `serve_connection`,
`read_exactly` and `send_frame` below them, as the steps of one thread, and `stop` as the steps of
any number of others. A step makes one system call or one access to what the threads share:
`stopping_`, `connection_fd_`, the wake pipe and the socket of the connection. What only the
serving thread sees is part of the step before it.

## Main definitions

* `Hotpath.Descriptors.listen`.
* `Hotpath.Executor` — the server, the descriptors behind it and where each thread is.
* `Hotpath.Executor.Step` — one step of one of the threads.
-/

namespace Hotpath

open Utf8 (bytes)

variable {F ι : Type}

/-! ## Listening -/

/-- The descriptors of the server that stay open between connections. -/
structure Descriptors where
  listenFd : ℤ
  wakeReadFd : ℤ
  wakeWriteFd : ℤ
  deriving DecidableEq, Repr

/-- The descriptors of a server that does not listen. -/
def Descriptors.closed : Descriptors := ⟨-1, -1, -1⟩

/-- How the system calls of `listen` go: each returns, or fails with the text of its error. -/
structure ListenCalls where
  pipe : Except Bytes (ℕ × ℕ)
  socket : Except Bytes ℕ
  bind : Except Bytes Unit
  chmod : Except Bytes Unit
  listen : Except Bytes Unit

/-- `sizeof(sockaddr_un::sun_path)`. -/
def kSunPathBytes : ℕ := 108

/-- `syscall_error`. -/
def syscallError (name message : Bytes) : Bytes := name ++ bytes ": " ++ message

/-- `listen`: its failure if any, and the descriptors after it. -/
def Descriptors.listen (d : Descriptors) (path : Bytes) (calls : ListenCalls) :
    Option Bytes × Descriptors :=
  if path.length ≥ kSunPathBytes then (some (bytes "socket path exceeds 107 bytes"), d)
  else
    match calls.pipe with
    | .error message => (some (syscallError (bytes "pipe") message), d)
    | .ok (readFd, writeFd) =>
      let d := { d with wakeReadFd := readFd, wakeWriteFd := writeFd }
      match calls.socket with
      | .error message => (some (syscallError (bytes "socket") message), { d with listenFd := -1 })
      | .ok fd =>
        let d := { d with listenFd := fd }
        match calls.bind, calls.chmod, calls.listen with
        | .error message, _, _ => (some (syscallError (bytes "bind") message), d)
        | .ok _, .error message, _ => (some (syscallError (bytes "chmod") message), d)
        | .ok _, .ok _, .error message => (some (syscallError (bytes "listen") message), d)
        | .ok _, .ok _, .ok _ => (none, d)

/-- All descriptors are open. -/
def Descriptors.Open (d : Descriptors) : Prop :=
  0 ≤ d.listenFd ∧ 0 ≤ d.wakeReadFd ∧ 0 ≤ d.wakeWriteFd

/-- A successful `listen` leaves all descriptors open. -/
lemma Descriptors.open_of_listen {d d' : Descriptors} {path : Bytes} {calls : ListenCalls}
    (h : d.listen path calls = (none, d')) : d'.Open := by
  unfold Descriptors.listen at h
  split_ifs at h
  · cases h
  split at h
  · cases h
  · split at h
    · cases h
    · split at h <;> cases h
      exact ⟨Int.natCast_nonneg _, Int.natCast_nonneg _, Int.natCast_nonneg _⟩

/-- `listen` succeeds if its path is short enough and its calls succeed. -/
lemma Descriptors.listen_ok (d : Descriptors) {path : Bytes} (hpath : path.length < kSunPathBytes)
    (readFd writeFd fd : ℕ) :
    d.listen path ⟨.ok (readFd, writeFd), .ok fd, .ok (), .ok (), .ok ()⟩ =
      (none, ⟨fd, readFd, writeFd⟩) := by
  rw [Descriptors.listen, if_neg (not_le.mpr hpath)]

/-! ## The threads -/

/-- The kernel's side of the accepted connection. -/
structure Socket where
  fd : ℕ
  /-- How many connections were accepted up to this one. -/
  serial : ℕ
  shutDown : Bool
  deriving DecidableEq, Repr

/-- `shutdown(fd, SHUT_RDWR)`, which meets the socket if it has that descriptor. -/
def Socket.shutdown (fd : ℤ) (k : Socket) : Socket :=
  if (k.fd : ℤ) = fd then { k with shutDown := true } else k

/-- A shutdown closes no descriptor. -/
@[simp] lemma Socket.fd_shutdown (k : Socket) (fd : ℤ) : (k.shutdown fd).fd = k.fd := by
  unfold Socket.shutdown
  split_ifs <;> rfl

/-- After a shutdown the connection is the same. -/
@[simp] lemma Socket.serial_shutdown (k : Socket) (fd : ℤ) :
    (k.shutdown fd).serial = k.serial := by
  unfold Socket.shutdown
  split_ifs <;> rfl

/-- A shutdown of the descriptor of a socket meets the socket. -/
@[simp] lemma Socket.shutDown_shutdown (k : Socket) : (k.shutdown k.fd).shutDown = true := by
  rw [Socket.shutdown, if_pos rfl]

/-- The part of a frame that `read_exactly` reads. -/
inductive FramePart where
  | framePrefix
  | body
  deriving DecidableEq, Repr

/-- Where the thread in `serve_forever` is. -/
inductive Control (F : Type) where
  /-- At the check at the head of `serve_one_connection`. -/
  | start
  | polling
  /-- `poll` was interrupted; at the check that follows. -/
  | pollInterrupted
  /-- `poll` returned, with the pipe and the listening socket readable or not. -/
  | polled (woken listening : Bool)
  | accepting
  /-- `accept` failed, with `EINTR` or with another error; at the check that follows. -/
  | acceptFailed (interrupted : Bool)
  /-- A connection was accepted and `connection_fd_` is not stored yet. -/
  | accepted
  /-- At the check of the loop in `serve_connection`. -/
  | looping
  | reading (part : FramePart) (filled : ℕ)
  | readInterrupted (part : FramePart) (filled : ℕ)
  | sending (moment : Moment) (decoded : Decoded (WakeMessage F)) (sent : ℕ)
  | sendInterrupted (moment : Moment) (decoded : Decoded (WakeMessage F)) (sent : ℕ)
  /-- `serve_connection` returned and `connection_fd_` is not reset yet. -/
  | leaving
  | closing
  /-- The connection is closed; at the check that `serve_one_connection` returns. -/
  | closed
  /-- `serve_one_connection` returned false, and `serve_forever` after it. -/
  | returned

/-- Where a thread that calls `stop` is: before the call, behind the store, behind the write to
the pipe, behind the load of a descriptor, or behind the call. -/
inductive Stopper where
  | idle
  | stored
  | written
  | loaded (fd : ℤ)
  | done
  deriving DecidableEq, Repr

/-- Why `serve_connection` returned: at its check, for a read that failed, for a length above the
cap, or for the ack of a refused or of an accepted body that could not be sent. -/
inductive Ending where
  | stopped
  | read
  | length
  | rejectedAck
  | acceptedAck
  deriving DecidableEq, Repr

/-- What happens in the course of a run: an event of a frame, with the number of frames read up
to it, or the end of a connection. -/
inductive ServerEvent (F : Type) where
  | frame (n : ℕ) (event : Event F)
  | ended (ending : Ending)

/-- How a call of `poll` returns. -/
inductive PollResult where
  | interrupted
  | failed
  | ready (listening : Bool)
  deriving DecidableEq, Repr

/-- How a call of `accept` returns. -/
inductive AcceptResult where
  | connection (fd : ℕ)
  | interrupted
  | failed
  deriving DecidableEq, Repr

/-- What is seen of a step: how `poll` or `accept` returned, which bytes `read` or `send` moved,
that a body was read and is answered, that `serve_forever` took another step or is called again,
or which caller of `stop` took one. -/
inductive ServerAction (ι : Type) where
  | poll (result : PollResult)
  | accept (result : AcceptResult)
  | read (bytes : Bytes)
  | answer
  | send (bytes : Bytes)
  | serve
  | call
  | stop (i : ι)

/-- `ExecutorServer` with its descriptors and the threads that use it. -/
structure Executor (F ι : Type) where
  server : ExecutorServer
  descriptors : Descriptors
  connectionFd : ℤ
  /-- How many bytes are in the wake pipe. -/
  pipe : ℕ
  /-- The connection that is open, if any. -/
  socket : Option Socket
  /-- How many connections were accepted. -/
  connections : ℕ
  /-- The buffer of the length prefix in `serve_connection`. -/
  framePrefix : Bytes
  control : Control F
  stoppers : ι → Stopper
  trace : List (ServerEvent F)

/-- Filling a buffer puts the bytes behind those that were there. -/
lemma take_fill {out read : Bytes} {filled : ℕ} (hle : filled + read.length ≤ out.length) :
    (out.take filled ++ read ++ out.drop (filled + read.length)).take (filled + read.length) =
      out.take filled ++ read ∧
    (out.take filled ++ read ++ out.drop (filled + read.length)).length = out.length := by
  have hlen : (out.take filled ++ read).length = filled + read.length := by
    rw [List.length_append, List.length_take]
    omega
  constructor
  · rw [List.take_append_of_le_length hlen.ge, List.take_of_length_le hlen.le]
  · rw [List.length_append, hlen, List.length_drop]
    omega

namespace Executor

/-- A server whose `serve_forever` is called. -/
def new (server : ExecutorServer) (descriptors : Descriptors) : Executor F ι where
  server := server
  descriptors := descriptors
  connectionFd := -1
  pipe := 0
  socket := none
  connections := 0
  framePrefix := []
  control := .start
  stoppers := fun _ => .idle
  trace := []

/-! ## Parts of steps -/

/-- The buffer that a part of a frame is read into. -/
def buffer (s : Executor F ι) : FramePart → Bytes
  | .framePrefix => s.framePrefix
  | .body => s.server.body

/-- The bytes of a `read` are in the buffer, behind those that were. -/
def fill (s : Executor F ι) (part : FramePart) (filled : ℕ) (read : Bytes) : Executor F ι :=
  let out := s.buffer part
  let out := out.take filled ++ read ++ out.drop (filled + read.length)
  match part with
  | .framePrefix => { s with framePrefix := out }
  | .body => { s with server := { s.server with body := out } }

/-- The return of `serve_connection`. -/
def leave (s : Executor F ι) (ending : Ending) : Executor F ι :=
  { s with control := .leaving, trace := s.trace ++ [.ended ending] }

/-- An event of the frame that is handled. -/
def frameEvent (s : Executor F ι) (event : Event F) : ServerEvent F :=
  .frame s.server.stats.framesRead event

/-- The rest of an iteration of `serve_connection` after the body was read, up to the ack. -/
def answer [OfScientific F] [CharConv F] (s : Executor F ι) (moment : Moment) : Executor F ι :=
  let decoded : Decoded (WakeMessage F) := decodeWakeMessage s.server.body
  let ack := encodeWakeAckInto (ackFor decoded moment.startedAtMs) s.server.ack
  let stats := { s.server.stats with framesRead := s.server.stats.framesRead + 1 }
  let stats := match decoded with
    | .error _ => { stats with acksRejected := stats.acksRejected + 1 }
    | .ok _ => { stats with acksAccepted := stats.acksAccepted + 1 }
  { s with
    server := { s.server with ack := ack, stats := stats }
    control := .sending moment decoded 0 }

/-- Why `serve_connection` returns if the ack of a body cannot be sent. -/
def ackEnding : Decoded (WakeMessage F) → Ending
  | .error _ => .rejectedAck
  | .ok _ => .acceptedAck

/-- The rest of an iteration after the ack of a message was sent: the record and the fire. -/
def fire [Double F] (s : Executor F ι) (moment : Moment) (message : WakeMessage F) :
    Executor F ι :=
  let recorded : List (Event F) :=
    if s.server.recordWakeRecv then [.recordWakeRecv (wakeRecvEvent moment message)] else []
  let fired := s.server.handleFire moment.probe message
  let events := recorded ++ .handleFire message :: (fired.2.1.map .dispatch).toList
  { s with
    server := fired.2.2
    control := .looping
    trace := s.trace ++ events.map s.frameEvent }

/-- The state after a caller of `stop` has taken a step. -/
def stopper [DecidableEq ι] (s : Executor F ι) (i : ι) (at' : Stopper) : Executor F ι :=
  { s with stoppers := Function.update s.stoppers i at' }

/-- The steps of the threads. -/
inductive Step [DecidableEq ι] [Double F] [CharConv F] :
    Executor F ι → ServerAction ι → Executor F ι → Prop
  | start {s : Executor F ι} (hc : s.control = .start) :
      Step s .serve
        { s with control :=
          if s.server.stopping ∨ s.descriptors.listenFd < 0 then .returned else .polling }
  | pollFailed {s : Executor F ι} (hc : s.control = .polling) :
      Step s (.poll .failed) { s with control := .returned }
  | pollInterrupted {s : Executor F ι} (hc : s.control = .polling) :
      Step s (.poll .interrupted) { s with control := .pollInterrupted }
  /-- `poll` may also return where neither descriptor is readable. -/
  | poll {s : Executor F ι} (hc : s.control = .polling) (listening : Bool) :
      Step s (.poll (.ready listening))
        { s with control := .polled (0 ≤ s.descriptors.wakeReadFd ∧ 0 < s.pipe) listening }
  | pollAgain {s : Executor F ι} (hc : s.control = .pollInterrupted) :
      Step s .serve { s with control := if !s.server.stopping then .polling else .returned }
  | polled {s : Executor F ι} {woken listening : Bool} (hc : s.control = .polled woken listening) :
      Step s .serve
        { s with control :=
          if woken ∨ s.server.stopping then .returned
          else if listening then .accepting else .polling }
  | accept {s : Executor F ι} (hc : s.control = .accepting) (fd : ℕ) :
      Step s (.accept (.connection fd))
        { s with
          control := .accepted
          connections := s.connections + 1
          socket := some ⟨fd, s.connections + 1, false⟩ }
  | acceptInterrupted {s : Executor F ι} (hc : s.control = .accepting) :
      Step s (.accept .interrupted) { s with control := .acceptFailed true }
  | acceptFailed {s : Executor F ι} (hc : s.control = .accepting) :
      Step s (.accept .failed) { s with control := .acceptFailed false }
  | acceptReturn {s : Executor F ι} {interrupted : Bool}
      (hc : s.control = .acceptFailed interrupted) :
      Step s .serve
        { s with control := if !s.server.stopping ∧ interrupted then .start else .returned }
  | publish {s : Executor F ι} {k : Socket} (hc : s.control = .accepted) (hk : s.socket = some k) :
      Step s .serve
        { s with
          control := .looping
          connectionFd := k.fd
          framePrefix := List.replicate kFrameLengthBytes 0 }
  | loop {s : Executor F ι} (hc : s.control = .looping) (hs : s.server.stopping = false) :
      Step s .serve { s with control := .reading .framePrefix 0 }
  | loopStopped {s : Executor F ι} (hc : s.control = .looping) (hs : s.server.stopping = true) :
      Step s .serve (s.leave .stopped)
  | read {s : Executor F ι} {part : FramePart} {filled got : ℕ} {peer peer' : Connection}
      {read : Bytes} (hc : s.control = .reading part filled)
      (hlt : filled < (s.buffer part).length)
      (hr : peer.read ((s.buffer part).length - filled) = (.count (got + 1), read, peer')) :
      Step s (.read read)
        { s.fill part filled read with control := .reading part (filled + (got + 1)) }
  | readFailed {s : Executor F ι} {part : FramePart} {filled : ℕ} {peer peer' : Connection}
      {result : SysResult} {read : Bytes} (hc : s.control = .reading part filled)
      (hlt : filled < (s.buffer part).length)
      (hr : peer.read ((s.buffer part).length - filled) = (result, read, peer'))
      (hresult : result = .count 0 ∨ result = .failed) :
      Step s .serve (s.leave .read)
  | readInterrupted {s : Executor F ι} {part : FramePart} {filled : ℕ} {peer peer' : Connection}
      {read : Bytes} (hc : s.control = .reading part filled)
      (hlt : filled < (s.buffer part).length)
      (hr : peer.read ((s.buffer part).length - filled) = (.interrupted, read, peer')) :
      Step s .serve { s with control := .readInterrupted part filled }
  | readAgain {s : Executor F ι} {part : FramePart} {filled : ℕ}
      (hc : s.control = .readInterrupted part filled) (hs : s.server.stopping = false) :
      Step s .serve { s with control := .reading part filled }
  | readStopped {s : Executor F ι} {part : FramePart} {filled : ℕ}
      (hc : s.control = .readInterrupted part filled) (hs : s.server.stopping = true) :
      Step s .serve (s.leave .read)
  /-- The prefix is complete and within the cap. -/
  | length {s : Executor F ι} {filled : ℕ} {length : UInt32}
      (hc : s.control = .reading .framePrefix filled) (hle : s.framePrefix.length ≤ filled)
      (hd : decodeFrameLength s.framePrefix = .ok length) :
      Step s .serve
        { s with
          server := { s.server with body := resize s.server.body length.toNat }
          control := .reading .body 0 }
  | lengthRefused {s : Executor F ι} {filled : ℕ} {error : DecodeError}
      (hc : s.control = .reading .framePrefix filled) (hle : s.framePrefix.length ≤ filled)
      (hd : decodeFrameLength s.framePrefix = .error error) :
      Step s .serve (s.leave .length)
  | answer {s : Executor F ι} {filled : ℕ} (hc : s.control = .reading .body filled)
      (hle : s.server.body.length ≤ filled) (moment : Moment) :
      Step s .answer (s.answer moment)
  | send {s : Executor F ι} {moment : Moment} {decoded : Decoded (WakeMessage F)} {sent wrote : ℕ}
      {peer peer' : Connection} {bytes : Bytes} (hc : s.control = .sending moment decoded sent)
      (hlt : sent < s.server.ack.length)
      (hr : peer.send (s.server.ack.drop sent) = (.count wrote, bytes, peer')) :
      Step s (.send bytes)
        { s with
          control := .sending moment decoded (sent + wrote)
          trace := s.trace ++ (bytes.map .sent).map s.frameEvent }
  | sendFailed {s : Executor F ι} {moment : Moment} {decoded : Decoded (WakeMessage F)} {sent : ℕ}
      {peer peer' : Connection} {bytes : Bytes} (hc : s.control = .sending moment decoded sent)
      (hlt : sent < s.server.ack.length)
      (hr : peer.send (s.server.ack.drop sent) = (.failed, bytes, peer')) :
      Step s .serve (s.leave (ackEnding decoded))
  | sendInterrupted {s : Executor F ι} {moment : Moment} {decoded : Decoded (WakeMessage F)}
      {sent : ℕ} {peer peer' : Connection} {bytes : Bytes}
      (hc : s.control = .sending moment decoded sent) (hlt : sent < s.server.ack.length)
      (hr : peer.send (s.server.ack.drop sent) = (.interrupted, bytes, peer')) :
      Step s .serve { s with control := .sendInterrupted moment decoded sent }
  | sendAgain {s : Executor F ι} {moment : Moment} {decoded : Decoded (WakeMessage F)} {sent : ℕ}
      (hc : s.control = .sendInterrupted moment decoded sent) (hs : s.server.stopping = false) :
      Step s .serve { s with control := .sending moment decoded sent }
  | sendStopped {s : Executor F ι} {moment : Moment} {decoded : Decoded (WakeMessage F)} {sent : ℕ}
      (hc : s.control = .sendInterrupted moment decoded sent) (hs : s.server.stopping = true) :
      Step s .serve (s.leave (ackEnding decoded))
  | rejected {s : Executor F ι} {moment : Moment} {error : DecodeError} {sent : ℕ}
      (hc : s.control = .sending moment (.error error) sent) (hle : s.server.ack.length ≤ sent) :
      Step s .serve { s with control := .looping }
  | fire {s : Executor F ι} {moment : Moment} {message : WakeMessage F} {sent : ℕ}
      (hc : s.control = .sending moment (.ok message) sent) (hle : s.server.ack.length ≤ sent) :
      Step s .serve (s.fire moment message)
  | unpublish {s : Executor F ι} (hc : s.control = .leaving) :
      Step s .serve { s with control := .closing, connectionFd := -1 }
  | close {s : Executor F ι} (hc : s.control = .closing) :
      Step s .serve { s with control := .closed, socket := none }
  | finish {s : Executor F ι} (hc : s.control = .closed) :
      Step s .serve { s with control := if !s.server.stopping then .start else .returned }
  /-- `serve_forever` may be called again after it returned. -/
  | call {s : Executor F ι} (hc : s.control = .returned) :
      Step s .call { s with control := .start }
  | stopStore {s : Executor F ι} {i : ι} (hi : s.stoppers i = .idle) :
      Step s (.stop i) ({ s with server := { s.server with stopping := true } }.stopper i .stored)
  | stopWrite {s : Executor F ι} {i : ι} (hi : s.stoppers i = .stored) :
      Step s (.stop i)
        ({ s with pipe := if 0 ≤ s.descriptors.wakeWriteFd then s.pipe + 1 else s.pipe }.stopper i
          .written)
  | stopLoad {s : Executor F ι} {i : ι} (hi : s.stoppers i = .written) :
      Step s (.stop i)
        (s.stopper i (if 0 ≤ s.connectionFd then .loaded s.connectionFd else .done))
  | stopShutdown {s : Executor F ι} {i : ι} {fd : ℤ} (hi : s.stoppers i = .loaded fd) :
      Step s (.stop i) ({ s with socket := s.socket.map (Socket.shutdown fd) }.stopper i .done)

end Executor

end Hotpath
