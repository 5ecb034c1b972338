import Hotpath.Executor.ServerSteps

set_option relaxedAutoImplicit false
set_option autoImplicit false

/-!
# The poller client of the benchmark

`bench/poller_client.cpp` against one connection of the executor: `PollerClient::send_wake` and
the `read_exactly` below it, one system call a step, the server's thread, and the bytes in flight
between them. Either side may take its next step at any time, and a system call moves as many
bytes as it likes.

## Main definitions

* `Hotpath.PollerClient`, `Hotpath.Exchange`.
* `Hotpath.Exchange.Step` — a step of either side.
-/

namespace Hotpath

open Utf8 (bytes)

variable {F ι : Type}

/-- Where a call of `send_wake` is, if there is one. -/
inductive ClientControl where
  | idle
  | sending (sent : ℕ)
  | reading (part : FramePart) (filled : ℕ)
  deriving DecidableEq, Repr

/-- `PollerClient`, of `fd_` whether it is open, with the local buffer of `send_wake`. -/
structure PollerClient where
  connected : Bool
  frame : Bytes
  body : Bytes
  framePrefix : Bytes
  control : ClientControl

namespace PollerClient

/-- The buffer that a part of an ack is read into. -/
def buffer (c : PollerClient) : FramePart → Bytes
  | .framePrefix => c.framePrefix
  | .body => c.body

/-- The bytes of a `read` are in the buffer, behind those that were. -/
def fill (c : PollerClient) (part : FramePart) (filled : ℕ) (read : Bytes) : PollerClient :=
  let out := c.buffer part
  let out := out.take filled ++ read ++ out.drop (filled + read.length)
  let control := .reading part (filled + read.length)
  match part with
  | .framePrefix => { c with framePrefix := out, control := control }
  | .body => { c with body := out, control := control }

/-- The return of `send_wake`. -/
def finish (c : PollerClient) : PollerClient := { c with control := .idle }

end PollerClient

/-- What is seen of a step: that `send_wake` is called, that it returns and what, or neither. -/
inductive ClientEvent (F : Type) where
  | internal
  | called (message : WakeMessage F)
  | returned (result : Except Bytes WakeAck)

/-- A client connected to the executor. -/
structure Exchange (F ι : Type) where
  client : PollerClient
  executor : Executor F ι
  /-- What the client sent and the server did not read yet. -/
  toServer : Bytes
  /-- What the server sent and the client did not read yet. -/
  toClient : Bytes
  /-- All that the client sent. -/
  written : Bytes
  /-- All that the client read. -/
  consumed : Bytes
  /-- All that the client sent before the call of `send_wake`. -/
  writtenBefore : Bytes
  /-- All that the client read before the call of `send_wake`. -/
  consumedBefore : Bytes
  /-- The frames that the server answered, in order, each with the frame of its ack. -/
  answered : List (Bytes × Bytes)

namespace Exchange

/-- A connection that the server has just accepted. -/
def new (executor : Executor F ι) : Exchange F ι where
  client := ⟨true, [], [], [], .idle⟩
  executor := executor
  toServer := []
  toClient := []
  written := []
  consumed := []
  writtenBefore := []
  consumedBefore := []
  answered := []

/-- The server still serves the connection. -/
def Serves (s : Exchange F ι) : Prop :=
  s.executor.place = .looping ∨ s.executor.place = .reading ∨ s.executor.place = .sending

/-- The steps of the two sides. -/
inductive Step [DecidableEq ι] [Double F] [CharConv F] :
    Exchange F ι → ClientEvent F → Exchange F ι → Prop
  | serverRead {s : Exchange F ι} {e : Executor F ι} {read rest : Bytes} (hp : s.Serves)
      (hs : s.executor.Step (.read read) e) (hin : s.toServer = read ++ rest) :
      Step s .internal { s with executor := e, toServer := rest }
  | serverAnswer {s : Exchange F ι} {e : Executor F ι} (hp : s.Serves)
      (hs : s.executor.Step .answer e) :
      Step s .internal
        { s with
          executor := e
          answered := s.answered ++
            [(s.executor.framePrefix ++ s.executor.server.body, e.server.ack)] }
  | serverSend {s : Exchange F ι} {e : Executor F ι} {bytes : Bytes} (hp : s.Serves)
      (hs : s.executor.Step (.send bytes) e) :
      Step s .internal { s with executor := e, toClient := s.toClient ++ bytes }
  | server {s : Exchange F ι} {e : Executor F ι} (hp : s.Serves)
      (hs : s.executor.Step .serve e) :
      Step s .internal { s with executor := e }
  | stop {s : Exchange F ι} {e : Executor F ι} {i : ι} (hs : s.executor.Step (.stop i) e) :
      Step s .internal { s with executor := e }
  /-- `send_wake` of a client that is not connected. -/
  | refuse {s : Exchange F ι} (hc : s.client.control = .idle) (hfd : s.client.connected = false) :
      Step s (.returned (.error (bytes "not connected"))) s
  | call {s : Exchange F ι} (hc : s.client.control = .idle) (hfd : s.client.connected = true)
      (message : WakeMessage F) :
      Step s (.called message)
        { s with
          client := { s.client with
            frame := encodeWakeMessageInto message s.client.frame
            control := .sending 0 }
          writtenBefore := s.written
          consumedBefore := s.consumed }
  /-- A `send` of some bytes; one that is interrupted is made again. -/
  | send {s : Exchange F ι} {sent : ℕ} (hc : s.client.control = .sending sent)
      (hlt : sent < s.client.frame.length) (wrote : ℕ)
      (hle : sent + wrote ≤ s.client.frame.length) :
      Step s .internal
        { s with
          client := { s.client with control := .sending (sent + wrote) }
          toServer := s.toServer ++ (s.client.frame.drop sent).take wrote
          written := s.written ++ (s.client.frame.drop sent).take wrote }
  | sendFailed {s : Exchange F ι} {sent : ℕ} (hc : s.client.control = .sending sent)
      (hlt : sent < s.client.frame.length) (message : Bytes) :
      Step s (.returned (.error (syscallError (bytes "send") message)))
        { s with client := s.client.finish }
  | sent {s : Exchange F ι} {sent : ℕ} (hc : s.client.control = .sending sent)
      (hle : s.client.frame.length ≤ sent) :
      Step s .internal
        { s with client := { s.client with
            framePrefix := List.replicate kFrameLengthBytes 0
            control := .reading .framePrefix 0 } }
  | read {s : Exchange F ι} {part : FramePart} {filled : ℕ} {read rest : Bytes}
      (hc : s.client.control = .reading part filled) (hne : read ≠ [])
      (hle : filled + read.length ≤ (s.client.buffer part).length)
      (hin : s.toClient = read ++ rest) :
      Step s .internal
        { s with
          client := s.client.fill part filled read
          toClient := rest
          consumed := s.consumed ++ read }
  /-- The server's side is closed. -/
  | readClosed {s : Exchange F ι} {part : FramePart} {filled : ℕ}
      (hc : s.client.control = .reading part filled)
      (hlt : filled < (s.client.buffer part).length) :
      Step s (.returned (.error (bytes "executor closed the connection")))
        { s with client := s.client.finish }
  /-- `read` fails: it timed out, was interrupted, or met another error. -/
  | readFailed {s : Exchange F ι} {part : FramePart} {filled : ℕ}
      (hc : s.client.control = .reading part filled)
      (hlt : filled < (s.client.buffer part).length) (message : Bytes) :
      Step s (.returned (.error (syscallError (bytes "read") message)))
        { s with client := s.client.finish }
  | length {s : Exchange F ι} {filled : ℕ} {length : UInt32}
      (hc : s.client.control = .reading .framePrefix filled)
      (hle : s.client.framePrefix.length ≤ filled)
      (hd : decodeFrameLength s.client.framePrefix = .ok length) :
      Step s .internal
        { s with client := { s.client with
            body := resize s.client.body length.toNat
            control := .reading .body 0 } }
  | lengthRefused {s : Exchange F ι} {filled : ℕ} {error : DecodeError}
      (hc : s.client.control = .reading .framePrefix filled)
      (hle : s.client.framePrefix.length ≤ filled)
      (hd : decodeFrameLength s.client.framePrefix = .error error) :
      Step s (.returned (.error (bytes "ack frame length: " ++ error.message)))
        { s with client := s.client.finish }
  | ackRefused {s : Exchange F ι} {filled : ℕ} {error : DecodeError}
      (hc : s.client.control = .reading .body filled) (hle : s.client.body.length ≤ filled)
      (hd : decodeWakeAck s.client.body = .error error) :
      Step s (.returned (.error (bytes "ack body: " ++ error.message)))
        { s with client := s.client.finish }
  | acked {s : Exchange F ι} {filled : ℕ} {ack : WakeAck}
      (hc : s.client.control = .reading .body filled) (hle : s.client.body.length ≤ filled)
      (hd : decodeWakeAck s.client.body = .ok ack) :
      Step s (.returned (.ok ack)) { s with client := s.client.finish }
  | close {s : Exchange F ι} (hc : s.client.control = .idle) :
      Step s .internal { s with client := { s.client with connected := false } }

end Exchange

end Hotpath
