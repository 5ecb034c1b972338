import Hotpath.Bench.AckedFires
import Hotpath.Executor.StopBound

set_option relaxedAutoImplicit false
set_option autoImplicit false

/-!
# How long a call takes

While a call of `send_wake` is in step with the server, either side may wait for the other, but
never both: what the one has to read the other has sent or can send. The steps that a call takes
are bounded by the length of its frame, the cap and the length of the longest ack, but for system
calls that are interrupted or move nothing, and for those who call `stop`.

## Main definitions

* `Hotpath.Exchange.Advances` — a step that is not the retry of a system call.
* `Hotpath.Exchange.rank` — how many of these are left at most.
* `Hotpath.Exchange.CanAdvance` — one of these can be taken, and no system call need fail for it.

## Main results

* `Hotpath.Exchange.call_returns`.
-/

namespace Hotpath

open System (Run Takes)

variable {F ι : Type}

/-- An interrupted system call is to be made again. -/
def Control.resumed : Control F → Control F
  | .readInterrupted part filled => .reading part filled
  | .sendInterrupted moment decoded sent => .sending moment decoded sent
  | c => c

/-! ## The server's steps -/

namespace Executor

/-- How many steps the serving thread takes until it reads, or has left the connection; `more` is
one if a frame is to come and none otherwise. -/
def untilRead (e : Executor F ι) (more : ℕ) : ℕ :=
  match e.control.resumed with
  | .looping => 2 + 2 * more
  | .reading .framePrefix _ => 1 + 2 * more
  | .reading .body _ => 1 + more
  | .sending _ _ sent => e.server.ack.length - sent + (3 + 2 * more)
  | _ => 0

variable [DecidableEq ι] [Double F] [CharConv F] {e e' : Executor F ι} {m : ℕ}

/-- A `read` moves some bytes. -/
private lemma untilRead_read {read : Bytes} (hs : e.Step (.read read) e') :
    e'.untilRead m = e.untilRead m ∧ 0 < read.length := by
  cases hs with
  | @read part _ _ _ _ _ hc _ hr =>
    have hlen := (Connection.length_of_read hr).1
    refine ⟨?_, by omega⟩
    cases part <;> simp only [untilRead, hc, Control.resumed]

omit [DecidableEq ι] in
/-- An ack is sent in fewer steps than are counted for a frame that is to come. -/
private lemma untilRead_answer {filled : ℕ} (hc : e.control = .reading .body filled)
    (hcap : e.server.body.length ≤ kMaxFrameBytes) (moment : Moment) :
    (e.answer moment).untilRead 0 < e.untilRead 1 + (6 * kMaxFrameBytes + 500) := by
  have hack := length_answer hcap moment
  have hbefore : e.untilRead 1 = 2 := by
    rw [untilRead, hc]
    rfl
  have hafter : (e.answer moment).untilRead 0 = (e.answer moment).server.ack.length - 0 + 3 := rfl
  rw [hbefore, hafter]
  generalize kMaxFrameBytes = cap at hack ⊢
  omega

/-- A `send` brings the next read nearer. -/
private lemma untilRead_send {sent : Bytes} (hs : e.Step (.send sent) e') :
    e'.untilRead m < e.untilRead m := by
  cases hs with
  | send hc hlt hr =>
    have hwrote := pos_of_send (by simpa using hlt) hr
    simp only [untilRead, hc, Control.resumed]
    omega

/-- A step of `stop` brings the next read no nearer. -/
private lemma untilRead_stop {i : ι} (hs : e.Step (.stop i) e') :
    e'.control = e.control ∧ e'.untilRead m = e.untilRead m := by
  cases hs with
  | stopStore _ | stopWrite _ | stopLoad _ | stopShutdown _ => exact ⟨rfl, rfl⟩

/-- A step of the serving thread by itself brings its next read nearer, unless it only makes a
system call again. -/
private lemma untilRead_serve (hs : e.Step .serve e')
    (hp : e.place = .looping ∨ e.place = .reading ∨ e.place = .sending)
    (hmore : ∀ filled, e.control = .reading .framePrefix filled →
      e.framePrefix.length ≤ filled → 0 < m) :
    e'.untilRead m < e.untilRead m ∨
      e'.control.resumed = e.control.resumed ∧ e'.untilRead m = e.untilRead m := by
  have hnot : ∀ {c : Control F}, e.control = c →
      c.place ≠ .looping ∧ c.place ≠ .reading ∧ c.place ≠ .sending → False := by
    rintro c rfl ⟨h₁, h₂, h₃⟩
    exact hp.elim h₁ fun h => h.elim h₂ h₃
  cases hs with
  | start hc | pollAgain hc | polled hc | acceptReturn hc | publish hc _ | unpublish hc
  | close hc | finish hc => exact (hnot hc (by simp [Control.place])).elim
  | loop hc _ =>
    left
    simp only [untilRead, hc, Control.resumed]
    omega
  | loopStopped hc _ =>
    left
    simp only [untilRead, hc, Control.resumed, leave]
    omega
  | @readFailed part _ _ _ _ _ hc _ _ _ | @readStopped part _ hc _ =>
    left
    cases part <;> simp only [untilRead, hc, Control.resumed, leave] <;> omega
  | lengthRefused hc _ _ =>
    left
    simp only [untilRead, hc, Control.resumed, leave]
    omega
  | sendFailed hc _ _ | sendStopped hc _ =>
    left
    simp only [untilRead, hc, Control.resumed, leave]
    omega
  | @readInterrupted part _ _ _ _ hc _ _ | @readAgain part _ hc _ =>
    right
    cases part <;> simp only [untilRead, hc, Control.resumed, and_self]
  | sendInterrupted hc _ _ | sendAgain hc _ =>
    right
    simp only [untilRead, hc, Control.resumed, and_self]
  | @length filled _ hc hle _ =>
    left
    have hpos := hmore filled hc hle
    simp only [untilRead, hc, Control.resumed]
    omega
  | rejected hc _ | fire hc _ =>
    left
    simp only [untilRead, hc, Control.resumed, Executor.fire]
    omega

end Executor

/-- How many steps a call of `send_wake` takes at most by itself. -/
def PollerClient.left (c : PollerClient) : ℕ :=
  match c.control with
  | .idle => 0
  | .sending sent => c.frame.length - sent + (kMaxFrameBytes + 7)
  | .reading .framePrefix filled => c.framePrefix.length - filled + (kMaxFrameBytes + 2)
  | .reading .body filled => c.body.length - filled + 1

/-! ## The account of a call -/

/-- A part of a length prefix is no frame. -/
private lemma not_isFrame_of_lt {w : Bytes} (h : w.length < kFrameLengthBytes) : ¬ IsFrame w := by
  rintro ⟨header, body, hlen, -, rfl⟩
  rw [List.length_append] at h
  omega

/-- A length prefix and a part of the body are none. -/
private lemma not_isFrame_of_body {header body : Bytes} {length : UInt32}
    (hd : decodeFrameLength header = .ok length) (h : body.length < length.toNat) :
    ¬ IsFrame (header ++ body) := by
  rintro ⟨header', body', hlen', hbody', heq⟩
  unfold decodeFrameLength at hd
  split_ifs at hd with hlen hcap
  obtain rfl := Except.ok.inj hd
  obtain ⟨rfl, rfl⟩ := List.append_inj heq ((not_not.mp hlen).trans hlen'.symm)
  omega

/-- The length prefix of a frame within the cap is accepted. -/
private lemma decode_of_isFrame {header rest : Bytes} (h : IsFrame (header ++ rest))
    (hlen : header.length = kFrameLengthBytes)
    (hcap : (header ++ rest).length ≤ kFrameLengthBytes + kMaxFrameBytes) :
    ∃ length, decodeFrameLength header = .ok length := by
  obtain ⟨header', body, hlen', hbody, heq⟩ := h
  obtain ⟨rfl, rfl⟩ := List.append_inj heq (hlen.trans hlen'.symm)
  rw [List.length_append, hlen] at hcap
  refine ⟨frameLength header, ?_⟩
  rw [decodeFrameLength, if_neg (not_not.mpr hlen), if_neg (by omega)]

/-- A peer that has sent one byte. -/
private lemma Connection.read_one (b : UInt8) {n : ℕ} (hn : 0 < n) :
    (sender [b]).read n = (.count (0 + 1), [b], sender []) := by
  obtain ⟨k, rfl⟩ := Nat.exists_eq_succ_of_ne_zero hn.ne'
  simp [sender, Connection.read, Connection.receive]

namespace Exchange

variable {s s' : Exchange F ι}

/-- A call has sent a beginning of its frame. -/
private lemma sentNow_begins (c : PollerClient) : c.sentNow <+: c.frame := by
  unfold PollerClient.sentNow
  split
  · exact List.nil_prefix
  · exact List.take_prefix _ _
  · exact List.prefix_rfl

/-- What was sent and answered since a call began: the frame of the call was not answered and the
call has read nothing, or it was answered and all of it is read by the server. -/
inductive Account (s : Exchange F ι) (part unsent : Bytes) : Prop
  | unanswered (hanswered : (s.answered.map Prod.fst).flatten = s.writtenBefore)
      (hsent : s.client.sentNow = part ++ s.toServer) (hread : s.client.readNow = [])
      (hin : s.toClient = []) (hunsent : unsent = [])
  | answered (ack : Bytes)
      (hanswered : (s.answered.map Prod.fst).flatten = s.writtenBefore ++ s.client.frame)
      (hpart : part = []) (hout : s.toServer = [])
      (hack : IsFrame ack ∧ ack.length ≤ 6 * kMaxFrameBytes + 498)
      (hread : ack = s.client.readNow ++ s.toClient ++ unsent)

/-! ## The rank -/

/-- How many bytes of the frame of the call the server has still to read. -/
def unread (s : Exchange F ι) : ℕ :=
  s.toServer.length + (s.client.frame.length - s.client.sentNow.length)

/-- One if the frame of the call is not answered, none otherwise. -/
def more (s : Exchange F ι) : ℕ :=
  if (s.answered.map Prod.fst).flatten = s.writtenBefore then 1 else 0

/-- How many steps the two sides take at most until the call returns. -/
def rank (s : Exchange F ι) : ℕ :=
  s.client.left + s.unread + s.executor.untilRead s.more + s.more * (6 * kMaxFrameBytes + 500)

/-- A step goes on: it is no retry of an interrupted system call, none that moves nothing, and none
of `stop`. -/
def Advances (s s' : Exchange F ι) : Prop :=
  ¬ (s'.client = s.client ∧ s'.toServer = s.toServer ∧ s'.toClient = s.toClient ∧
    s'.executor.control.resumed = s.executor.control.resumed)

/-- A frame that is read in part is not answered. -/
private lemma Account.of_part {part unsent : Bytes} (h : Account s part unsent) (hne : part ≠ []) :
    (s.answered.map Prod.fst).flatten = s.writtenBefore := by
  cases h with
  | unanswered hanswered => exact hanswered
  | answered _ _ hpart => exact absurd hpart hne

/-- The rank when the server takes a step. -/
private lemma rank_of_server (s s' : Exchange F ι) (hclient : s'.client = s.client)
    (hmore : s'.more = s.more) :
    s'.rank + (s.toServer.length + s.executor.untilRead s.more) =
      s.rank + (s'.toServer.length + s'.executor.untilRead s.more) := by
  unfold rank unread
  rw [hclient, hmore]
  generalize kMaxFrameBytes = cap
  omega

/-- The rank when the frame of the call is answered. -/
private lemma rank_of_answered (hclient : s'.client = s.client) (hout : s'.toServer = s.toServer)
    (hmore : s.more = 1) (hmore' : s'.more = 0) (huntil : s'.executor.untilRead 0 <
      s.executor.untilRead 1 + (6 * kMaxFrameBytes + 500)) : s'.rank < s.rank := by
  unfold rank unread
  rw [hclient, hout, hmore, hmore', zero_mul, one_mul]
  generalize kMaxFrameBytes = cap at huntil ⊢
  omega

/-- The rank when the client takes a step. -/
private lemma rank_lt_of_client (hexecutor : s'.executor = s.executor) (hmore : s'.more = s.more)
    (hlt : s'.client.left + s'.unread < s.client.left + s.unread) : s'.rank < s.rank := by
  unfold rank
  rw [hexecutor, hmore]
  generalize kMaxFrameBytes = cap
  omega

/-! ## The steps of a call -/

variable [Double F] [CharConv F]

/-- A call in step has an account of its bytes. -/
private lemma InCall.account (h : InCall s) (hserved : Served s) :
    ∃ part unsent, Progress s.executor part unsent ∧ Account s part unsent := by
  obtain ⟨earlier, later, hanswered, hfst, hsnd⟩ := h.settled
  obtain ⟨-, hall, part, unsent, hprogress, hserver, hacks⟩ := hserved
  rw [hanswered, List.map_append, List.flatten_append, hfst, h.written, List.append_assoc,
    List.append_assoc] at hserver
  rw [hanswered, List.map_append, List.flatten_append, hsnd, h.consumed, List.append_assoc,
    List.append_assoc] at hacks
  have hserver' := List.append_cancel_left hserver
  have hacks' := List.append_cancel_left hacks
  have hlater : ∀ x ∈ later, Answered F x := fun x hx =>
    hall x (by rw [hanswered]; exact List.mem_append_right _ hx)
  have hwords : ∀ w ∈ later.map Prod.fst, IsFrame w := by
    intro w hw
    obtain ⟨x, hx, rfl⟩ := List.mem_map.mp hw
    exact (hlater x hx).1
  refine ⟨part, unsent, hprogress, ?_⟩
  have hbegin : (later.map Prod.fst).flatten <+: s.client.frame :=
    List.IsPrefix.trans ⟨_, hserver'.symm⟩ (sentNow_begins _)
  rcases prefixFree_isFrame.flatten_prefix hwords h.isFrame hbegin with hnil | hone
  · obtain rfl : later = [] := List.map_eq_nil_iff.mp hnil
    have hnone := List.append_eq_nil_iff.mp hacks'.symm
    have hnone' := List.append_eq_nil_iff.mp hnone.2
    refine .unanswered ?_ hserver' hnone.1 hnone'.1 hnone'.2
    rw [hanswered, List.append_nil, hfst]
  · obtain ⟨⟨frame, ack⟩, rfl, hx⟩ := List.map_eq_singleton_iff.mp hone
    obtain ⟨-, hcap, startedAtMs, hack⟩ := hlater (frame, ack) (by simp)
    obtain rfl : frame = s.client.frame := hx
    have hback : s.client.sentNow = s.client.frame ++ (part ++ s.toServer) := by
      simpa using hserver'
    have hnone : part ++ s.toServer = [] := by
      have hle := (sentNow_begins s.client).length_le
      rw [hback, List.length_append] at hle
      exact List.eq_nil_of_length_eq_zero (by omega)
    refine .answered ack ?_ (List.append_eq_nil_iff.mp hnone).1 (List.append_eq_nil_iff.mp hnone).2
      ⟨?_, ?_⟩ (by simpa using hacks')
    · rw [hanswered, List.map_append, List.flatten_append, hfst]
      simp
    · rw [show ack = _ from hack, encodeWakeAckInto_eq F]
      exact isFrame_writeLengthPrefix (length_ack_lt startedAtMs hcap)
    · rw [show ack = _ from hack]
      exact Executor.length_ackFrame_le hcap startedAtMs []

variable [DecidableEq ι]

/-- Every step in a call lowers the rank, unless it does not go on. -/
private lemma InCall.rank_step (h : InCall s) (hserved : Served s)
    (hne : s.client.control ≠ .idle) (hs : Step s .internal s') :
    s'.client.control ≠ .idle ∧ s'.client.frame = s.client.frame ∧
      (s'.rank < s.rank ∨ ¬ Advances s s' ∧ s'.rank = s.rank) := by
  obtain ⟨part, unsent, hprogress, hacc⟩ := h.account hserved
  cases hs with
  | @serverRead e read rest _ hs hin =>
    obtain ⟨huntil, hpos⟩ := Executor.untilRead_read (m := s.more) hs
    have hrank := rank_of_server s { s with executor := e, toServer := rest } rfl rfl
    dsimp only at hrank
    rw [hin, List.length_append] at hrank
    refine ⟨hne, rfl, .inl ?_⟩
    omega
  | serverAnswer _ hs =>
    cases hs with
    | @answer filled hc hle moment =>
      rw [Progress, hc] at hprogress
      obtain ⟨⟨length, hd, hbody⟩, -, hpart, -⟩ := hprogress
      have hheader : s.executor.framePrefix ≠ [] := by
        rw [← List.length_pos_iff, hserved.1]
        decide
      have hbefore := hacc.of_part (by rw [hpart]; simp [hheader])
      have hmore : s.more = 1 := if_pos hbefore
      have huntil :=
        Executor.untilRead_answer hc (hbody ▸ Executor.le_of_decodeFrameLength hd) moment
      refine ⟨hne, rfl, .inl (rank_of_answered rfl rfl hmore ?_ huntil)⟩
      refine if_neg ?_
      show (List.map Prod.fst (s.answered ++ _)).flatten ≠ s.writtenBefore
      rw [List.map_append, List.flatten_append, hbefore]
      simp [hheader]
  | @serverSend e sent _ hs =>
    have huntil := Executor.untilRead_send (m := s.more) hs
    have hrank := rank_of_server s
      { s with executor := e, toClient := s.toClient ++ sent } rfl rfl
    refine ⟨hne, rfl, .inl ?_⟩
    dsimp only at hrank
    omega
  | @server e hp hs =>
    have hmore : ∀ filled, s.executor.control = .reading .framePrefix filled →
        s.executor.framePrefix.length ≤ filled → 0 < s.more := by
      intro filled hc hle
      rw [Progress, hc] at hprogress
      obtain ⟨-, hpart, -⟩ := hprogress
      have hheader : part ≠ [] := by
        rw [hpart, List.take_of_length_le hle, ← List.length_pos_iff, hserved.1]
        decide
      rw [more, if_pos (hacc.of_part hheader)]
      exact one_pos
    have hrank := rank_of_server s { s with executor := e } rfl rfl
    dsimp only at hrank
    refine ⟨hne, rfl, ?_⟩
    rcases Executor.untilRead_serve hs hp hmore with hlt | ⟨hcontrol, heq⟩
    · exact .inl (by omega)
    · exact .inr ⟨not_not.mpr ⟨rfl, rfl, rfl, hcontrol⟩, by omega⟩
  | @stop e i hs =>
    obtain ⟨hcontrol, heq⟩ := Executor.untilRead_stop (m := s.more) hs
    have hrank := rank_of_server s { s with executor := e } rfl rfl
    dsimp only at hrank
    refine ⟨hne, rfl, .inr ⟨not_not.mpr ⟨rfl, rfl, rfl, congrArg _ hcontrol⟩, by omega⟩⟩
  | @send sent hc hlt wrote hle =>
    refine ⟨by rintro ⟨⟩, rfl, ?_⟩
    rcases Nat.eq_zero_or_pos wrote with rfl | hpos
    · refine .inr ⟨not_not.mpr ⟨?_, by simp, rfl, rfl⟩, ?_⟩
      · rw [Nat.add_zero, ← hc]
      · rw [Nat.add_zero, ← hc, List.take_zero, List.append_nil, List.append_nil]
    · refine .inl (rank_lt_of_client rfl rfl ?_)
      simp only [unread, PollerClient.sentNow, PollerClient.left, hc, List.length_append,
        List.length_take, List.length_drop]
      omega
  | @sent sent hc hle =>
    have hfour : kFrameLengthBytes = 4 := rfl
    refine ⟨by rintro ⟨⟩, rfl, .inl (rank_lt_of_client rfl rfl ?_)⟩
    simp only [unread, PollerClient.sentNow, PollerClient.left, hc, List.length_replicate,
      List.take_of_length_le hle]
    omega
  | @read part filled read rest hc hread hle hin =>
    have hpos := List.length_pos_iff.mpr hread
    have hfill := (take_fill hle).2
    cases part with
    | framePrefix =>
      replace hle : filled + read.length ≤ s.client.framePrefix.length := hle
      replace hfill : (s.client.fill .framePrefix filled read).framePrefix.length =
        s.client.framePrefix.length := hfill
      refine ⟨by rintro ⟨⟩, rfl, .inl (rank_lt_of_client rfl rfl ?_)⟩
      show (s.client.fill .framePrefix filled read).framePrefix.length - (filled + read.length) + _
        + _ < _
      rw [hfill]
      simp only [unread, PollerClient.sentNow, PollerClient.left, hc, PollerClient.fill]
      omega
    | body =>
      replace hle : filled + read.length ≤ s.client.body.length := hle
      replace hfill : (s.client.fill .body filled read).body.length = s.client.body.length := hfill
      refine ⟨by rintro ⟨⟩, rfl, .inl (rank_lt_of_client rfl rfl ?_)⟩
      show (s.client.fill .body filled read).body.length - (filled + read.length) + _ + _ < _
      rw [hfill]
      simp only [unread, PollerClient.sentNow, PollerClient.left, hc, PollerClient.fill]
      omega
  | @length filled length hc hle hd =>
    have hcap := Executor.le_of_decodeFrameLength hd
    refine ⟨by rintro ⟨⟩, rfl, .inl (rank_lt_of_client rfl rfl ?_)⟩
    simp only [unread, PollerClient.sentNow, PollerClient.left, hc, length_resize]
    omega
  | close hc => exact absurd hc hne

omit [Double F] [CharConv F] [DecidableEq ι] in
/-- The serving thread sends what is to be sent and takes few steps more until it reads. -/
private lemma Progress.untilRead_le {e : Executor F ι} {part unsent : Bytes}
    (h : Progress e part unsent) (m : ℕ) : e.untilRead m ≤ unsent.length + (3 + 2 * m) := by
  have hdrop : ∀ sent, unsent = e.server.ack.drop sent →
      e.server.ack.length - sent ≤ unsent.length := by
    rintro sent rfl
    rw [List.length_drop]
  unfold Progress at h
  cases hc : e.control with
  | sending moment decoded sent | sendInterrupted moment decoded sent =>
    rw [hc] at h
    have hle := hdrop _ h.2
    simp only [Executor.untilRead, hc, Control.resumed]
    omega
  | reading part filled | readInterrupted part filled =>
    cases part <;> simp only [Executor.untilRead, hc, Control.resumed] <;> omega
  | _ =>
    simp only [Executor.untilRead, hc, Control.resumed]
    omega

omit [DecidableEq ι] in
/-- The rank is bounded by the lengths of the frame and of the longest ack. -/
private lemma InCall.rank_le (h : InCall s) (hserved : Served s) :
    s.rank ≤ 2 * s.client.frame.length + 7 * kMaxFrameBytes + 512 := by
  obtain ⟨part, unsent, hprogress, hacc⟩ := h.account hserved
  have hfour : kFrameLengthBytes = 4 := rfl
  have hleft : s.client.left ≤ s.client.frame.length + kMaxFrameBytes + 7 := by
    have hwithin := h.within
    unfold PollerClient.Within at hwithin
    unfold PollerClient.left
    cases hc : s.client.control with
    | idle => exact Nat.zero_le _
    | sending sent => simp only; omega
    | reading part filled =>
      rw [hc] at hwithin
      cases part with
      | framePrefix =>
        have hlen := hwithin.1
        simp only
        omega
      | body =>
        obtain ⟨⟨length, hd, hbody⟩, -⟩ := hwithin
        have hcap := Executor.le_of_decodeFrameLength hd
        simp only
        omega
  have hsent := (sentNow_begins s.client).length_le
  have huntil := hprogress.untilRead_le s.more
  unfold rank unread
  cases hacc with
  | unanswered hanswered hsentNow _ _ hunsent =>
    rw [more, if_pos hanswered] at huntil ⊢
    rw [hunsent, List.length_nil] at huntil
    rw [hsentNow, List.length_append] at hsent ⊢
    generalize kMaxFrameBytes = cap at hleft ⊢
    omega
  | answered ack hanswered _ hout hack hread =>
    have hframe := prefixFree_isFrame.ne_nil _ h.isFrame
    have hmore : s.more = 0 := if_neg (by rw [hanswered]; simpa using hframe)
    have hle := hack.2
    rw [hread, List.length_append] at hle
    rw [hmore] at huntil ⊢
    rw [hout, List.length_nil, zero_mul]
    generalize kMaxFrameBytes = cap at hleft hle ⊢
    omega

/-! ## The next step -/

/-- A system call of the client fails. -/
def Fails (s : Exchange F ι) (event : ClientEvent F) : Prop :=
  (∃ failure, event = .returned (.error failure)) ∧ ∀ part filled,
    s.client.control = .reading part filled → filled < (s.client.buffer part).length

omit [DecidableEq ι] [Double F] [CharConv F] in
/-- A call does not fail as long as it does not return. -/
private lemma not_fails_internal (s : Exchange F ι) : ¬ Fails s .internal := by
  rintro ⟨⟨failure, hfailure⟩, -⟩
  cases hfailure

omit [DecidableEq ι] in
/-- While a call waits for its ack and nothing of it is in flight, something of its frame is, if the
server waits too. -/
private lemma InCall.toServer_ne_nil (h : InCall s) (hserved : Served s) {part part' : FramePart}
    {filled filled' : ℕ} (hc : s.client.control = .reading part filled)
    (hlt : filled < (s.client.buffer part).length) (hin : s.toClient = [])
    (hc' : s.executor.control = .reading part' filled')
    (hlt' : filled' < (s.executor.buffer part').length) : s.toServer ≠ [] := by
  obtain ⟨got, unsent, hprogress, hacc⟩ := h.account hserved
  intro hout
  cases hacc with
  | unanswered _ hsent _ _ _ =>
    rw [PollerClient.sentNow_reading hc, hout, List.append_nil] at hsent
    have hframe : IsFrame got := hsent ▸ h.isFrame
    rw [Progress, hc'] at hprogress
    cases part' with
    | framePrefix =>
      replace hlt' : filled' < s.executor.framePrefix.length := hlt'
      refine not_isFrame_of_lt ?_ hframe
      rw [hprogress.2.1, List.length_take]
      exact (min_le_left _ _).trans_lt (hlt'.trans_eq hserved.1)
    | body =>
      replace hlt' : filled' < s.executor.server.body.length := hlt'
      obtain ⟨⟨length, hd, hbody⟩, -, hgot, -⟩ := hprogress
      refine not_isFrame_of_body hd ?_ (hgot ▸ hframe)
      rw [List.length_take, ← hbody]
      exact (min_le_left _ _).trans_lt hlt'
  | answered ack _ _ _ hack hread =>
    have hunsent : unsent = [] := by
      rw [Progress, hc'] at hprogress
      cases part' with
      | framePrefix => exact hprogress.2.2
      | body => exact hprogress.2.2.2
    rw [hin, hunsent, List.append_nil, List.append_nil] at hread
    have hframe : IsFrame s.client.readNow := hread ▸ hack.1
    have hwithin := h.within
    rw [PollerClient.Within, hc] at hwithin
    cases part with
    | framePrefix =>
      replace hlt : filled < s.client.framePrefix.length := hlt
      rw [PollerClient.readNow_framePrefix hc] at hframe
      refine not_isFrame_of_lt ?_ hframe
      rw [List.length_take]
      exact (min_le_left _ _).trans_lt (hlt.trans_eq hwithin.1)
    | body =>
      replace hlt : filled < s.client.body.length := hlt
      obtain ⟨⟨length, hd, hbody⟩, -⟩ := hwithin
      rw [PollerClient.readNow_body hc] at hframe
      refine not_isFrame_of_body hd ?_ hframe
      rw [List.length_take, ← hbody]
      exact (min_le_left _ _).trans_lt hlt

/-- A server that reads may read what is in flight, or go on with what it has read. -/
private lemma InCall.server_reads (h : InCall s) (hserved : Served s) (hserves : s.Serves)
    (hcap : s.client.frame.length ≤ kFrameLengthBytes + kMaxFrameBytes) {part : FramePart}
    {filled : ℕ} (hc : s.executor.control = .reading part filled)
    (hne : filled < (s.executor.buffer part).length → s.toServer ≠ []) :
    ∃ s', Step s .internal s' ∧ Advances s s' ∧ s'.Serves := by
  by_cases hlt : filled < (s.executor.buffer part).length
  · obtain ⟨b, rest, hin⟩ := List.exists_cons_of_ne_nil (hne hlt)
    refine ⟨_, .serverRead hserves (.read hc hlt (Connection.read_one b (Nat.sub_pos_of_lt hlt)))
      (show s.toServer = [b] ++ rest from hin), ?_, .inr (.inl rfl)⟩
    rintro ⟨-, hout, -⟩
    have hlen := congrArg List.length (hout.trans hin)
    simp at hlen
  have hle := Nat.le_of_not_lt hlt
  cases part with
  | body =>
    refine ⟨_, .serverAnswer hserves (.answer hc hle ⟨0, 0, 0, 0, ⟨0, ⟨false, false⟩⟩⟩), ?_,
      .inr (.inr rfl)⟩
    rintro ⟨-, -, -, hcontrol⟩
    rw [hc] at hcontrol
    cases hcontrol
  | framePrefix =>
    replace hle : s.executor.framePrefix.length ≤ filled := hle
    obtain ⟨got, unsent, hprogress, hacc⟩ := h.account hserved
    rw [Progress, hc] at hprogress
    obtain ⟨-, hgot, -⟩ := hprogress
    rw [List.take_of_length_le hle] at hgot
    cases hacc with
    | answered _ _ hpart =>
      have hlen := hserved.1
      rw [← hgot, hpart] at hlen
      cases hlen
    | unanswered _ hsent _ _ _ =>
      -- the prefix is that of the frame of the call
      obtain ⟨t, ht⟩ := sentNow_begins s.client
      rw [hsent, hgot, List.append_assoc] at ht
      obtain ⟨length, hd⟩ := decode_of_isFrame (ht ▸ h.isFrame) hserved.1 (ht ▸ hcap)
      refine ⟨_, .server hserves (.length hc hle hd), ?_, .inr (.inl rfl)⟩
      rintro ⟨-, -, -, hcontrol⟩
      rw [hc] at hcontrol
      cases hcontrol

/-- While a call waits for its ack and nothing of it is in flight, the server has a step to take. -/
private lemma InCall.server_advances (h : InCall s) (hserved : Served s) (hserves : s.Serves)
    (hcap : s.client.frame.length ≤ kFrameLengthBytes + kMaxFrameBytes) {part : FramePart}
    {filled : ℕ} (hc : s.client.control = .reading part filled)
    (hlt : filled < (s.client.buffer part).length) (hin : s.toClient = [])
    (hresumed : s.executor.control.resumed = s.executor.control) :
    ∃ s', Step s .internal s' ∧ Advances s s' ∧
      (s'.Serves ∨ s.executor.server.stopping = true) := by
  have hmoved : ∀ {c : Control F}, s.executor.control = c → ∀ {s' : Exchange F ι},
      s'.executor.control.resumed ≠ c.resumed → Advances s s' := by
    rintro c rfl s' hne ⟨-, -, -, hcontrol⟩
    exact hne hcontrol
  cases hcontrol : s.executor.control with
  | looping =>
    cases hstop : s.executor.server.stopping with
    | false =>
      exact ⟨_, .server hserves (.loop hcontrol hstop), hmoved hcontrol (by rintro ⟨⟩),
        .inl (.inr (.inl rfl))⟩
    | true =>
      exact ⟨_, .server hserves (.loopStopped hcontrol hstop), hmoved hcontrol (by rintro ⟨⟩),
        .inr rfl⟩
  | reading part' filled' =>
    obtain ⟨s', hs, hadvances, hserves'⟩ := h.server_reads hserved hserves hcap hcontrol
      fun hlt' => h.toServer_ne_nil hserved hc hlt hin hcontrol hlt'
    exact ⟨s', hs, hadvances, .inl hserves'⟩
  | sending moment decoded sent =>
    by_cases hlt' : sent < s.executor.server.ack.length
    · have hsend : (Connection.sender []).send (s.executor.server.ack.drop sent) =
          (.count (s.executor.server.ack.drop sent).length, s.executor.server.ack.drop sent,
            Connection.sender []) := rfl
      refine ⟨_, .serverSend hserves (.send hcontrol hlt' hsend), hmoved hcontrol ?_,
        .inl (.inr (.inr rfl))⟩
      simp only [Control.resumed, ne_eq, Control.sending.injEq, true_and, List.length_drop]
      omega
    · have hle := Nat.le_of_not_lt hlt'
      cases decoded with
      | error error =>
        exact ⟨_, .server hserves (.rejected hcontrol hle), hmoved hcontrol (by rintro ⟨⟩),
          .inl (.inl rfl)⟩
      | ok message =>
        exact ⟨_, .server hserves (.fire hcontrol hle), hmoved hcontrol (by rintro ⟨⟩),
          .inl (.inl rfl)⟩
  | readInterrupted part' filled' =>
    rw [hcontrol] at hresumed
    cases hresumed
  | sendInterrupted moment decoded sent =>
    rw [hcontrol] at hresumed
    cases hresumed
  | _ => simp [Serves, Executor.place, hcontrol, Control.place] at hserves

/-- A step is there that goes on and in which no system call fails. The server serves the connection
after it, if it was not told to stop. -/
private lemma InCall.advances (h : InCall s) (hserved : Served s)
    (hne : s.client.control ≠ .idle) (hserves : s.Serves)
    (hcap : s.client.frame.length ≤ kFrameLengthBytes + kMaxFrameBytes)
    (hresumed : s.executor.control.resumed = s.executor.control) :
    ∃ event s', Step s event s' ∧ Advances s s' ∧ ¬ Fails s event ∧
      (s'.Serves ∨ s.executor.server.stopping = true) := by
  have hmoved : ∀ {c : ClientControl}, s.client.control = c → ∀ {s' : Exchange F ι},
      s'.client.control ≠ c → Advances s s' := by
    rintro c rfl s' hne ⟨hclient, -⟩
    exact hne (congrArg PollerClient.control hclient)
  cases hc : s.client.control with
  | idle => exact absurd hc hne
  | sending sent =>
    by_cases hlt : sent < s.client.frame.length
    · refine ⟨_, _, .send hc hlt (s.client.frame.length - sent) (by omega), hmoved hc ?_,
        s.not_fails_internal, .inl hserves⟩
      simp only [ne_eq, ClientControl.sending.injEq]
      omega
    · exact ⟨_, _, .sent hc (Nat.le_of_not_lt hlt), hmoved hc (by rintro ⟨⟩), s.not_fails_internal,
        .inl hserves⟩
  | reading part filled =>
    by_cases hlt : filled < (s.client.buffer part).length
    · by_cases hin : s.toClient = []
      · obtain ⟨s', hs, hadvances, hserves'⟩ :=
          h.server_advances hserved hserves hcap hc hlt hin hresumed
        exact ⟨_, s', hs, hadvances, s.not_fails_internal, hserves'⟩
      · obtain ⟨b, rest, hcons⟩ := List.exists_cons_of_ne_nil hin
        have hread := Step.read hc (List.cons_ne_nil b []) hlt
          (show s.toClient = [b] ++ rest from hcons)
        refine ⟨_, _, hread, ?_, s.not_fails_internal, .inl hserves⟩
        rintro ⟨-, -, hout, -⟩
        have hlen := congrArg List.length (hout.trans hcons)
        simp at hlen
    · have hle := Nat.le_of_not_lt hlt
      have hread : ∀ event, ¬ Fails s event := fun event hfails => hlt (hfails.2 part filled hc)
      cases part with
      | framePrefix =>
        cases hd : decodeFrameLength s.client.framePrefix with
        | error error =>
          exact ⟨_, _, .lengthRefused hc hle hd, hmoved hc (by rintro ⟨⟩), hread _, .inl hserves⟩
        | ok length =>
          exact ⟨_, _, .length hc hle hd, hmoved hc (by rintro ⟨⟩), hread _, .inl hserves⟩
      | body =>
        cases hd : decodeWakeAck s.client.body with
        | error error =>
          exact ⟨_, _, .ackRefused hc hle hd, hmoved hc (by rintro ⟨⟩), hread _, .inl hserves⟩
        | ok ack => exact ⟨_, _, .acked hc hle hd, hmoved hc (by rintro ⟨⟩), hread _, .inl hserves⟩

/-- A step is there that goes on and in which no system call fails, at once or behind an interrupted
one that is made again. The server serves the connection after it, if it was not told to stop. -/
def CanAdvance (s : Exchange F ι) : Prop :=
  ∃ s₁ event s', (s₁ = s ∨ Step s .internal s₁ ∧ ¬ Advances s s₁) ∧ Step s₁ event s' ∧
    Advances s₁ s' ∧ ¬ Fails s₁ event ∧ (s'.Serves ∨ s.executor.server.stopping = true)

/-- A step in a call stays in it. -/
private lemma InCall.step (h : InCall s) (hserved : Served s) (hne : s.client.control ≠ .idle)
    (hs : Step s .internal s') : InCall s' ∧ Served s' := by
  have hclean : Clean (s, (.internal : ClientEvent F)) := trivial
  have hne' := (h.rank_step hserved hne hs).1
  exact ⟨((h.inStep hne).step hserved hclean hs).inCall rfl hne', hserved.step hs⟩

/-- In a call neither side waits for the other for ever. -/
private lemma InCall.canAdvance (h : InCall s) (hserved : Served s)
    (hne : s.client.control ≠ .idle) (hserves : s.Serves)
    (hcap : s.client.frame.length ≤ kFrameLengthBytes + kMaxFrameBytes) : CanAdvance s := by
  -- the call that was interrupted is made again, or is not because of `stop`
  have hagain : ∀ c, c = s.executor.control.resumed → c.place = s.executor.place →
      s.executor.Step .serve { s.executor with control := c } → CanAdvance s := by
    intro c hresumed hplace hs
    have hs₁ := Step.server hserves hs
    obtain ⟨h₁, hserved₁⟩ := h.step hserved hne hs₁
    have hserves₁ : Serves { s with executor := { s.executor with control := c } } := by
      show c.place = _ ∨ c.place = _ ∨ c.place = _
      rwa [hplace]
    have hresumed₁ : c.resumed = c := by
      rw [hresumed]
      cases s.executor.control <;> rfl
    obtain ⟨event, s', hs', hadvances, hfails, hserves'⟩ :=
      h₁.advances hserved₁ hne hserves₁ hcap hresumed₁
    refine ⟨_, event, s', .inr ⟨hs₁, not_not.mpr ⟨rfl, rfl, rfl, ?_⟩⟩, hs', hadvances, hfails,
      hserves'⟩
    exact hresumed₁.trans hresumed
  have hleave : ∀ ending, s.executor.Step .serve (s.executor.leave ending) →
      s.executor.control.resumed ≠ .leaving → s.executor.server.stopping = true →
      CanAdvance s := by
    intro ending hs hcontrol hstop
    refine ⟨s, _, _, .inl rfl, .server hserves hs, ?_, s.not_fails_internal, .inr hstop⟩
    rintro ⟨-, -, -, heq⟩
    exact hcontrol heq.symm
  cases hc : s.executor.control with
  | readInterrupted part filled =>
    cases hstop : s.executor.server.stopping with
    | false =>
      exact hagain _ (by rw [hc]; rfl) (by rw [Executor.place, hc]; rfl) (.readAgain hc hstop)
    | true => exact hleave _ (.readStopped hc hstop) (by rw [hc]; rintro ⟨⟩) hstop
  | sendInterrupted moment decoded sent =>
    cases hstop : s.executor.server.stopping with
    | false =>
      exact hagain _ (by rw [hc]; rfl) (by rw [Executor.place, hc]; rfl) (.sendAgain hc hstop)
    | true => exact hleave _ (.sendStopped hc hstop) (by rw [hc]; rintro ⟨⟩) hstop
  | _ =>
    obtain ⟨event, s', hs, hadvances, hfails, hserves'⟩ :=
      h.advances hserved hne hserves hcap (by rw [hc]; rfl)
    exact ⟨s, event, s', .inl rfl, hs, hadvances, hfails, hserves'⟩

/-! ## Runs -/

/-- **A call returns.** In every run over one connection that is clean so far, from any state in a
call, and with any number of callers of `stop`: the two sides take at most so many steps before the
call returns, not counting system calls that are interrupted or move nothing; and as long as the
server serves the connection and the frame is within the cap, there is a next one in which no system
call fails, so that the two never wait for each other.

**Proof sketch.** Each step lowers the rank: the bytes still to be sent and read, and what the
server has still to do for the frame. If both sides wait, the server has answered the frame or not;
if it has, the whole ack was read, and if not, a part of the frame is not read. -/
theorem call_returns {e : Executor F ι} (hlooping : e.control = .looping)
    (hroom : e.framePrefix.length = kFrameLengthBytes)
    {h : List (Exchange F ι × ClientEvent F)} (hr : Run Step (new e) h s)
    (hclean : ∀ p ∈ h, Clean p) (hcall : s.client.control ≠ .idle) {n : ℕ}
    (ht : Takes (fun s a s' => Step s a s' ∧ a = .internal) (fun s _ s' => Advances s s') s n s') :
    n ≤ 2 * s.client.frame.length + 7 * kMaxFrameBytes + 512 ∧
      (s.client.frame.length ≤ kFrameLengthBytes + kMaxFrameBytes → s'.Serves →
        s'.CanAdvance) := by
  obtain ⟨hserved, hin, -⟩ := accounts_of_run hlooping hroom hr hclean
  have hbegun := hin.inCall rfl hcall
  constructor
  · refine le_trans ?_ (hbegun.rank_le hserved)
    refine ht.le (L := fun s m => (InCall s ∧ Served s) ∧ s.client.control ≠ .idle ∧ s.rank = m)
      ?_ ?_ ⟨⟨hbegun, hserved⟩, hcall, rfl⟩
    · rintro s a s' m ⟨⟨h, hserved⟩, hne, rfl⟩ ⟨hs, rfl⟩ hadvances
      obtain ⟨hne', -, hlt | ⟨hnot, -⟩⟩ := h.rank_step hserved hne hs
      · exact ⟨s'.rank, hlt, h.step hserved hne hs, hne', rfl⟩
      · exact absurd hadvances hnot
    · rintro s a s' m ⟨⟨h, hserved⟩, hne, rfl⟩ ⟨hs, rfl⟩ -
      obtain ⟨hne', -, hrank⟩ := h.rank_step hserved hne hs
      exact ⟨s'.rank, hrank.elim le_of_lt fun h => h.2.le, h.step hserved hne hs, hne', rfl⟩
  · intro hcap hserves
    obtain ⟨h', hr'⟩ := ht.run
    have hend := hr'.invariant (I := fun s' => (InCall s' ∧ Served s') ∧
      s'.client.control ≠ .idle ∧ s'.client.frame = s.client.frame)
      ⟨⟨hbegun, hserved⟩, hcall, rfl⟩ ?_
    · obtain ⟨⟨hcall', hserved'⟩, hne', hframe⟩ := hend
      exact hcall'.canAdvance hserved' hne' hserves (hframe ▸ hcap)
    · rintro s a s' ⟨⟨h, hserved⟩, hne, hframe⟩ ⟨hs, rfl⟩
      obtain ⟨hne', hframe', -⟩ := h.rank_step hserved hne hs
      exact ⟨h.step hserved hne hs, hne', hframe'.trans hframe⟩

/-- A first call, of which the frame was sent. -/
theorem call_returns_first : ∃ (e : Executor SignedZero Unit)
    (h : List (Exchange SignedZero Unit × ClientEvent SignedZero))
    (s s' : Exchange SignedZero Unit), Run Step (new e) h s ∧
      Takes (fun s a s' => Step s a s' ∧ a = .internal) (fun s _ s' => Advances s s') s 1 s' ∧
      1 ≤ 2 * s.client.frame.length + 7 * kMaxFrameBytes + 512 ∧ s'.CanAdvance := by
  obtain ⟨-, e, -, hlooping, -, hroom⟩ := reach_accepted
  obtain ⟨header, length, hframe, hd, hbody⟩ := exists_header firstWake.body (by decide +kernel)
  obtain ⟨hheader, -⟩ := isFrame_of_decode hd hbody
  have hbodyCap : firstWake.body.length ≤ kMaxFrameBytes := by decide +kernel
  obtain ⟨frame, hsent⟩ : ∃ frame, frame = encodeWakeMessageInto firstWake [] := ⟨_, rfl⟩
  have hcap : frame.length ≤ kFrameLengthBytes + kMaxFrameBytes := by
    rw [hsent, encodeWakeMessageInto_eq, hframe, List.length_append, hheader]
    omega
  have hpos : 0 < frame.length := by
    rw [hsent, encodeWakeMessageInto_eq, hframe, List.length_append, hheader]
    exact Nat.lt_add_right _ (by decide : 0 < kFrameLengthBytes)
  obtain ⟨s, hs⟩ : ∃ s : Exchange SignedZero Unit, s = { new e with client :=
      { (new e).client with frame := frame, control := .sending 0 } } := ⟨_, rfl⟩
  have hcall : Step (new e) (.called firstWake) s := by
    rw [hs, hsent]
    exact .call rfl rfl firstWake
  have hsend := Step.send (s := s) (show s.client.control = .sending 0 by rw [hs])
    (by rw [hs]; exact hpos) frame.length (by rw [hs]; exact (Nat.zero_add _).le)
  have hadvances : Advances s { s with
      client := { s.client with control := .sending (0 + frame.length) }
      toServer := s.toServer ++ (s.client.frame.drop 0).take frame.length
      written := s.written ++ (s.client.frame.drop 0).take frame.length } := by
    rintro ⟨hclient, -⟩
    have hcontrol := congrArg PollerClient.control hclient
    rw [hs] at hcontrol
    simp only [ClientControl.sending.injEq] at hcontrol
    omega
  have hr := Run.nil.snoc hcall
  have ht : Takes (fun s a s' => Step s a s' ∧ a = .internal) (fun s _ s' => Advances s s') s 1 _ :=
    .own .nil ⟨hsend, rfl⟩ hadvances
  obtain ⟨hbound, hnext⟩ := call_returns hlooping hroom hr
    (by simpa [Clean] using (by decide +kernel : firstWake.body.length < 2 ^ 32))
    (by rw [hs]; rintro ⟨⟩) ht
  refine ⟨e, _, s, _, hr, ht, hbound, hnext (by rw [hs]; exact hcap) (Or.inl ?_)⟩
  rw [hs]
  exact congrArg Control.place hlooping

end Exchange

end Hotpath
