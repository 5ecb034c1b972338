import Hotpath.Executor.ConnectionSpec
import Hotpath.Executor.Server
import Hotpath.Lib.System

set_option relaxedAutoImplicit false
set_option autoImplicit false

/-!
# The server serves a connection as the function does

`serve_connection` is modelled twice: as a function of the peer, `Hotpath.serveConnection`, and as
a part of the steps of the server, between which the steps of other threads may come. What the
function computes is what the steps do where no other thread comes between.

## Main definitions

* `Hotpath.Executor.Stands` — the server stands where the loop of the function does.

## Main results

* `Hotpath.Executor.readExactly_run`, `Hotpath.Executor.sendFrame_run`,
  `Hotpath.Executor.serveConnection_run`.
-/

namespace Hotpath

open System

variable {F ι : Type}

/-- The event of a frame, if it is one. -/
def ServerEvent.event : ServerEvent F → Option (Event F)
  | .frame _ event => some event
  | .ended _ => none

/-- Events of one frame are those events. -/
lemma filterMap_event_frame (n : ℕ) (l : List (Event F)) :
    (l.map (ServerEvent.frame n)).filterMap ServerEvent.event = l := by
  rw [List.filterMap_map]
  exact List.filterMap_some

namespace Executor

/-! ## Buffers -/

/-- The server with other bytes in the buffer of a part of a frame. -/
def withBuffer (e : Executor F ι) (part : FramePart) (out : Bytes) : Executor F ι :=
  match part with
  | .framePrefix => { e with framePrefix := out }
  | .body => { e with server := { e.server with body := out } }

/-- The server amid the `read`s of a part of a frame. -/
def reads (e : Executor F ι) (part : FramePart) (out : Bytes) (filled : ℕ) : Executor F ι :=
  { e.withBuffer part out with control := .reading part filled }

/-- While a part of a frame is read, its buffer holds what was filled in. -/
@[simp] lemma buffer_reads (e : Executor F ι) (part : FramePart) (out : Bytes) (filled : ℕ) :
    (e.reads part out filled).buffer part = out := by
  cases part <;> rfl

/-- Reading leaves the stop flag alone. -/
@[simp] lemma stopping_reads (e : Executor F ι) (part : FramePart) (out : Bytes) (filled : ℕ) :
    (e.reads part out filled).server.stopping = e.server.stopping := by
  cases part <;> rfl

/-- What one call of `read` got is filled in behind what was there. -/
lemma fill_reads (e : Executor F ι) (part : FramePart) (out read : Bytes) (filled : ℕ)
    (control : Control F) :
    { (e.reads part out filled).fill part filled read with control := control } =
      { e.withBuffer part (out.take filled ++ read ++ out.drop (filled + read.length)) with
        control := control } := by
  cases part <;> rfl

/-- Leaving a connection amid a part of a frame, its buffer stays as it is. -/
lemma leave_reads (e : Executor F ι) (part : FramePart) (out : Bytes) (filled : ℕ)
    (ending : Ending) :
    (e.reads part out filled).leave ending = (e.withBuffer part out).leave ending := by
  cases part <;> rfl

variable [DecidableEq ι] [Double F] [CharConv F]

/-! ## `read_exactly` -/

/-- **Reading.** The server reads as `read_exactly` does. -/
lemma readExactly_run {e : Executor F ι} (part : FramePart) {out out' : Bytes}
    {c c' : Connection} {result : ReadResult}
    (h : readExactly c out e.server.stopping = some (result, out', c')) :
    ∃ h s, Run Step (e.reads part out 0) h s ∧ out'.length = out.length ∧
      s = if result = .ok then e.reads part out' out.length
        else (e.withBuffer part out').leave .read := by
  refine Run.of_loop (R := fun b s => b.2.1.length = out.length ∧
    b.1 ≤ out.length ∧ s = e.reads part b.2.1 b.1) (Q := fun a s => a.2.1.length = out.length ∧
      s = if a.1 = .ok then e.reads part a.2.1 out.length
        else (e.withBuffer part a.2.1).leave .read) ?_ ⟨rfl, Nat.zero_le _, rfl⟩ h
  rintro ⟨filled, buffer, c⟩ s ⟨hlen, hle, rfl⟩
  dsimp only at hlen hle ⊢
  have hc : (e.reads part buffer filled).control = .reading part filled := rfl
  by_cases hlt : filled < out.length
  · have hlt' : filled < ((e.reads part buffer filled).buffer part).length := by
      rwa [buffer_reads, hlen]
    obtain ⟨⟨result, read, c'⟩, hr⟩ : ∃ a, c.read (out.length - filled) = a := ⟨_, rfl⟩
    have hr' : c.read (((e.reads part buffer filled).buffer part).length - filled) =
        (result, read, c') := by
      rw [buffer_reads, hlen, hr]
    cases result with
    | count n =>
      cases n with
      | zero =>
        refine Or.inl ⟨(if filled = 0 then .peerClosed else .failed, buffer, c'), _, _,
          by simp [readBody, hlt, hr], Run.nil.snoc (.readFailed hc hlt' hr' (Or.inl rfl)), hlen,
          ?_⟩
        rw [if_neg (by dsimp only; split_ifs <;> rintro ⟨⟩), leave_reads]
      | succ got =>
        obtain ⟨hread, hroom⟩ := Connection.length_of_read hr
        refine Or.inr ⟨(filled + (got + 1), buffer.take filled ++ read ++
            buffer.drop (filled + (got + 1)), c'), _, _, by simp [readBody, hlt, hr],
          Run.nil.snoc (.read hc hlt' hr'), ?_, ?_, ?_⟩
        · rw [← hread, ← hlen]
          exact (take_fill (by omega)).2
        · dsimp only
          omega
        · rw [fill_reads, hread]
          rfl
    | interrupted =>
      have hinterrupted := Run.nil.snoc (Step.readInterrupted hc hlt' hr')
      cases hstopping : e.server.stopping with
      | false =>
        refine Or.inr ⟨(filled, buffer, c'), _, _, by simp [readBody, hlt, hr],
          hinterrupted.snoc (.readAgain rfl ?_), hlen, hle, rfl⟩
        exact (stopping_reads e part buffer filled).trans hstopping
      | true =>
        refine Or.inl ⟨(.failed, buffer, c'), _, _, by simp [readBody, hlt, hr],
          hinterrupted.snoc (.readStopped rfl ?_), hlen, ?_⟩
        · exact (stopping_reads e part buffer filled).trans hstopping
        · rw [if_neg (by rintro ⟨⟩)]
          exact leave_reads e part buffer filled .read
    | failed =>
      refine Or.inl ⟨(.failed, buffer, c'), _, _, by simp [readBody, hlt, hr],
        Run.nil.snoc (.readFailed hc hlt' hr' (Or.inr rfl)), hlen, ?_⟩
      rw [if_neg (by rintro ⟨⟩), leave_reads]
  · obtain rfl : filled = out.length := by omega
    exact Or.inl ⟨(.ok, buffer, c), _, _, by simp [readBody], Run.nil, hlen, by rw [if_pos rfl]⟩

/-! ## `send_frame` -/

omit [DecidableEq ι] [Double F] [CharConv F] in
/-- The server amid the `send`s of an ack. -/
def sends (e : Executor F ι) (moment : Moment) (decoded : Decoded (WakeMessage F)) (got : Bytes)
    (sent : ℕ) : Executor F ι :=
  { e with
    control := .sending moment decoded sent
    trace := e.trace ++ (got.map .sent).map e.frameEvent }

/-- **Sending.** The server sends as `send_frame` does. -/
lemma sendFrame_run {e : Executor F ι} (moment : Moment) (decoded : Decoded (WakeMessage F))
    {c c' : Connection} {ok : Bool} {got : Bytes}
    (h : sendFrame c e.server.ack e.server.stopping = some (ok, got, c')) :
    ∃ h s, Run Step (e.sends moment decoded [] 0) h s ∧
      s = if ok then e.sends moment decoded got e.server.ack.length
        else (e.sends moment decoded got 0).leave (ackEnding decoded) := by
  refine Run.of_loop (R := fun b s => b.1 ≤ e.server.ack.length ∧
    s = e.sends moment decoded b.2.1 b.1) (Q := fun a s =>
      s = if a.1 then e.sends moment decoded a.2.1 e.server.ack.length
        else (e.sends moment decoded a.2.1 0).leave (ackEnding decoded)) ?_ ⟨Nat.zero_le _, rfl⟩ h
  rintro ⟨sent, got, c⟩ s ⟨hle, rfl⟩
  dsimp only at hle ⊢
  have hc : (e.sends moment decoded got sent).control = .sending moment decoded sent := rfl
  by_cases hlt : sent < e.server.ack.length
  · obtain ⟨⟨result, bytes, c'⟩, hr⟩ : ∃ a, c.send (e.server.ack.drop sent) = a := ⟨_, rfl⟩
    cases result with
    | count wrote =>
      obtain ⟨-, hroom⟩ := Connection.eq_take_of_send hr
      rw [List.length_drop] at hroom
      refine Or.inr ⟨(sent + wrote, got ++ bytes, c'), _, _, by simp [sendBody, hlt, hr],
        Run.nil.snoc (.send hc hlt hr), by dsimp only; omega, ?_⟩
      simp [sends, frameEvent, List.append_assoc]
    | interrupted =>
      have hinterrupted := Run.nil.snoc (Step.sendInterrupted hc hlt hr)
      cases hstopping : e.server.stopping with
      | false =>
        exact Or.inr ⟨(sent, got, c'), _, _, by simp [sendBody, hlt, hr],
          hinterrupted.snoc (.sendAgain rfl hstopping), hle, rfl⟩
      | true =>
        exact Or.inl ⟨(false, got, c'), _, _, by simp [sendBody, hlt, hr],
          hinterrupted.snoc (.sendStopped rfl hstopping), rfl⟩
    | failed =>
      exact Or.inl ⟨(false, got, c'), _, _, by simp [sendBody, hlt, hr],
        Run.nil.snoc (.sendFailed hc hlt hr), rfl⟩
  · obtain rfl : sent = e.server.ack.length := by omega
    exact Or.inl ⟨(true, got, c), _, _, by simp [sendBody], Run.nil, rfl⟩

/-! ## `serve_connection` -/

omit [DecidableEq ι] [Double F] [CharConv F] in
/-- The server where the loop of `serve_connection` stands. -/
def serving (e : Executor F ι) (s : Serving F) (control : Control F)
    (trace : List (ServerEvent F)) : Executor F ι :=
  { e with server := s.server, framePrefix := s.framePrefix, control := control, trace := trace }

/-- The server stands where the loop does, at some place, and has seen what the loop has. -/
def Stands (e : Executor F ι) (control : Control F) (s : Serving F) (e' : Executor F ι) : Prop :=
  ∃ trace, e' = e.serving s control trace ∧ trace.filterMap ServerEvent.event =
    e.trace.filterMap ServerEvent.event ++ s.trace

/-- An iteration of the loop is matched by a run of the server, from where it stands. -/
def Matched (e e' : Executor F ι) (iteration : Loop.Step (Serving F) (Option (Serving F))) :
    Prop :=
  (∃ r h e'', iteration = .done r ∧ Run Step e' h e'' ∧
    ∀ s', r = some s' → Stands e .leaving s' e'') ∨
  ∃ s' h e'', iteration = .more s' ∧ Run Step e' h e'' ∧ Stands e .looping s' e''

/-- The run may begin earlier. -/
lemma Matched.after {e e₁ e₂ : Executor F ι}
    {iteration : Loop.Step (Serving F) (Option (Serving F))} (h : Matched e e₂ iteration)
    {labels : List (Executor F ι × ServerAction ι)} (hr : Run Step e₁ labels e₂) :
    Matched e e₁ iteration := by
  rcases h with ⟨r, h, e₃, hdone, hr', hleaves⟩ | ⟨s, h, e₃, hmore, hr', hloops⟩
  · exact Or.inl ⟨r, _, e₃, hdone, hr.append hr', hleaves⟩
  · exact Or.inr ⟨s, _, e₃, hmore, hr.append hr', hloops⟩

/-- **Answering.** The server answers a frame as the loop does. -/
lemma answerFrame_run {e e' : Executor F ι} {filled : ℕ} {s : Serving F}
    (h : Stands e (.reading .body filled) s e') (hstop : s.server.stopping = false)
    (hle : s.server.body.length ≤ filled) (moment : Moment) :
    Matched e e' (answerFrame moment s) := by
  obtain ⟨trace, rfl, htrace⟩ := h
  obtain ⟨decoded, hdecoded⟩ : ∃ decoded, decodeWakeMessage (F := F) s.server.body = decoded :=
    ⟨_, rfl⟩
  obtain ⟨server, hserver⟩ : ∃ server, server = s.server.answered F moment.startedAtMs := ⟨_, rfl⟩
  obtain ⟨e₁, he₁⟩ : ∃ e₁, e₁ = e.serving { s with server := server }
      (.sending moment decoded 0) trace := ⟨_, rfl⟩
  have hanswer : Step (e.serving s (.reading .body filled) trace) .answer e₁ := by
    rw [he₁, hserver, ← hdecoded]
    exact .answer rfl hle moment
  have hstart : e₁.sends moment decoded [] 0 = e₁ := by
    rw [he₁]
    simp [sends, serving]
  have hack : e₁.server = s.server.answered F moment.startedAtMs := by rw [he₁, hserver]; rfl
  obtain ⟨ok, got, c, hsend, -⟩ := sendFrame_spec s.connection
    (s.server.answered F moment.startedAtMs).ack
  rw [← hstop] at hsend
  obtain ⟨h, e₂, hr, he₂⟩ := sendFrame_run (e := e₁) moment decoded (by rw [hack]; exact hsend)
  rw [hstart] at hr
  have hrun := (Run.nil.snoc hanswer).append hr
  have hevents : ∀ l : List (Event F), (trace ++ l.map e₁.frameEvent).filterMap
      ServerEvent.event = e.trace.filterMap ServerEvent.event ++ (s.trace ++ l) := by
    intro l
    have hl : (l.map e₁.frameEvent).filterMap ServerEvent.event = l := filterMap_event_frame _ l
    rw [List.filterMap_append, htrace, hl, List.append_assoc]
  cases ok with
  | false =>
    rw [if_neg Bool.false_ne_true] at he₂
    refine Or.inl ⟨_, _, _, answerFrame_cut hsend, hrun, ?_⟩
    rintro _ ⟨⟩
    refine ⟨trace ++ (got.map .sent).map e₁.frameEvent ++ [.ended (ackEnding decoded)], ?_, ?_⟩
    · rw [he₂, he₁, hserver]
      rfl
    · rw [List.filterMap_append, hevents]
      exact List.append_nil _
  | true =>
    rw [if_pos rfl] at he₂
    cases decoded with
    | error error =>
      have hrejected : Step e₂ .serve { e₂ with control := .looping } :=
        .rejected (by rw [he₂]; rfl) (by rw [he₂]; exact le_rfl)
      refine Or.inr ⟨_, _, _, answerFrame_rejected hsend hdecoded, hrun.snoc hrejected,
        trace ++ (got.map .sent).map e₁.frameEvent, ?_, hevents _⟩
      rw [he₂, he₁, hserver]
      rfl
    | ok message =>
      have hfire : Step e₂ .serve (e₂.fire moment message) :=
        .fire (by rw [he₂]; rfl) (by rw [he₂]; exact le_rfl)
      obtain ⟨events, hfired⟩ : ∃ events : List (Event F), events =
          (if e₁.server.recordWakeRecv then [.recordWakeRecv (wakeRecvEvent moment message)]
            else []) ++ .handleFire message ::
            ((e₁.server.handleFire moment.probe message).2.1.map .dispatch).toList := ⟨_, rfl⟩
      refine Or.inr ⟨_, _, _, answerFrame_accepted hsend hdecoded, hrun.snoc hfire,
        trace ++ (got.map Event.sent ++ events).map e₁.frameEvent, ?_, ?_⟩
      · rw [he₂, hfired, List.map_append, ← List.append_assoc, he₁, hserver]
        rfl
      · rw [hevents, hfired, hack]
        simp [fireMessage, List.append_assoc]

/-- One iteration of the loop. -/
lemma serveBody_run {e e' : Executor F ι} {s : Serving F} (moments : ℕ → Moment)
    (h : Stands e .looping s e') : Matched e e' (serveBody moments s) := by
  obtain ⟨trace, rfl, htrace⟩ := h
  have hleft : ∀ ending, (trace ++ [ServerEvent.ended ending]).filterMap ServerEvent.event =
      e.trace.filterMap ServerEvent.event ++ s.trace := by
    intro ending
    rw [List.filterMap_append, htrace]
    exact List.append_nil _
  cases hstop : s.server.stopping with
  | true =>
    refine Or.inl ⟨some s, _, _, by simp only [serveBody, hstop, if_true],
      Run.nil.snoc (.loopStopped rfl hstop), ?_⟩
    rintro _ ⟨⟩
    exact ⟨_, rfl, hleft _⟩
  | false =>
    have hloop : Step (e.serving s .looping trace) .serve
        ((e.serving s .looping trace).reads .framePrefix s.framePrefix 0) := .loop rfl hstop
    obtain ⟨result, header, c, hread, -⟩ := readExactly_spec s.connection s.framePrefix
    obtain ⟨h₁, e₁, hr₁, hlen₁, he₁⟩ := readExactly_run (e := e.serving s .looping trace)
      .framePrefix (hstop ▸ hread)
    have hrun₁ := (Run.nil.snoc hloop).append hr₁
    by_cases hresult : result = .ok
    · subst hresult
      rw [if_pos rfl] at he₁
      have hheader₁ : e₁.framePrefix = header := by rw [he₁]; rfl
      have hle₁ : e₁.framePrefix.length ≤ s.framePrefix.length := by rw [hheader₁, hlen₁]
      have hc₁ : e₁.control = .reading .framePrefix s.framePrefix.length := by rw [he₁]; rfl
      cases hd : decodeFrameLength header with
      | error error =>
        have hrefused := Step.lengthRefused hc₁ hle₁ (by rw [hheader₁]; exact hd)
        refine Or.inl ⟨_, _, _, serveBody_refused hstop hread hd, hrun₁.snoc hrefused, ?_⟩
        rintro _ ⟨⟩
        exact ⟨trace ++ [.ended .length], by rw [he₁]; rfl, hleft _⟩
      | ok length =>
        obtain ⟨s₁, hs₁⟩ : ∃ s₁, s₁ = { s with framePrefix := header, connection := c } :=
          ⟨_, rfl⟩
        have hlength : Step e₁ .serve ((e.serving s₁ .looping trace).reads .body
            (resize s.server.body length.toNat) 0) := by
          have := Step.length hc₁ hle₁ (by rw [hheader₁]; exact hd)
          rw [he₁] at this ⊢
          rw [hs₁]
          exact this
        obtain ⟨result, body, c', hbody, -⟩ := readExactly_spec c
          (resize s.server.body length.toNat)
        obtain ⟨h₂, e₂, hr₂, hlen₂, he₂⟩ := readExactly_run (e := e.serving s₁ .looping trace)
          .body (by rw [hs₁]; exact hstop ▸ hbody)
        have hrun₂ := (hrun₁.snoc hlength).append hr₂
        rw [hs₁] at he₂
        by_cases hresult : result = .ok
        · subst hresult
          rw [if_pos rfl] at he₂
          have hstands : Stands e (.reading .body (resize s.server.body length.toNat).length)
              { s with
                server := { s.server with body := body }
                framePrefix := header
                connection := c' } e₂ :=
            ⟨trace, by rw [he₂]; rfl, htrace⟩
          rw [serveBody_whole hstop hread hd hbody]
          exact (answerFrame_run hstands hstop hlen₂.le (moments s.frames)).after hrun₂
        · rw [if_neg hresult] at he₂
          refine Or.inl ⟨_, _, _, serveBody_cut hstop hread hd hbody hresult, hrun₂, ?_⟩
          rintro _ ⟨⟩
          exact ⟨trace ++ [.ended .read], by rw [he₂]; rfl, hleft _⟩
    · rw [if_neg hresult] at he₁
      refine Or.inl ⟨_, _, _, serveBody_short hstop hread hresult, hrun₁, ?_⟩
      rintro _ ⟨⟩
      exact ⟨trace ++ [.ended .read], by rw [he₁]; rfl, hleft _⟩

/-- **Serving.** The server serves a connection as `serve_connection` does. -/
theorem serveConnection_run {e : Executor F ι} (moments : ℕ → Moment) {c : Connection}
    {s : Serving F} (hc : e.control = .looping)
    (hroom : e.framePrefix = List.replicate kFrameLengthBytes 0)
    (h : serveConnection moments e.server c = some s) :
    ∃ h e', Run Step e h e' ∧ Stands e .leaving s e' := by
  have hstart : Stands e .looping ⟨e.server, c, List.replicate kFrameLengthBytes 0, 0, []⟩ e := by
    refine ⟨e.trace, ?_, (List.append_nil _).symm⟩
    rw [serving, ← hroom, ← hc]
  obtain ⟨h, e', hr, hleaves⟩ := Run.of_loop (Q := fun r e' => ∀ s', r = some s' →
    Stands e .leaving s' e') (fun s _ hstands => serveBody_run moments hstands) hstart
    (Option.join_eq_some_iff.mp h)
  exact ⟨h, e', hr, hleaves s rfl⟩

end Executor

end Hotpath
