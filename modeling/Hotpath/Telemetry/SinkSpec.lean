import Hotpath.Telemetry.Sink
import Hotpath.Telemetry.SpscRingSpec

set_option relaxedAutoImplicit false
set_option autoImplicit false

/-!
# No row is lost

What a run of the sink shows: how many calls of `record` were made and which returned true, and
which batches were handed to `write_batch`. Every accepted row is in exactly one place, and the
writer returns only when there is none left.

## Main definitions

* `Hotpath.Sink.begun`, `Hotpath.Sink.accepted`, `Hotpath.Sink.handedRows`, `Hotpath.Sink.opened`
  — what a history shows.
* `Hotpath.Sink.Flow`, `Hotpath.Sink.Counted`, `Hotpath.Sink.Control` — the invariants.

## Main results

* `Hotpath.Sink.rows_conserved` — the conservation laws, and what holds after `close`.
-/

namespace Hotpath

open System (Run)

variable {F : Type}

/-! ## What a history shows -/

namespace SinkEvent

/-- A call of `record` begins. -/
def begins : SinkEvent F → Bool
  | .recordCalled _ => true
  | _ => false

/-- The event of a call of `record` that returns true. -/
def accepted : SinkEvent F → Option (LatencyEvent F)
  | .recordReturned event true => some event
  | _ => none

/-- The rows handed to `write_batch`. -/
def handedRows : SinkEvent F → List (Row F)
  | .handed batch => batch
  | _ => []

/-- Whether the sink is open after a step: `open` returned without a failure, and `close` did not
return since. -/
def opened (before : Bool) : SinkEvent F → Bool
  | .openReturned none => true
  | .closeReturned => false
  | _ => before

end SinkEvent

namespace Sink

/-- How many calls of `record` were made. -/
def begun (h : List (Sink F × SinkEvent F)) : ℕ := h.countP fun p => p.2.begins

/-- The events of the calls that returned true, in order. -/
def accepted (h : List (Sink F × SinkEvent F)) : List (LatencyEvent F) :=
  h.filterMap fun p => p.2.accepted

/-- The rows that were handed to `write_batch`, in order. -/
def handedRows (h : List (Sink F × SinkEvent F)) : List (Row F) := h.flatMap fun p => p.2.handedRows

/-- Whether the sink is open. -/
def opened (h : List (Sink F × SinkEvent F)) : Bool :=
  h.foldl (fun before p => p.2.opened before) false

section Snoc

variable (h : List (Sink F × SinkEvent F)) (s : Sink F) (e : SinkEvent F)

/-- A step begins at most one more call of `record`. -/
@[simp]
lemma begun_snoc : begun (h ++ [(s, e)]) = begun h + if e.begins then 1 else 0 := by
  rw [begun, List.countP_append]
  cases he : e.begins <;> simp [begun, he]

/-- A step accepts at most one more event. -/
@[simp]
lemma accepted_snoc : accepted (h ++ [(s, e)]) = accepted h ++ e.accepted.toList := by
  rw [accepted, List.filterMap_append]
  cases he : e.accepted <;> simp [accepted, he]

/-- The rows that a step hands over come after those of the steps before it. -/
@[simp]
lemma handedRows_snoc : handedRows (h ++ [(s, e)]) = handedRows h ++ e.handedRows := by
  simp [handedRows]

/-- A step opens or closes the sink, or leaves it as it is. -/
@[simp]
lemma opened_snoc : opened (h ++ [(s, e)]) = e.opened (opened h) := by
  simp [opened]

end Snoc

end Sink

/-- A call of `record` is under way. -/
def Caller.recording : Caller F → ℕ
  | .recordOversized _ => 1
  | .recordPushing _ _ => 1
  | .recordFull _ => 1
  | _ => 0

/-- In `write_batch`. -/
def Writer.inBatch : Writer F → Bool
  | .writing _ _ => true
  | _ => false

/-- The rows that were drained and not handed over yet. -/
def Writer.batch : Writer F → List (Row F)
  | .popping _ batch _ => batch
  | _ => []

/-- The rows that were handed over and not counted yet. -/
def Writer.uncounted : Writer F → List (Row F)
  | .writing uncounted _ => uncounted
  | _ => []

/-! ## Control -/

/-- In `open`, on a sink without a writer. -/
def Caller.opens : Caller F → Bool
  | .opening _ => true
  | .openStoring => true
  | .openStarting => true
  | _ => false

namespace Sink

variable {h : List (Sink F × SinkEvent F)} {s s' : Sink F} {e : SinkEvent F}

/-- How the two threads and the flag fit together: a writer that read the flag as set, or returned,
is waited for. -/
structure Control (s : Sink F) : Prop where
  absent : s.joinable = false → s.writer = .absent
  opens : s.caller.opens = true → s.joinable = false
  starting : s.caller = .openStarting → s.stopping = false
  resetting : s.caller = .closeResetting → s.joinable = false
  stop : s.stopping = true → s.writer = .absent ∨ s.caller = .closeJoining
  draining : ∀ batch c, s.writer = .popping true batch c → s.caller = .closeJoining
  returned : s.writer = .returned → s.caller = .closeJoining

/-- In a new sink the threads are together. -/
lemma control_new [OfScientific F] {capacity : UInt64} {hcap : capacity.toNat ≤ 2 ^ 63} :
    Control (Sink.new (F := F) capacity hcap) := by
  constructor <;> simp [Sink.new, Caller.opens]

/-- A step of the caller that leaves the writer and both flags, from a point where it does not wait
for the writer. -/
private lemma Control.move (hs : Control s)
    (hsame : s'.joinable = s.joinable ∧ s'.stopping = s.stopping ∧ s'.writer = s.writer)
    (hwait : s.caller ≠ .closeJoining) (hopens : s'.caller.opens = true → s.joinable = false)
    (hstarting : s'.caller ≠ .openStarting)
    (hresetting : s'.caller = .closeResetting → s.joinable = false) : Control s' := by
  obtain ⟨hj, hst, hw⟩ := hsame
  constructor
  · rw [hj, hw]
    exact hs.absent
  · rw [hj]
    exact hopens
  · exact fun h => absurd h hstarting
  · rw [hj]
    exact hresetting
  · rw [hst, hw]
    exact fun h => Or.inl ((hs.stop h).resolve_right hwait)
  · rw [hw]
    exact fun batch c h => absurd (hs.draining batch c h) hwait
  · rw [hw]
    exact fun h => absurd (hs.returned h) hwait

/-- A step of the writer keeps the threads together. -/
private lemma Control.work (hs : Control s)
    (hsame : s'.joinable = s.joinable ∧ s'.stopping = s.stopping ∧ s'.caller = s.caller)
    (hw : s.writer ≠ .absent)
    (hdraining : ∀ batch c, s'.writer = .popping true batch c → s.caller = .closeJoining)
    (hreturned : s'.writer = .returned → s.caller = .closeJoining) : Control s' := by
  obtain ⟨hj, hst, hc⟩ := hsame
  constructor
  · rw [hj]
    exact fun h => absurd (hs.absent h) hw
  · rw [hj, hc]
    exact hs.opens
  · rw [hst, hc]
    exact hs.starting
  · rw [hj, hc]
    exact hs.resetting
  · rw [hst, hc]
    exact fun h => Or.inr ((hs.stop h).resolve_left hw)
  · rw [hc]
    exact hdraining
  · rw [hc]
    exact hreturned

/-- A call in `write_batch` touches the two counters only. -/
private lemma count_same (s : Sink F) (uncounted : List (Row F)) (c : WriterCall F) :
    (s.count uncounted c).1.ring = s.ring ∧ (s.count uncounted c).1.joinable = s.joinable ∧
      (s.count uncounted c).1.stopping = s.stopping ∧
      (s.count uncounted c).1.caller = s.caller ∧
      (s.count uncounted c).1.droppedRingFull = s.droppedRingFull ∧
      (s.count uncounted c).1.droppedOversizedId = s.droppedOversizedId := by
  cases c <;> exact ⟨rfl, rfl, rfl, rfl, rfl, rfl⟩

/-- What the writer does next while its reading of the flag is what it was. -/
private lemma drained_control (draining : Bool) (batch : List (Row F)) :
    (∀ b c, (Writer.drained draining batch).1 ≠ .popping true b c) ∧
      ((Writer.drained draining batch).1 = .returned → draining = true ∧ batch = []) := by
  by_cases h : batch = []
  · subst h
    cases draining <;> simp [Writer.drained]
  · simp [Writer.drained, h]

/-- A row that is put in leaves the threads together. -/
private lemma pushed_control (draining : Bool) (batch : List (Row F)) (row : Row F) :
    (∀ b c, (Writer.pushed draining (batch ++ [row])).1 = .popping true b c → draining = true) ∧
      (Writer.pushed draining (batch ++ [row])).1 ≠ .returned := by
  obtain ⟨hpopping, hreturned⟩ := drained_control draining (batch ++ [row])
  unfold Writer.pushed
  split_ifs
  · simp
  · refine ⟨fun b c h => absurd h (hpopping b c), fun h => ?_⟩
    simpa using (hreturned h).2

/-- **Every step keeps the threads together.** -/
lemma Control.step (hs : Control s) (hst : Step s e s') : Control s' := by
  cases hst with
  | openAlready hc hj => exact hs
  | openCall hc hj => exact hs.move ⟨rfl, rfl, rfl⟩ (by simp [hc]) (fun _ => hj) (by simp) (by simp)
  | openAnswer hc answer =>
    exact hs.move ⟨rfl, rfl, rfl⟩ (by simp [hc]) (fun _ => hs.opens (by rw [hc]; rfl)) (by simp)
      (by simp)
  | openFailed hc =>
    exact hs.move ⟨rfl, rfl, rfl⟩ (by simp [hc]) (by simp [Caller.opens]) (by simp) (by simp)
  | openConnected hc =>
    exact hs.move ⟨rfl, rfl, rfl⟩ (by simp [hc]) (fun _ => hs.opens (by rw [hc]; rfl)) (by simp)
      (by simp)
  | openStore hc =>
    have hj := hs.opens (by rw [hc]; rfl)
    have hw := hs.absent hj
    exact ⟨hs.absent, fun _ => hj, fun _ => rfl, by simp, by simp, by simp [hw], by simp [hw]⟩
  | openStart hc =>
    have hflag := hs.starting hc
    exact ⟨by simp, by simp [Caller.opens], by simp, by simp, by simp [hflag], by simp, by simp⟩
  | recordCall hc event =>
    refine hs.move ⟨rfl, rfl, rfl⟩ (by simp [hc]) ?_ ?_ ?_ <;>
      (simp only [Caller.record]; split_ifs <;> simp [Caller.opens])
  | recordOversized hc =>
    exact hs.move ⟨rfl, rfl, rfl⟩ (by simp [hc]) (by simp [Caller.opens]) (by simp) (by simp)
  | recordPush hc h =>
    exact hs.move ⟨rfl, rfl, rfl⟩ (by simp [hc]) (by simp [Caller.opens]) (by simp) (by simp)
  | recordPushed hc h =>
    exact hs.move ⟨rfl, rfl, rfl⟩ (by simp [hc]) (by simp [Caller.opens]) (by simp) (by simp)
  | recordRefused hc h =>
    exact hs.move ⟨rfl, rfl, rfl⟩ (by simp [hc]) (by simp [Caller.opens]) (by simp) (by simp)
  | recordFull hc =>
    exact hs.move ⟨rfl, rfl, rfl⟩ (by simp [hc]) (by simp [Caller.opens]) (by simp) (by simp)
  | closeCall hc hj =>
    exact hs.move ⟨rfl, rfl, rfl⟩ (by simp [hc]) (by simp [Caller.opens]) (by simp) (by simp)
  | closeUnopened hc hj =>
    exact hs.move ⟨rfl, rfl, rfl⟩ (by simp [hc]) (by simp [Caller.opens]) (by simp) (fun _ => hj)
  | closeStore hc =>
    exact ⟨hs.absent, by simp [Caller.opens], by simp, by simp, fun _ => Or.inr rfl,
      fun _ _ _ => rfl, fun _ => rfl⟩
  | closeJoin hc hw =>
    exact ⟨fun _ => rfl, by simp [Caller.opens], by simp, fun _ => rfl, fun _ => Or.inl rfl,
      by simp, by simp⟩
  | closeReset hc =>
    exact hs.move ⟨rfl, rfl, rfl⟩ (by simp [hc]) (by simp [Caller.opens]) (by simp) (by simp)
  | writerLoad hw =>
    refine hs.work ⟨rfl, rfl, rfl⟩ (by simp [hw]) (fun batch c h => ?_) (by simp)
    have hflag : s.stopping = true := by
      injection h
    exact (hs.stop hflag).resolve_left (by simp [hw])
  | @writerPop draining batch c c' r hw h =>
    refine hs.work ⟨rfl, rfl, rfl⟩ (by simp [hw]) (fun b d h => ?_) (by simp)
    have hflag : draining = true := by
      injection h
    exact hs.draining batch c (by rw [hw, hflag])
  | @writerPopped draining batch c r row hw h =>
    obtain ⟨hpopping, hreturned⟩ := pushed_control draining batch row
    refine hs.work ⟨rfl, rfl, rfl⟩ (by simp [hw]) (fun b d h => ?_) (fun h => absurd h hreturned)
    exact hs.draining batch c (by rw [hw, hpopping b d h])
  | @writerEmpty draining batch c r hw h =>
    obtain ⟨hpopping, hreturned⟩ := drained_control draining batch
    refine hs.work ⟨rfl, rfl, rfl⟩ (by simp [hw]) (fun b d h => absurd h (hpopping b d))
      (fun h => ?_)
    exact hs.draining batch c (by rw [hw, (hreturned h).1])
  | @writerCall uncounted c next hw answer =>
    obtain ⟨-, hj, hst, hc, -, -⟩ := count_same s uncounted c
    exact hs.work ⟨hj, hst, hc⟩ (by simp [hw]) (by simp) (by simp)
  | writerDone hw => exact hs.work ⟨rfl, rfl, rfl⟩ (by simp [hw]) (by simp) (by simp)

end Sink

/-! ## Rows in order -/

namespace Sink

variable {h : List (Sink F × SinkEvent F)} {s s' : Sink F} {e : SinkEvent F}

/-- What `record` knows in `try_push`: the row it pushes holds its event. -/
def PushKnown (s : Sink F) : Prop :=
  match s.caller with
  | .recordPushing event p => s.ring.PushAt p ∧ p.value.event = event
  | _ => True

/-- What the writer knows in `try_pop`. -/
def PopKnown (s : Sink F) : Prop :=
  match s.writer with
  | .popping _ _ c => s.ring.PopAt c
  | _ => True

/-- The rows that were accepted were handed over, or are in the writer's batch, or in the ring, in
this order. -/
def Flow (h : List (Sink F × SinkEvent F)) (s : Sink F) : Prop :=
  ∃ queue, s.ring.Holds queue ∧ s.PushKnown ∧ s.PopKnown ∧
    (handedRows h ++ s.writer.batch ++ queue).map Row.event = accepted h

/-- What the writer knows survives a step of the other thread. -/
private lemma PopKnown.of_ring {r : SpscRing (Row F)} (hs : s.PopKnown)
    (hr : ∀ c, s.ring.PopAt c → r.PopAt c) : PopKnown { s with ring := r } := by
  unfold PopKnown at hs ⊢
  split
  · next hw =>
    simp only at hw
    rw [hw] at hs
    exact hr _ hs
  · trivial

/-- What `record` knows survives a step of the other thread. -/
private lemma PushKnown.of_ring {r : SpscRing (Row F)} {w : Writer F} (hs : s.PushKnown)
    (hr : ∀ p, s.ring.PushAt p → r.PushAt p) : PushKnown { s with ring := r, writer := w } := by
  unfold PushKnown at hs ⊢
  split
  · next hc =>
    simp only at hc
    rw [hc] at hs
    exact ⟨hr _ hs.1, hs.2⟩
  · trivial

/-- What `record` knows as it begins to push. -/
private lemma pushKnown_record (s : Sink F) (event : LatencyEvent F) :
    PushKnown { s with caller := Caller.record event } := by
  unfold PushKnown Caller.record
  split_ifs with hlen
  · trivial
  · exact ⟨trivial, Row.event_ofEvent event (Nat.le_of_not_gt hlen)⟩

end Sink

/-- After a drain the batch is handed over. -/
lemma Writer.drained_rows (draining : Bool) (batch : List (Row F)) :
    (Writer.drained draining batch).2.handedRows ++ (Writer.drained draining batch).1.batch =
      batch ∧ (Writer.drained draining batch).2.accepted = none ∧
      (Writer.drained draining batch).2.begins = false := by
  by_cases h : batch = []
  · subst h
    cases draining <;> exact ⟨rfl, rfl, rfl⟩
  · rw [Writer.drained, if_neg h]
    exact ⟨List.append_nil batch, rfl, rfl⟩

/-- With a row put in, the batch is handed over or goes on. -/
lemma Writer.pushed_rows (draining : Bool) (batch : List (Row F)) :
    (Writer.pushed draining batch).2.handedRows ++ (Writer.pushed draining batch).1.batch =
      batch ∧ (Writer.pushed draining batch).2.accepted = none ∧
      (Writer.pushed draining batch).2.begins = false := by
  unfold Writer.pushed
  split_ifs with h
  · exact ⟨rfl, rfl, rfl⟩
  · exact Writer.drained_rows draining batch

/-- A writer that goes on after a step of `try_pop` that returned knows nothing about the ring. -/
lemma Sink.popKnown_pushed (s : Sink F) (draining : Bool) (batch : List (Row F)) :
    Sink.PopKnown { s with writer := (Writer.pushed draining batch).1 } ∧
      Sink.PopKnown { s with writer := (Writer.drained draining batch).1 } := by
  have hdrained : Sink.PopKnown { s with writer := (Writer.drained draining batch).1 } := by
    unfold Writer.drained
    split_ifs <;> trivial
  refine ⟨?_, hdrained⟩
  unfold Writer.pushed
  split_ifs
  · trivial
  · exact hdrained

namespace Sink

variable {h : List (Sink F × SinkEvent F)} {s s' : Sink F} {e : SinkEvent F}

/-- A step that leaves the ring, the writer's batch and what is seen of the rows keeps them in
order. -/
private lemma Flow.keep (hs : Flow h s) (hring : s'.ring = s.ring)
    (hbatch : e.handedRows ++ s'.writer.batch = s.writer.batch) (haccepted : e.accepted = none)
    (hpush : s.PushKnown → s'.PushKnown) (hpop : s.PopKnown → s'.PopKnown) :
    Flow (h ++ [(s, e)]) s' := by
  obtain ⟨queue, hr, hp, hc, heq⟩ := hs
  refine ⟨queue, hring ▸ hr, hpush hp, hpop hc, ?_⟩
  rw [handedRows_snoc, accepted_snoc, haccepted, List.append_assoc (handedRows h), hbatch, heq]
  simp

/-- **Every step keeps the rows in order.** -/
lemma Flow.step (hcontrol : Control s) (hs : Flow h s) (hst : Step s e s') :
    Flow (h ++ [(s, e)]) s' := by
  cases hst with
  | openAlready hc hj => exact hs.keep rfl rfl rfl id id
  | openCall hc hj => exact hs.keep rfl rfl rfl (fun _ => trivial) id
  | openAnswer hc answer => exact hs.keep rfl rfl rfl (fun _ => trivial) id
  | openFailed hc => exact hs.keep rfl rfl rfl (fun _ => trivial) id
  | openConnected hc => exact hs.keep rfl rfl rfl (fun _ => trivial) id
  | openStore hc => exact hs.keep rfl rfl rfl (fun _ => trivial) id
  | openStart hc =>
    have hw := hcontrol.absent (hcontrol.opens (by rw [hc]; rfl))
    exact hs.keep rfl (by rw [hw]; rfl) rfl (fun _ => trivial) (fun _ => trivial)
  | recordCall hc event => exact hs.keep rfl rfl rfl (fun _ => s.pushKnown_record event) id
  | recordOversized hc => exact hs.keep rfl rfl rfl (fun _ => trivial) id
  | @recordPush event p p' r hc hpush =>
    obtain ⟨queue, hr, hp, hpop, heq⟩ := hs
    rw [PushKnown, hc] at hp
    obtain ⟨hr', hp', hvalue, -, hkeep⟩ := hr.tryPush_more hp.1 hpush
    refine ⟨queue, hr', ⟨hp', by rw [hvalue, hp.2]⟩, hpop.of_ring hkeep, ?_⟩
    simpa [SinkEvent.handedRows, SinkEvent.accepted] using heq
  | @recordPushed event p r hc hpush =>
    obtain ⟨queue, hr, hp, hpop, heq⟩ := hs
    rw [PushKnown, hc] at hp
    obtain ⟨queue', hop, hr', -, hkeep⟩ := hr.tryPush_done hp.1 hpush
    refine ⟨queue', hr', trivial, hpop.of_ring hkeep, ?_⟩
    cases hop with
    | push hroom =>
      rw [← List.append_assoc, List.map_append]
      simp only [handedRows_snoc, accepted_snoc, SinkEvent.handedRows, List.append_nil]
      rw [heq, List.map_singleton, hp.2]
      rfl
  | @recordRefused event p r hc hpush =>
    obtain ⟨queue, hr, hp, hpop, heq⟩ := hs
    rw [PushKnown, hc] at hp
    obtain ⟨queue', hop, hr', -, hkeep⟩ := hr.tryPush_done hp.1 hpush
    cases hop with
    | full hfull =>
      refine ⟨queue, hr', trivial, hpop.of_ring hkeep, ?_⟩
      simpa [SinkEvent.handedRows, SinkEvent.accepted] using heq
  | recordFull hc => exact hs.keep rfl rfl rfl (fun _ => trivial) id
  | closeCall hc hj => exact hs.keep rfl rfl rfl (fun _ => trivial) id
  | closeUnopened hc hj => exact hs.keep rfl rfl rfl (fun _ => trivial) id
  | closeStore hc => exact hs.keep rfl rfl rfl (fun _ => trivial) id
  | closeJoin hc hw =>
    exact hs.keep rfl (by rw [hw]; rfl) rfl (fun _ => trivial) (fun _ => trivial)
  | closeReset hc => exact hs.keep rfl rfl rfl (fun _ => trivial) id
  | writerLoad hw => exact hs.keep rfl (by rw [hw]; rfl) rfl id (fun _ => trivial)
  | @writerPop draining batch c c' r hw hpop =>
    obtain ⟨queue, hr, hp, hc, heq⟩ := hs
    rw [PopKnown, hw] at hc
    obtain ⟨hr', hc', -, hkeep⟩ := hr.tryPop_more hc hpop
    refine ⟨queue, hr', hp.of_ring hkeep, hc', ?_⟩
    rw [hw] at heq
    simpa [SinkEvent.handedRows, SinkEvent.accepted, Writer.batch] using heq
  | @writerPopped draining batch c r row hw hpop =>
    obtain ⟨queue, hr, hp, hc, heq⟩ := hs
    rw [PopKnown, hw] at hc
    obtain ⟨queue', hop, hr', -, hkeep⟩ := hr.tryPop_done hc hpop
    obtain ⟨hrows, haccepted, -⟩ := Writer.pushed_rows draining (batch ++ [row])
    refine ⟨queue', hr', hp.of_ring hkeep, (popKnown_pushed { s with ring := r } draining _).1, ?_⟩
    rw [handedRows_snoc, accepted_snoc, haccepted, List.append_assoc (handedRows h)]
    simp only
    rw [hrows]
    rw [hw] at heq
    cases hop with
    | pop => simpa [Writer.batch] using heq
  | @writerEmpty draining batch c r hw hpop =>
    obtain ⟨queue, hr, hp, hc, heq⟩ := hs
    rw [PopKnown, hw] at hc
    obtain ⟨queue', hop, hr', -, hkeep⟩ := hr.tryPop_done hc hpop
    obtain ⟨hrows, haccepted, -⟩ := Writer.drained_rows draining batch
    refine ⟨queue', hr', hp.of_ring hkeep, (popKnown_pushed { s with ring := r } draining _).2, ?_⟩
    rw [handedRows_snoc, accepted_snoc, haccepted, List.append_assoc (handedRows h)]
    simp only
    rw [hrows]
    rw [hw] at heq
    cases hop with
    | empty => simpa [Writer.batch] using heq
  | @writerCall uncounted c next hw answer =>
    obtain ⟨hring, -, -, hc, -, -⟩ := count_same s uncounted c
    refine hs.keep hring (by rw [hw]; rfl) rfl (fun hp => ?_) (fun _ => trivial)
    unfold PushKnown at hp ⊢
    simp only [hc, hring]
    exact hp
  | writerDone hw => exact hs.keep rfl (by rw [hw]; rfl) rfl id (fun _ => trivial)

/-! ## Calls of `record` -/

/-- Every call of `record` that was made was counted as dropped, or returned true, or is under
way. -/
def Begun (h : List (Sink F × SinkEvent F)) (s : Sink F) : Prop :=
  begun h = s.droppedOversizedId + s.droppedRingFull + (accepted h).length + s.caller.recording

/-- A step that neither begins nor ends a call of `record`. -/
private lemma Begun.keep (hs : Begun h s) (hbegins : e.begins = false)
    (haccepted : e.accepted = none)
    (hfull : s'.droppedRingFull = s.droppedRingFull)
    (hoversized : s'.droppedOversizedId = s.droppedOversizedId)
    (hrecording : s'.caller.recording = s.caller.recording) : Begun (h ++ [(s, e)]) s' := by
  unfold Begun at hs ⊢
  rw [begun_snoc, accepted_snoc, hbegins, haccepted, hfull, hoversized, hrecording]
  simpa using hs

/-- **Every step accounts for the calls.** -/
lemma Begun.step (hs : Begun h s) (hst : Step s e s') : Begun (h ++ [(s, e)]) s' := by
  cases hst with
  | openAlready hc hj => exact hs.keep rfl rfl rfl rfl rfl
  | openCall hc hj => exact hs.keep rfl rfl rfl rfl (by rw [hc]; rfl)
  | openAnswer hc answer => exact hs.keep rfl rfl rfl rfl (by rw [hc]; rfl)
  | openFailed hc => exact hs.keep rfl rfl rfl rfl (by rw [hc]; rfl)
  | openConnected hc => exact hs.keep rfl rfl rfl rfl (by rw [hc]; rfl)
  | openStore hc => exact hs.keep rfl rfl rfl rfl (by rw [hc]; rfl)
  | openStart hc => exact hs.keep rfl rfl rfl rfl (by rw [hc]; rfl)
  | recordCall hc event =>
    have hrecording : (Caller.record event).recording = 1 := by
      unfold Caller.record
      split_ifs <;> rfl
    unfold Begun at hs ⊢
    rw [begun_snoc, accepted_snoc, hrecording]
    rw [hc] at hs
    simpa [SinkEvent.begins, SinkEvent.accepted, Caller.recording] using hs
  | recordOversized hc =>
    unfold Begun at hs ⊢
    rw [begun_snoc, accepted_snoc]
    rw [hc] at hs
    simp only [SinkEvent.begins, SinkEvent.accepted, Caller.recording, Option.toList_none,
      List.append_nil, Bool.false_eq_true, if_false] at hs ⊢
    omega
  | recordPush hc h => exact hs.keep rfl rfl rfl rfl (by rw [hc]; rfl)
  | recordPushed hc h =>
    unfold Begun at hs ⊢
    rw [begun_snoc, accepted_snoc, List.length_append]
    rw [hc] at hs
    simp only [SinkEvent.begins, SinkEvent.accepted, Caller.recording, Option.toList_some,
      List.length_singleton, Bool.false_eq_true, if_false] at hs ⊢
    omega
  | recordRefused hc h => exact hs.keep rfl rfl rfl rfl (by rw [hc]; rfl)
  | recordFull hc =>
    unfold Begun at hs ⊢
    rw [begun_snoc, accepted_snoc]
    rw [hc] at hs
    simp only [SinkEvent.begins, SinkEvent.accepted, Caller.recording, Option.toList_none,
      List.append_nil, Bool.false_eq_true, if_false] at hs ⊢
    omega
  | closeCall hc hj => exact hs.keep rfl rfl rfl rfl (by rw [hc]; rfl)
  | closeUnopened hc hj => exact hs.keep rfl rfl rfl rfl (by rw [hc]; rfl)
  | closeStore hc => exact hs.keep rfl rfl rfl rfl (by rw [hc]; rfl)
  | closeJoin hc hw => exact hs.keep rfl rfl rfl rfl (by rw [hc]; rfl)
  | closeReset hc => exact hs.keep rfl rfl rfl rfl (by rw [hc]; rfl)
  | writerLoad hw => exact hs.keep rfl rfl rfl rfl rfl
  | writerPop hw h => exact hs.keep rfl rfl rfl rfl rfl
  | @writerPopped draining batch c r row hw h =>
    obtain ⟨-, haccepted, hbegins⟩ := Writer.pushed_rows draining (batch ++ [row])
    exact hs.keep hbegins haccepted rfl rfl rfl
  | @writerEmpty draining batch c r hw h =>
    obtain ⟨-, haccepted, hbegins⟩ := Writer.drained_rows draining batch
    exact hs.keep hbegins haccepted rfl rfl rfl
  | @writerCall uncounted c next hw answer =>
    obtain ⟨-, -, -, hc, hfull, hoversized⟩ := count_same s uncounted c
    exact hs.keep rfl rfl hfull hoversized (by simp only [hc])
  | writerDone hw => exact hs.keep rfl rfl rfl rfl rfl

end Sink

/-! ## Rows of a batch -/

open Program (After after_bind)

/-- How many rows are left to be counted after a call, unless it counts more than there are. -/
def WriterCall.left (n : Option ℕ) : WriterCall F → Option ℕ
  | .sql _ => n
  | .addRowsWritten rows => n.bind fun n => if rows.length ≤ n then some (n - rows.length) else none
  | .addDroppedWriteFailed _ => n.bind fun n => if 1 ≤ n then some (n - 1) else none

/-- A call with any answer, as far as counting goes. -/
def WriterCall.Counting (n : Option ℕ) (c : WriterCall F) (_ : c.Answer) (n' : Option ℕ) : Prop :=
  n' = c.left n

/-- A program counts so many rows, whatever its statements do. -/
def Counts (n : ℕ) (p : WriterProgram F Unit) : Prop :=
  After WriterCall.Counting (fun _ n => n = some 0) p (some n)

/-- One that counted too many does not come out even. -/
private lemma not_after_none (p : WriterProgram F Unit) :
    ¬ After WriterCall.Counting (fun _ n => n = some 0) p none := by
  induction p with
  | pure a => simp [After]
  | call c next ih =>
    intro h
    cases c with
    | sql statement => exact ih true (h true _ rfl)
    | addRowsWritten rows => exact ih () (h () _ rfl)
    | addDroppedWriteFailed row => exact ih () (h () _ rfl)

section Counts

variable {n : Option ℕ}

/-- A statement counts nothing. -/
private lemma exec_counts {Q : Bool → Option ℕ → Prop} {statement : Statement F}
    (h : ∀ ok, Q ok n) : After WriterCall.Counting Q (exec statement) n := by
  rintro ok n' rfl
  exact h ok

/-- The statements of a row count nothing. -/
private lemma insert_counts (row : Row F) :
    After WriterCall.Counting (fun _ n' => n' = n) (insert row) n := by
  refine after_bind.mpr (exec_counts fun ok => ?_)
  cases ok with
  | false => rfl
  | true => exact exec_counts fun _ => rfl

/-- The statements of a batch count nothing. -/
private lemma insertAll_counts (rows : List (Row F)) :
    After WriterCall.Counting (fun _ n' => n' = n) (insertAll rows) n := by
  induction rows with
  | nil => rfl
  | cons row rows ih =>
    refine after_bind.mpr ((insert_counts row).imp ?_)
    rintro ok n' rfl
    cases ok with
    | false => rfl
    | true => exact ih

/-- The transaction itself counts nothing. -/
private lemma writeTransaction_counts (batch : List (Row F)) :
    After WriterCall.Counting (fun _ n' => n' = n) (writeTransaction batch) n := by
  refine after_bind.mpr (exec_counts fun ok => ?_)
  cases ok with
  | false => rfl
  | true =>
    refine after_bind.mpr ((insertAll_counts batch).imp ?_)
    rintro allInserted n' rfl
    cases allInserted with
    | false => exact exec_counts fun _ => rfl
    | true =>
      refine after_bind.mpr (exec_counts fun ok => ?_)
      cases ok with
      | false => exact exec_counts fun _ => rfl
      | true => rfl

/-- A row of the fallback is counted once. -/
private lemma writeRow_counts (row : Row F) (k : ℕ) :
    After WriterCall.Counting (fun _ n' => n' = some k) (writeRow row) (some (k + 1)) := by
  have hfailed : After WriterCall.Counting (fun _ n' => n' = some k)
      (exec .rollback >>= fun _ => addDroppedWriteFailed row) (some (k + 1)) := by
    refine after_bind.mpr (exec_counts fun _ => ?_)
    rintro ⟨⟩ n' rfl
    simp [WriterCall.left, After]
  refine after_bind.mpr (exec_counts fun ok => ?_)
  cases ok with
  | false => exact hfailed
  | true =>
    refine after_bind.mpr ((insert_counts row).imp ?_)
    rintro inserted n' rfl
    cases inserted with
    | false => exact hfailed
    | true =>
      refine after_bind.mpr (exec_counts fun ok => ?_)
      cases ok with
      | false => exact hfailed
      | true =>
        rintro ⟨⟩ n' rfl
        simp [WriterCall.left, After]

/-- Every row of the fallback is counted once. -/
private lemma writeRows_counts (rows : List (Row F)) : Counts rows.length (writeRows rows) := by
  induction rows with
  | nil => rfl
  | cons row rows ih =>
    refine after_bind.mpr ((writeRow_counts row rows.length).imp ?_)
    rintro _ n' rfl
    exact ih

/-- **`write_batch` counts every row of its batch once**, whatever its statements do. -/
theorem writeBatch_counts (batch : List (Row F)) : Counts batch.length (writeBatch batch) := by
  refine after_bind.mpr ((writeTransaction_counts batch).imp ?_)
  rintro committed n' rfl
  cases committed with
  | false => exact writeRows_counts batch
  | true =>
    rintro ⟨⟩ n' rfl
    simp [WriterCall.left, After]

end Counts

namespace Sink

variable {h : List (Sink F × SinkEvent F)} {s s' : Sink F} {e : SinkEvent F}

/-- Every row that was handed over was counted or is still to be, and the rest of `write_batch`
counts those that are. -/
def Counted (h : List (Sink F × SinkEvent F)) (s : Sink F) : Prop :=
  (handedRows h).length = s.rowsWritten + s.droppedWriteFailed + s.writer.uncounted.length ∧
    match s.writer with
    | .writing uncounted rest => Counts uncounted.length rest
    | _ => True

/-- A step of the caller keeps the rows counted. -/
private lemma Counted.keep (hs : Counted h s) (hhanded : e.handedRows = [])
    (hwritten : s'.rowsWritten = s.rowsWritten)
    (hfailed : s'.droppedWriteFailed = s.droppedWriteFailed) (hw : s'.writer = s.writer) :
    Counted (h ++ [(s, e)]) s' := by
  unfold Counted at hs ⊢
  rw [handedRows_snoc, hhanded, List.append_nil, hwritten, hfailed, hw]
  exact hs

/-- A step of the writer from and to points outside of `write_batch`. -/
private lemma Counted.work (hs : Counted h s) (hhanded : e.handedRows = [])
    (hwritten : s'.rowsWritten = s.rowsWritten)
    (hfailed : s'.droppedWriteFailed = s.droppedWriteFailed) (hw : s.writer.uncounted = [])
    (hw' : ∀ uncounted rest, s'.writer ≠ .writing uncounted rest) :
    Counted (h ++ [(s, e)]) s' := by
  have hnil : s'.writer.uncounted = [] := by
    cases hcases : s'.writer with
    | writing uncounted rest => exact absurd hcases (hw' uncounted rest)
    | _ => rfl
  refine ⟨?_, ?_⟩
  · rw [handedRows_snoc, hhanded, List.append_nil, hwritten, hfailed, hnil, ← hw]
    exact hs.1
  · split
    · next hcases => exact absurd hcases (hw' _ _)
    · trivial

/-- The writer hands a batch over or does not. -/
private lemma Counted.drained (hs : Counted h s) {draining : Bool} {batch : List (Row F)}
    {r : SpscRing (Row F)} (hw : s.writer.uncounted = []) :
    Counted (h ++ [(s, (Writer.drained draining batch).2)])
      { s with writer := (Writer.drained draining batch).1, ring := r } := by
  by_cases hbatch : batch = []
  · subst hbatch
    cases draining <;> exact hs.work rfl rfl rfl hw (by simp [Writer.drained])
  · rw [Writer.drained, if_neg hbatch]
    refine ⟨?_, writeBatch_counts batch⟩
    have := hs.1
    rw [hw] at this
    simp only [handedRows_snoc, SinkEvent.handedRows, List.length_append, Writer.uncounted, this,
      List.length_nil, Nat.add_zero]

/-- **Every step keeps the rows counted.** -/
lemma Counted.step (hcontrol : Control s) (hs : Counted h s) (hst : Step s e s') :
    Counted (h ++ [(s, e)]) s' := by
  cases hst with
  | openAlready hc hj => exact hs.keep rfl rfl rfl rfl
  | openCall hc hj => exact hs.keep rfl rfl rfl rfl
  | openAnswer hc answer => exact hs.keep rfl rfl rfl rfl
  | openFailed hc => exact hs.keep rfl rfl rfl rfl
  | openConnected hc => exact hs.keep rfl rfl rfl rfl
  | openStore hc => exact hs.keep rfl rfl rfl rfl
  | openStart hc =>
    have hw := hcontrol.absent (hcontrol.opens (by rw [hc]; rfl))
    exact hs.work rfl rfl rfl (by rw [hw]; rfl) (by simp)
  | recordCall hc event => exact hs.keep rfl rfl rfl rfl
  | recordOversized hc => exact hs.keep rfl rfl rfl rfl
  | recordPush hc h => exact hs.keep rfl rfl rfl rfl
  | recordPushed hc h => exact hs.keep rfl rfl rfl rfl
  | recordRefused hc h => exact hs.keep rfl rfl rfl rfl
  | recordFull hc => exact hs.keep rfl rfl rfl rfl
  | closeCall hc hj => exact hs.keep rfl rfl rfl rfl
  | closeUnopened hc hj => exact hs.keep rfl rfl rfl rfl
  | closeStore hc => exact hs.keep rfl rfl rfl rfl
  | closeJoin hc hw => exact hs.work rfl rfl rfl (by rw [hw]; rfl) (by simp)
  | closeReset hc => exact hs.keep rfl rfl rfl rfl
  | writerLoad hw => exact hs.work rfl rfl rfl (by rw [hw]; rfl) (by simp)
  | writerPop hw h => exact hs.work rfl rfl rfl (by rw [hw]; rfl) (by simp)
  | @writerPopped draining batch c r row hw h =>
    have hnil : s.writer.uncounted = [] := by rw [hw]; rfl
    by_cases hroom : (batch ++ [row]).length < kMaxBatchRows
    · rw [Writer.pushed, if_pos hroom]
      exact hs.work rfl rfl rfl hnil (by simp)
    · rw [Writer.pushed, if_neg hroom]
      exact hs.drained hnil
  | @writerEmpty draining batch c r hw h => exact hs.drained (by rw [hw]; rfl)
  | @writerCall uncounted c next hw answer =>
    obtain ⟨hlen, hcounts⟩ := hs
    rw [hw] at hlen hcounts
    have hnext := hcounts answer _ rfl
    have hleft : WriterCall.left (some uncounted.length) c = some (s.count uncounted c).2.length ∧
        uncounted.length + s.rowsWritten + s.droppedWriteFailed =
          (s.count uncounted c).2.length + (s.count uncounted c).1.rowsWritten +
            (s.count uncounted c).1.droppedWriteFailed := by
      cases c with
      | sql statement => exact ⟨rfl, rfl⟩
      | addRowsWritten rows =>
        by_cases hle : rows.length ≤ uncounted.length
        · simp only [WriterCall.left, Option.bind_some, if_pos hle, count, List.length_drop]
          exact ⟨trivial, by omega⟩
        · rw [WriterCall.left, Option.bind_some, if_neg hle] at hnext
          exact absurd hnext (not_after_none _)
      | addDroppedWriteFailed row =>
        by_cases hle : 1 ≤ uncounted.length
        · simp only [WriterCall.left, Option.bind_some, if_pos hle, count, List.length_drop]
          exact ⟨trivial, by omega⟩
        · rw [WriterCall.left, Option.bind_some, if_neg hle] at hnext
          exact absurd hnext (not_after_none _)
    rw [hleft.1] at hnext
    refine ⟨?_, hnext⟩
    simp only [handedRows_snoc, SinkEvent.handedRows, List.append_nil, Writer.uncounted] at hlen ⊢
    omega
  | @writerDone uncounted hw =>
    obtain ⟨hlen, hcounts⟩ := hs
    rw [hw] at hlen hcounts
    have hnil : uncounted.length = 0 := Option.some.inj hcounts
    refine ⟨?_, trivial⟩
    simp only [handedRows_snoc, SinkEvent.handedRows, List.append_nil, Writer.uncounted,
      List.length_nil] at hlen ⊢
    omega

/-! ## After `close` -/

/-- A writer that returned left the ring empty, and a sink that is open has a writer, or is in
`close` with the ring empty and no writer. -/
structure Emptied (h : List (Sink F × SinkEvent F)) (s : Sink F) : Prop where
  returned : s.writer = .returned → s.ring.head = s.ring.tail
  opened : opened h = true →
    s.joinable = true ∨ s.caller = .closeResetting ∧ s.writer = .absent ∧ s.ring.head = s.ring.tail

/-- A step of the caller that leaves the ring, the writer and whether the sink is open. -/
private lemma Emptied.keep (hs : Emptied h s) (hopened : e.opened (Sink.opened h) = Sink.opened h)
    (hring : s'.ring = s.ring) (hw : s'.writer = s.writer) (hj : s'.joinable = s.joinable)
    (hc : s.caller ≠ .closeResetting) : Emptied (h ++ [(s, e)]) s' := by
  constructor
  · rw [hw, hring]
    exact hs.returned
  · rw [opened_snoc, hopened, hj]
    exact fun h => Or.inl ((hs.opened h).resolve_right fun h => hc h.1)

/-- A step of the caller that pushes: the writer did not return, as `record` is not called while
it is waited for. -/
private lemma Emptied.push (hs : Emptied h s) (hcontrol : Control s)
    (hopened : e.opened (Sink.opened h) = Sink.opened h) (hw : s'.writer = s.writer)
    (hj : s'.joinable = s.joinable) (hjoining : s.caller ≠ .closeJoining)
    (hc : s.caller ≠ .closeResetting) : Emptied (h ++ [(s, e)]) s' := by
  constructor
  · rw [hw]
    exact fun h => absurd (hcontrol.returned h) hjoining
  · rw [opened_snoc, hopened, hj]
    exact fun h => Or.inl ((hs.opened h).resolve_right fun h => hc h.1)

/-- A step of the writer keeps what is emptied. -/
private lemma Emptied.work (hs : Emptied h s) (hopened : e.opened (Sink.opened h) = Sink.opened h)
    (hw : s.writer ≠ .absent) (hj : s'.joinable = s.joinable)
    (hreturned : s'.writer = .returned → s'.ring.head = s'.ring.tail) :
    Emptied (h ++ [(s, e)]) s' := by
  refine ⟨hreturned, ?_⟩
  rw [opened_snoc, hopened, hj]
  exact fun h => Or.inl ((hs.opened h).resolve_right fun h => hw h.2.1)

/-- A drain does not show whether the sink is open. -/
private lemma drained_opened (draining before : Bool) (batch : List (Row F)) :
    (Writer.drained draining batch).2.opened before = before ∧
      (Writer.pushed draining batch).2.opened before = before := by
  have hdrained : (Writer.drained draining batch).2.opened before = before := by
    unfold Writer.drained
    split_ifs <;> rfl
  refine ⟨hdrained, ?_⟩
  unfold Writer.pushed
  split_ifs
  · rfl
  · exact hdrained

/-- **Every step keeps a returned writer's ring empty.** -/
lemma Emptied.step (hcontrol : Control s) (hflow : Flow h s) (hs : Emptied h s)
    (hst : Step s e s') : Emptied (h ++ [(s, e)]) s' := by
  cases hst with
  | openAlready hc hj => exact ⟨hs.returned, fun _ => Or.inl hj⟩
  | openCall hc hj => exact hs.keep rfl rfl rfl rfl (by simp [hc])
  | openAnswer hc answer => exact hs.keep rfl rfl rfl rfl (by simp [hc])
  | openFailed hc => exact hs.keep rfl rfl rfl rfl (by simp [hc])
  | openConnected hc => exact hs.keep rfl rfl rfl rfl (by simp [hc])
  | openStore hc => exact hs.keep rfl rfl rfl rfl (by simp [hc])
  | openStart hc => exact ⟨by simp, fun _ => Or.inl rfl⟩
  | recordCall hc event => exact hs.keep rfl rfl rfl rfl (by simp [hc])
  | recordOversized hc => exact hs.keep rfl rfl rfl rfl (by simp [hc])
  | recordPush hc h => exact hs.push hcontrol rfl rfl rfl (by simp [hc]) (by simp [hc])
  | recordPushed hc h => exact hs.push hcontrol rfl rfl rfl (by simp [hc]) (by simp [hc])
  | recordRefused hc h => exact hs.push hcontrol rfl rfl rfl (by simp [hc]) (by simp [hc])
  | recordFull hc => exact hs.keep rfl rfl rfl rfl (by simp [hc])
  | closeCall hc hj => exact hs.keep rfl rfl rfl rfl (by simp [hc])
  | closeUnopened hc hj => exact hs.keep rfl rfl rfl rfl (by simp [hc])
  | closeStore hc => exact hs.keep rfl rfl rfl rfl (by simp [hc])
  | closeJoin hc hw => exact ⟨by simp, fun _ => Or.inr ⟨rfl, rfl, hs.returned hw⟩⟩
  | closeReset hc =>
    refine ⟨hs.returned, fun h => ?_⟩
    rw [opened_snoc] at h
    cases h
  | writerLoad hw => exact hs.work rfl (by simp [hw]) rfl (by simp)
  | writerPop hw h => exact hs.work rfl (by simp [hw]) rfl (by simp)
  | @writerPopped draining batch c r row hw h =>
    exact hs.work (drained_opened draining _ _).2 (by simp [hw]) rfl
      fun h => absurd h (pushed_control draining batch row).2
  | @writerEmpty draining batch c r hw hpop =>
    refine hs.work (drained_opened draining _ _).1 (by simp [hw]) rfl fun _ => ?_
    -- The pop that found nothing found the queue of the ring empty.
    obtain ⟨queue, hr, -, hc, -⟩ := hflow
    rw [PopKnown, hw] at hc
    obtain ⟨queue', hop, hr', -, -⟩ := hr.tryPop_done hc hpop
    cases hop with
    | empty => exact hr'.head_eq.trans (UInt64.add_zero _)
  | @writerCall uncounted c next hw answer =>
    exact hs.work rfl (by simp [hw]) (count_same s uncounted c).2.1 (by simp)
  | writerDone hw => exact hs.work rfl (by simp [hw]) rfl (by simp)

/-- `close` returns from its last step only. -/
lemma of_closeReturned (hst : Step s .closeReturned s') :
    s.caller = .closeResetting ∧ s' = { s with caller := .idle, connected := false } := by
  generalize he : SinkEvent.closeReturned = e at hst
  cases hst with
  | closeReset hc => exact ⟨hc, rfl⟩
  | @writerPopped draining batch c r row hw h =>
    have hopened := (drained_opened draining true (batch ++ [row])).2
    rw [← he] at hopened
    cases hopened
  | @writerEmpty draining batch c r hw h =>
    have hopened := (drained_opened draining true batch).1
    rw [← he] at hopened
    cases hopened
  | _ => cases he

/-! ## What a sink may do -/

/-- Steps of a call of `open` on a sink whose writer is not there, or does not move. -/
def Opening (w : Writer F) (h : List (Sink F × SinkEvent F)) : Prop :=
  ∀ p ∈ h, p.1.caller.opens = true ∧ p.1.writer = w ∧ p.2 = .internal

/-- A sequence of calls on a new connection may succeed as a whole. -/
private lemma run_steps (steps : List (OpenStep × Bytes)) (s : Sink F)
    (hc : s.caller = .opening (runSteps steps)) :
    ∃ h, Run Step s h { s with caller := .opening (.pure none) } ∧ Opening s.writer h := by
  induction steps generalizing s with
  | nil => exact ⟨[], hc ▸ .nil, by simp [Opening]⟩
  | cons step steps ih =>
    obtain ⟨step, what⟩ := step
    obtain ⟨h, hr, hopening⟩ := ih { s with caller := .opening (runSteps steps) } rfl
    exact ⟨_, .cons (.openAnswer hc true) hr,
      List.forall_mem_cons.mpr ⟨⟨by rw [hc]; rfl, rfl, rfl⟩, hopening⟩⟩

/-- A call of `open` may go through up to where it starts the writer. -/
lemma run_opening (hc : s.caller = .opening openDatabase) :
    ∃ h, Run Step s h { s with caller := .openStarting, connected := true, stopping := false } ∧
      Opening s.writer h := by
  obtain ⟨h, hr, hopening⟩ := run_steps (openSteps false)
    { s with caller := .opening (runSteps (openSteps false)) } rfl
  have hcalls : Run Step s _ { s with caller := .opening (.pure none) } :=
    .cons (.openAnswer hc true) (.cons (.openAnswer rfl false) hr)
  have hopens : s.caller.opens = true := by
    rw [hc]
    rfl
  refine ⟨_, (hcalls.snoc (.openConnected rfl)).snoc (.openStore rfl), ?_⟩
  refine List.forall_mem_append.mpr ⟨List.forall_mem_append.mpr ⟨?_, ?_⟩, ?_⟩
  · exact List.forall_mem_cons.mpr ⟨⟨hopens, rfl, rfl⟩,
      List.forall_mem_cons.mpr ⟨⟨rfl, rfl, rfl⟩, hopening⟩⟩
  · exact List.forall_mem_singleton.mpr ⟨rfl, rfl, rfl⟩
  · exact List.forall_mem_singleton.mpr ⟨rfl, rfl, rfl⟩

/-- A sink without a writer may be opened. -/
lemma run_opens (hc : s.caller = .idle) (hj : s.joinable = false) :
    ∃ h, Run Step s h { s with
      caller := .idle
      connected := true
      stopping := false
      joinable := true
      writer := .loadStopping } ∧ opened h = true ∧
      ∀ p ∈ h, p.1.writer = s.writer ∧ p.1.caller ≠ .closeResetting := by
  obtain ⟨h, hr, hopening⟩ := run_opening (s := { s with caller := .opening openDatabase }) rfl
  refine ⟨_, (Run.cons (.openCall hc hj) hr).snoc (.openStart rfl), by rw [opened_snoc]; rfl, ?_⟩
  have hquiet : ∀ p ∈ h, p.1.writer = s.writer ∧ p.1.caller ≠ .closeResetting := fun p hp => by
    obtain ⟨hopens, hw, -⟩ := hopening p hp
    exact ⟨hw, fun h => by simp [h, Caller.opens] at hopens⟩
  simp only [List.forall_mem_append, List.forall_mem_cons]
  simpa [hc] using hquiet

/-- The writer is about to read the stop flag and has not seen any of the rows in the ring, whose
number is given, as is the place of the other thread. -/
structure Rests (caller : Caller F) (rows : UInt64) (s : Sink F) : Prop where
  caller : s.caller = caller
  joinable : s.joinable = true
  writer : s.writer = .loadStopping
  cached : s.ring.tail = s.ring.headCache
  rows : s.ring.head = s.ring.tail + rows

/-- An event whose id is short enough is pushed. -/
lemma record_of_le {event : LatencyEvent F}
    (hid : event.correlationId.length ≤ kMaxCorrelationIdBytes) :
    Caller.record event = .recordPushing event (.loadHead (Row.ofEvent event hid)) :=
  dif_neg (Nat.not_lt.mpr hid)

/-- An event whose id is short enough may be recorded if the producer finds room. -/
lemma run_records {event : LatencyEvent F} (hc : s.caller = .idle)
    (hid : event.correlationId.length ≤ kMaxCorrelationIdBytes)
    (hroom : s.ring.head - s.ring.tailCache < s.ring.capacity) :
    ∃ h, Run Step s h { s with
      caller := .idle
      ring := { s.ring.setSlot s.ring.head (Row.ofEvent event hid) with
        head := s.ring.head + 1 } } ∧
      ∀ p ∈ h, p.1.writer = s.writer ∧ p.1.caller ≠ .closeResetting := by
  have hcaller := record_of_le hid
  have hload := SpscRing.tryPush_loadHead hroom (Row.ofEvent event hid)
  refine ⟨_, .cons (.recordCall hc event) (.cons (.recordPush hcaller hload)
    (.cons (.recordPush rfl rfl) (.cons (.recordPushed rfl rfl) .nil))), ?_⟩
  simp [hc, hcaller]

/-- The writer works by itself, outside of `write_batch`, while the other thread stays where it
is. -/
def Alone (caller : Caller F) (h : List (Sink F × SinkEvent F)) : Prop :=
  ∀ p ∈ h, p.1.caller = caller ∧ p.1.writer.inBatch = false ∧
    (p.2 = .internal ∨ ∃ batch, p.2 = .handed batch)

/-- What the writer does by itself neither opens nor closes the sink. -/
lemma Alone.opened {caller : Caller F} {h' : List (Sink F × SinkEvent F)} (ha : Alone caller h')
    (h : List (Sink F × SinkEvent F)) : Sink.opened (h ++ h') = Sink.opened h := by
  induction h' using List.reverseRecOn with
  | nil => rw [List.append_nil]
  | append_singleton h' p ih =>
    obtain ⟨s, e⟩ := p
    rw [← List.append_assoc, opened_snoc,
      ih fun q hq => ha q (List.mem_append_left _ hq)]
    obtain ⟨-, -, rfl | ⟨batch, rfl⟩⟩ := ha (s, e) (List.mem_append_right _ (by simp)) <;> rfl

variable {caller : Caller F}

/-- The writer may take the only row of the ring and hand it over. -/
lemma run_hands (hs : s.Rests caller 1) :
    ∃ h, Run Step s h { s with
      ring := { s.ring with headCache := s.ring.head, tail := s.ring.tail + 1 }
      writer := .writing [s.ring.slot s.ring.tail] (writeBatch [s.ring.slot s.ring.tail]) } ∧
      Alone caller h := by
  obtain ⟨hc, -, hw, hcache, hone⟩ := hs
  have hne : s.ring.tail ≠ s.ring.head := by
    rw [hone]
    exact fun h => by simpa using h.symm
  obtain ⟨r, hr⟩ : ∃ r, r =
      { s.ring with headCache := s.ring.head, tail := s.ring.tail + 1 } := ⟨_, rfl⟩
  have hload : r.tryPop .loadTail = (r, .more (.loadHead r.tail)) :=
    SpscRing.tryPop_loadTail (by rw [hr, hone])
  have hhead : r.tryPop (.loadHead r.tail) = (r, .done none) := by
    rw [hr]
    exact SpscRing.tryPop_loadHead_of_eq hone.symm
  rw [← hr]
  refine ⟨_, .cons (.writerLoad hw) (.cons (.writerPop rfl (SpscRing.tryPop_loadTail hcache))
    (.cons (.writerPop rfl (SpscRing.tryPop_loadHead_of_ne hne)) (.cons (.writerPop rfl rfl)
      (.cons (.writerPopped (r := r) rfl (by rw [hr]; rfl)) (.cons (.writerPop rfl hload)
        (.cons (.writerEmpty rfl hhead) .nil)))))), ?_⟩
  simp [Alone, hc, hw, Writer.inBatch, Writer.pushed, Writer.drained, kMaxBatchRows]

/-- The writer returns after it read the stop flag as set and found the ring empty. -/
lemma run_returns (hs : s.Rests caller 0) (hstop : s.stopping = true) :
    ∃ h, Run Step s h { s with
      ring := { s.ring with headCache := s.ring.head }
      writer := .returned } ∧ Alone caller h := by
  obtain ⟨hc, -, hw, hcache, hempty⟩ := hs
  have hload := SpscRing.tryPop_loadTail hcache
  have hhead := SpscRing.tryPop_loadHead_of_eq (r := s.ring) (by rw [hempty, UInt64.add_zero])
  have hreturn : (Writer.drained (F := F) s.stopping []).1 = .returned := by
    rw [hstop]
    rfl
  have hrun : Run Step s _ { s with
      ring := { s.ring with headCache := s.ring.head }
      writer := (Writer.drained s.stopping []).1 } :=
    .cons (.writerLoad hw) (.cons (.writerPop rfl hload) (.cons (.writerEmpty rfl hhead) .nil))
  rw [hreturn] at hrun
  refine ⟨_, hrun, ?_⟩
  simp [Alone, hc, hw, Writer.inBatch, Writer.drained, hstop]

/-- A sink on which an event was recorded and another one dropped, whose id is too long, may be
where `close` waits for the writer. -/
lemma run_joining : ∃ (h : List (Sink ℚ × SinkEvent ℚ)) (s : Sink ℚ),
    Run Step (Sink.new 1 (by decide)) h s ∧ opened h = true ∧ s.Rests .closeJoining 1 ∧
      s.stopping = true ∧ s.rowsWritten = 0 ∧ s.droppedRingFull = 0 ∧ s.droppedOversizedId = 1 ∧
      s.droppedWriteFailed = 0 := by
  obtain ⟨event, hlong⟩ : ∃ event : LatencyEvent ℚ, Caller.record event = .recordOversized event :=
    ⟨⟨List.replicate 129 0, .wakeRecv, 0, 0, 0, false⟩,
      dif_pos (by simp [kMaxCorrelationIdBytes])⟩
  obtain ⟨h, hr, hopened, -⟩ := run_opens (s := Sink.new (F := ℚ) 1 (by decide)) rfl rfl
  have hr' := (((((((hr.snoc (.recordCall rfl ⟨[], .wakeRecv, 0, 0, 0, false⟩)).snoc
    (.recordPush rfl rfl)).snoc (.recordPush rfl rfl)).snoc (.recordPushed rfl rfl)).snoc
    (.recordCall rfl event)).snoc (.recordOversized hlong)).snoc (.closeCall rfl rfl)).snoc
    (.closeStore rfl)
  refine ⟨_, _, hr', ?_, ⟨rfl, rfl, rfl, rfl, rfl⟩, rfl, rfl, rfl, rfl, rfl⟩
  simp only [opened_snoc, hopened]
  rfl

/-! ## Conservation -/

section Conserved

variable [OfScientific F] {capacity : UInt64} {hcap : capacity.toNat ≤ 2 ^ 63}

/-- All the invariants hold in every run. -/
lemma invariants (hr : Run Step (Sink.new capacity hcap) h s) :
    Control s ∧ Flow h s ∧ Begun h s ∧ Counted h s ∧ Emptied h s := by
  refine hr.history_invariant
    (I := fun h s => Control s ∧ Flow h s ∧ Begun h s ∧ Counted h s ∧ Emptied h s)
    ⟨control_new, ⟨[], RingUse.holds_new.ring, trivial, trivial, rfl⟩, rfl, ⟨rfl, trivial⟩,
      by simp [Sink.new], by simp [opened]⟩ ?_
  rintro h s e s' - ⟨hcontrol, hflow, hbegun, hcounted, hemptied⟩ hst
  exact ⟨hcontrol.step hst, hflow.step hcontrol hst, hbegun.step hst,
    hcounted.step hcontrol hst, hemptied.step hcontrol hflow hst⟩

/-- **Telemetry rows are conserved.** In every run of the sink, of any ring, with any answers of
SQLite: the calls of `record` are those counted as dropped, those that returned true, and one that
may be under way; those that returned true are the rows written, those that failed to be written,
those in the ring and those in the writer's batch that were not counted yet; the rows handed to
`write_batch` hold the first of the accepted events, in order; and when `close` returns on a sink
that was open, the ring and the writer's batch are empty, so that the four counters account for
every call.

**Proof sketch.** The accepted rows are those handed over, those drained and the queue of the
ring, in this order. The writer returns only after a pop found the ring empty that began after it
read the flag as set, and since then the other thread waits for it. -/
theorem rows_conserved (hr : Run Step (Sink.new (F := F) capacity hcap) h s) :
    begun h = s.droppedOversizedId + s.droppedRingFull + (accepted h).length +
      s.caller.recording ∧
    (accepted h).length = s.rowsWritten + s.droppedWriteFailed +
      (s.ring.head - s.ring.tail).toNat + (s.writer.batch.length + s.writer.uncounted.length) ∧
    (handedRows h).map Row.event <+: accepted h ∧
    ∀ s', Step s .closeReturned s' → opened h = true →
      s'.ring.head = s'.ring.tail ∧ s'.writer = .absent ∧
      begun h = s'.rowsWritten + s'.droppedRingFull + s'.droppedOversizedId +
        s'.droppedWriteFailed := by
  obtain ⟨hcontrol, ⟨queue, hring, -, -, hflow⟩, hbegun, hcounted, hemptied⟩ := invariants hr
  have hlen : (accepted h).length = s.rowsWritten + s.droppedWriteFailed +
      (s.ring.head - s.ring.tail).toNat + (s.writer.batch.length + s.writer.uncounted.length) := by
    have := hcounted.1
    rw [← hflow, List.length_map, List.length_append, List.length_append, hring.toNat_sub]
    omega
  refine ⟨hbegun, hlen, ⟨(s.writer.batch ++ queue).map Row.event, ?_⟩, fun s' hst hopened => ?_⟩
  · rw [← List.map_append, ← List.append_assoc, hflow]
  · obtain ⟨hc, rfl⟩ := of_closeReturned hst
    obtain hj | ⟨-, hw, hempty⟩ := hemptied.opened hopened
    · simp [hcontrol.resetting hc] at hj
    · refine ⟨hempty, hw, ?_⟩
      have hbegun' : begun h = s.droppedOversizedId + s.droppedRingFull + (accepted h).length := by
        rw [hbegun, hc]
        rfl
      rw [hw, hempty, UInt64.sub_self] at hlen
      have h0 : (0 : UInt64).toNat = 0 := rfl
      simp only [Writer.batch, Writer.uncounted, List.length_nil, h0] at hlen
      simp only
      omega

end Conserved

/-- An event is recorded on an open sink, another whose id is too long is dropped, and `close` lets
the writer write the first: the counters account for both calls. -/
theorem rows_conserved_closed : ∃ (h : List (Sink ℚ × SinkEvent ℚ)) (s s' : Sink ℚ),
    Run Step (Sink.new 1 (by decide)) h s ∧ Step s .closeReturned s' ∧ opened h = true ∧
      s'.rowsWritten = 1 ∧ s'.droppedOversizedId = 1 ∧ begun h = 2 ∧
      s'.ring.head = s'.ring.tail ∧ s'.writer = .absent := by
  obtain ⟨h₁, s₁, hr₁, hopened₁, hs₁, hstop, hwritten, hdrops⟩ := run_joining
  -- the writer
  obtain ⟨h₂, hr₂, halone₂⟩ := run_hands hs₁
  have hr₃ := (((((hr₂.snoc (.writerCall rfl true)).snoc (.writerCall rfl true)).snoc
    (.writerCall rfl true)).snoc (.writerCall rfl true)).snoc (.writerCall rfl ())).snoc
    (.writerDone rfl)
  obtain ⟨h₄, hr₄, halone₄⟩ := run_returns (s := { s₁ with
    ring := { s₁.ring with headCache := s₁.ring.head, tail := s₁.ring.tail + 1 }
    rowsWritten := s₁.rowsWritten + 1
    writer := .loadStopping })
    ⟨hs₁.caller, hs₁.joinable, rfl, hs₁.rows.symm, by simp [hs₁.rows]⟩ hstop
  -- `close`
  obtain ⟨h, s, hr, hopened, hst, hrows, hdrops⟩ : ∃ h s,
      Run Step (Sink.new (F := ℚ) 1 (by decide)) h s ∧ opened h = true ∧
        s.caller = .closeResetting ∧ s.rowsWritten = 1 ∧ s.droppedRingFull = 0 ∧
        s.droppedOversizedId = 1 ∧ s.droppedWriteFailed = 0 := by
    refine ⟨_, _, ((hr₁.append hr₃).append hr₄).snoc (.closeJoin hs₁.caller rfl), ?_, rfl,
      by simp only [hwritten], hdrops⟩
    rw [opened_snoc, halone₄.opened]
    simp only [← List.append_assoc, opened_snoc, halone₂.opened, hopened₁, SinkEvent.opened]
  obtain ⟨-, -, -, hclose⟩ := rows_conserved hr
  obtain ⟨hempty, hw, hbegun⟩ := hclose _ (.closeReset hst) hopened
  simp only [hrows, hdrops] at hbegun
  exact ⟨h, s, _, hr, .closeReset hst, hopened, hrows, hdrops.2.1, hbegun, hempty, hw⟩

end Sink

end Hotpath
