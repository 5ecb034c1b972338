import Hotpath.Telemetry.Parents
import Hotpath.Telemetry.SinkSpec

set_option relaxedAutoImplicit false
set_option autoImplicit false

/-!
# The sink and its database

The sink with its two threads, next to the database that answers its writer: a call of
`write_batch` is one step of both. So what is durable can be compared with what was recorded at
every instant, and with it what is left if the process dies there.

## Main definitions

* `Hotpath.Store`, `Hotpath.Store.Step` — the two systems side by side.
* `Hotpath.Sink.Writes` — what a step of the sink means for its writer.
* `Hotpath.Store.Settled` — the invariant of the database.

## Main results

* `Hotpath.Store.crash_consistent` — what is durable at any instant.
-/

namespace Hotpath

open System (Run)
open Program (After Within)

variable {F : Type}

/-- The columns of an event. -/
def LatencyEvent.columns (event : LatencyEvent F) : LatencyColumns F where
  correlationId := event.correlationId
  stage := stageName event.stage
  startedAtMs := event.startedAtMs
  endedAtMs := event.endedAtMs
  durationMs := event.durationMs
  metadataJson := kDryRunMetadata event.dryRun

/-- `sqlite3_close`, which ends a transaction that was left open. -/
def Sqlite.close (s : Sqlite F) : Sqlite F := ⟨s.durable, none⟩

/-- A sink and its database. -/
structure Store (F : Type) where
  sink : Sink F
  written : Written F

namespace Store

/-- The constructor of the sink, and a database whose two tables start empty: rows of earlier
processes are left out. -/
def new [OfScientific F] (capacity : UInt64) (h : capacity.toNat ≤ 2 ^ 63) : Store F where
  sink := Sink.new capacity h
  written := Written.new

/-- The steps of the sink, with those of the database. -/
inductive Step : Store F → SinkEvent F → Store F → Prop
  /-- A call of `write_batch`, as the database answers it. -/
  | call {s : Store F} {uncounted : List (Row F)} {c : WriterCall F}
      {next : c.Answer → WriterProgram F Unit} {answer : c.Answer} {w : Written F}
      (hw : s.sink.writer = .writing uncounted (.call c next))
      (ha : s.written.Step c answer w) :
      Step s .internal
        { sink := { (s.sink.count uncounted c).1 with
            writer := .writing (s.sink.count uncounted c).2 (next answer) }
          written := w }
  | closeReset {s : Store F} (hc : s.sink.caller = .closeResetting) :
      Step s .closeReturned
        { sink := { s.sink with caller := .idle, connected := false }
          written := { s.written with db := s.written.db.close } }
  /-- Any other step of the sink. -/
  | other {s : Store F} {e : SinkEvent F} {t : Sink F} (hs : s.sink.Step e t)
      (hw : ∀ uncounted c next, s.sink.writer = .writing uncounted (.call c next) →
        t.writer = s.sink.writer)
      (hc : s.sink.caller = .closeResetting → t.caller = .closeResetting) :
      Step s e { s with sink := t }

/-- A step of the sink with its database is one of the sink. -/
lemma Step.sink {s s' : Store F} {e : SinkEvent F} (h : Step s e s') : s.sink.Step e s'.sink := by
  cases h with
  | call hw _ => exact .writerCall hw _
  | closeReset hc => exact .closeReset hc
  | other hs _ _ => exact hs

end Store

/-! ## The writer of the sink -/

/-- What a step of the sink means for its writer, and what it hands over. -/
inductive Sink.Writes (s : Sink F) (e : SinkEvent F) (s' : Sink F) : Prop
  | aside (hw : s'.writer = s.writer) (he : e.handedRows = [])
      (hwritten : s'.rowsWritten = s.rowsWritten)
      (hfailed : s'.droppedWriteFailed = s.droppedWriteFailed)
  | works (hw : s.writer.inBatch = false) (hw' : s'.writer.inBatch = false)
      (he : e.handedRows = []) (hwritten : s'.rowsWritten = s.rowsWritten)
      (hfailed : s'.droppedWriteFailed = s.droppedWriteFailed)
  | hands (hw : s.writer.inBatch = false)
      (hw' : s'.writer = .writing e.handedRows (writeBatch e.handedRows))
      (hwritten : s'.rowsWritten = s.rowsWritten)
      (hfailed : s'.droppedWriteFailed = s.droppedWriteFailed)
  | calls {uncounted : List (Row F)} {c : WriterCall F} {next : c.Answer → WriterProgram F Unit}
      (answer : c.Answer) (hw : s.writer = .writing uncounted (.call c next))
      (hw' : s'.writer = .writing (s.count uncounted c).2 (next answer))
  | ends {uncounted : List (Row F)} (hw : s.writer = .writing uncounted (.pure ()))
      (hw' : s'.writer.inBatch = false) (he : e.handedRows = [])
      (hwritten : s'.rowsWritten = s.rowsWritten)
      (hfailed : s'.droppedWriteFailed = s.droppedWriteFailed)

namespace Sink

variable {s s' : Sink F} {e : SinkEvent F}

/-- A drain hands a batch over or not. -/
private lemma writes_drained (draining : Bool) (batch : List (Row F)) (r : SpscRing (Row F))
    (hw : s.writer.inBatch = false) :
    s.Writes (Writer.drained draining batch).2
      { s with writer := (Writer.drained draining batch).1, ring := r } := by
  unfold Writer.drained
  split_ifs
  · exact .works hw rfl rfl rfl rfl
  · exact .works hw rfl rfl rfl rfl
  · exact .hands hw rfl rfl rfl

/-- A row that is put into the batch lets a batch be handed over or not. -/
private lemma writes_pushed (draining : Bool) (batch : List (Row F)) (r : SpscRing (Row F))
    (hw : s.writer.inBatch = false) :
    s.Writes (Writer.pushed draining batch).2
      { s with writer := (Writer.pushed draining batch).1, ring := r } := by
  unfold Writer.pushed
  split_ifs
  · exact .works hw rfl rfl rfl rfl
  · exact writes_drained draining batch r hw

/-- **What a step of the sink means for its writer.** -/
theorem Step.writes (hcontrol : Control s) (hst : Step s e s') : s.Writes e s' := by
  cases hst with
  | openStart hc =>
    have hw := hcontrol.absent (hcontrol.opens (by rw [hc]; rfl))
    exact .works (by rw [hw]; rfl) rfl rfl rfl rfl
  | closeJoin hc hw => exact .works (by rw [hw]; rfl) rfl rfl rfl rfl
  | writerLoad hw => exact .works (by rw [hw]; rfl) rfl rfl rfl rfl
  | writerPop hw _ => exact .works (by rw [hw]; rfl) rfl rfl rfl rfl
  | writerPopped hw _ => exact writes_pushed _ _ _ (by rw [hw]; rfl)
  | writerEmpty hw _ => exact writes_drained _ _ _ (by rw [hw]; rfl)
  | writerCall hw answer => exact .calls answer hw rfl
  | writerDone hw => exact .ends hw rfl rfl rfl rfl
  | _ => exact .aside rfl rfl rfl rfl

end Sink

/-! ## The size of a batch -/

/-- A batch that is drained has room for a row, and one that is written is not above the bound. -/
def Writer.Sized : Writer F → Prop
  | .popping _ batch _ => batch.length < kMaxBatchRows
  | .writing uncounted _ => uncounted.length ≤ kMaxBatchRows
  | _ => True

/-- At most `kMaxBatchRows` rows are on their way from the ring to a counter. -/
lemma Writer.Sized.length_le {w : Writer F} (h : w.Sized) :
    w.batch.length + w.uncounted.length ≤ kMaxBatchRows := by
  cases w with
  | popping _ batch _ => exact Nat.le_of_lt h
  | writing uncounted _ =>
    rw [Writer.batch, List.length_nil, Nat.zero_add]
    · exact h
    · simp
  | _ => exact Nat.zero_le _

/-- A batch of a size that may be handed over. -/
def SinkEvent.Sized (e : SinkEvent F) : Prop :=
  ∀ batch, e = .handed batch → 0 < batch.length ∧ batch.length ≤ kMaxBatchRows

/-- At most `kMaxBatchRows` rows are handed over at once. -/
lemma SinkEvent.Sized.length_le {e : SinkEvent F} (h : e.Sized) :
    e.handedRows.length ≤ kMaxBatchRows := by
  cases e with
  | handed batch => exact (h batch rfl).2
  | _ => exact Nat.zero_le _

/-- An event that hands nothing over. -/
lemma SinkEvent.sized_of_ne {e : SinkEvent F} (h : ∀ batch, e ≠ .handed batch) : e.Sized :=
  fun batch he => absurd he (h batch)

/-- A drained batch. -/
private lemma Writer.drained_sized {draining : Bool} {batch : List (Row F)}
    (h : batch.length ≤ kMaxBatchRows) :
    (Writer.drained draining batch).1.Sized ∧ (Writer.drained draining batch).2.Sized := by
  unfold Writer.drained
  split_ifs with hbatch
  · exact ⟨trivial, SinkEvent.sized_of_ne (by simp)⟩
  · exact ⟨trivial, SinkEvent.sized_of_ne (by simp)⟩
  · refine ⟨h, ?_⟩
    rintro _ ⟨⟩
    exact ⟨List.length_pos_iff.mpr hbatch, h⟩

namespace Sink

variable {s s' : Sink F} {e : SinkEvent F}

/-- A call counts rows off. -/
lemma length_count_le (s : Sink F) (uncounted : List (Row F)) (c : WriterCall F) :
    (s.count uncounted c).2.length ≤ uncounted.length := by
  cases c with
  | sql statement => exact le_rfl
  | addRowsWritten rows => rw [count, List.length_drop]; exact Nat.sub_le _ _
  | addDroppedWriteFailed row => rw [count, List.length_drop]; exact Nat.sub_le _ _

/-- **Every step keeps the batch within its bound.** -/
lemma Step.sized (hst : Step s e s') (hs : s.writer.Sized) : s'.writer.Sized ∧ e.Sized := by
  cases hst with
  | openStart hc => exact ⟨trivial, SinkEvent.sized_of_ne (by simp)⟩
  | closeJoin hc hw => exact ⟨trivial, SinkEvent.sized_of_ne (by simp)⟩
  | writerLoad hw => exact ⟨by simp [Writer.Sized, kMaxBatchRows], SinkEvent.sized_of_ne (by simp)⟩
  | writerPop hw _ =>
    rw [hw] at hs
    exact ⟨hs, SinkEvent.sized_of_ne (by simp)⟩
  | @writerPopped draining batch c r row hw _ =>
    rw [hw] at hs
    have hlen : (batch ++ [row]).length ≤ kMaxBatchRows := by
      rw [List.length_append, List.length_singleton]
      exact hs
    unfold Writer.pushed
    split_ifs with hroom
    · exact ⟨hroom, SinkEvent.sized_of_ne (by simp)⟩
    · exact Writer.drained_sized hlen
  | writerEmpty hw _ =>
    rw [hw] at hs
    exact Writer.drained_sized (Nat.le_of_lt hs)
  | @writerCall uncounted c next hw answer =>
    rw [hw] at hs
    exact ⟨(s.length_count_le uncounted c).trans hs, SinkEvent.sized_of_ne (by simp)⟩
  | writerDone hw => exact ⟨trivial, SinkEvent.sized_of_ne (by simp)⟩
  | _ => exact ⟨hs, SinkEvent.sized_of_ne (by simp)⟩

end Sink

/-! ## The calls of `record` -/

/-- The event of a call of `record` that begins. -/
def SinkEvent.called : SinkEvent F → Option (LatencyEvent F)
  | .recordCalled event => some event
  | _ => none

/-- The event of the call of `record` that is under way. -/
def Caller.current : Caller F → Option (LatencyEvent F)
  | .recordOversized event => some event
  | .recordPushing event _ => some event
  | .recordFull event => some event
  | _ => none

/-- An idle caller has no event in its hands. -/
@[simp]
lemma Caller.current_idle : (Caller.idle : Caller F).current = none := rfl

/-- The event of the call that begins. -/
@[simp]
lemma Caller.current_record (event : LatencyEvent F) : (Caller.record event).current = event := by
  unfold Caller.record
  split_ifs <;> rfl

namespace Sink

variable {h : List (Sink F × SinkEvent F)} {s s' : Sink F} {e : SinkEvent F}

/-- The events `record` was called with, in order. -/
def called (h : List (Sink F × SinkEvent F)) : List (LatencyEvent F) :=
  h.filterMap fun p => p.2.called

/-- A step calls `record` at most once more. -/
@[simp]
lemma called_snoc (h : List (Sink F × SinkEvent F)) (s : Sink F) (e : SinkEvent F) :
    called (h ++ [(s, e)]) = called h ++ e.called.toList := by
  rw [called, List.filterMap_append]
  cases he : e.called <;> simp [called, he]

/-- There are as many events in the calls as calls of `record` began. -/
lemma length_called (h : List (Sink F × SinkEvent F)) : (called h).length = begun h := by
  induction h using List.reverseRecOn with
  | nil => rfl
  | append_singleton h p ih =>
    obtain ⟨s, e⟩ := p
    rw [called_snoc, begun_snoc, List.length_append, ih]
    cases e <;> rfl

/-- What a step of the sink means for the calls of `record`. -/
inductive Calls (s : Sink F) (e : SinkEvent F) (s' : Sink F) : Prop
  | aside (hc : s'.caller.current = s.caller.current) (he : e.called = none)
      (haccepted : e.accepted = none)
  | begins (event : LatencyEvent F) (hc : s.caller = .idle) (hc' : s'.caller = .record event)
      (he : e = .recordCalled event)
  | returns {event : LatencyEvent F} {accepted : Bool} (hc : s.caller.current = some event)
      (hc' : s'.caller = .idle) (he : e = .recordReturned event accepted)

/-- A batch that goes on or is handed over. -/
private lemma called_drained (draining : Bool) (batch : List (Row F)) :
    (Writer.drained draining batch).2.called = none ∧
      (Writer.pushed draining batch).2.called = none := by
  have hdrained : (Writer.drained draining batch).2.called = none := by
    unfold Writer.drained
    split_ifs <;> rfl
  refine ⟨hdrained, ?_⟩
  unfold Writer.pushed
  split_ifs
  · rfl
  · exact hdrained

/-- **What a step of the sink means for the calls of `record`.** -/
theorem Step.calls (hst : Step s e s') : s.Calls e s' := by
  cases hst with
  | recordCall hc event => exact .begins event hc rfl rfl
  | recordOversized hc => exact .returns (by rw [hc]; rfl) rfl rfl
  | recordPush hc h => exact .aside (by rw [hc]; rfl) rfl rfl
  | recordPushed hc h => exact .returns (by rw [hc]; rfl) rfl rfl
  | recordRefused hc h => exact .aside (by rw [hc]; rfl) rfl rfl
  | recordFull hc => exact .returns (by rw [hc]; rfl) rfl rfl
  | writerPopped hw h =>
    exact .aside rfl (called_drained _ _).2 (Writer.pushed_rows _ _).2.1
  | writerEmpty hw h =>
    exact .aside rfl (called_drained _ _).1 (Writer.drained_rows _ _).2.1
  | @writerCall uncounted c next hw answer => cases c <;> exact .aside rfl rfl rfl
  | openAlready hc hj => exact .aside rfl rfl rfl
  | writerLoad hw | writerPop hw h | writerDone hw => exact .aside rfl rfl rfl
  | openCall hc _ | openAnswer hc _ | openFailed hc | openConnected hc | openStore hc
  | openStart hc | closeCall hc _ | closeUnopened hc _ | closeStore hc | closeJoin hc _
  | closeReset hc => exact .aside (by rw [hc]; rfl) rfl rfl

/-- The accepted events are those of some of the calls that returned, in their order. -/
def Returned (h : List (Sink F × SinkEvent F)) (s : Sink F) : Prop :=
  ∃ l, called h = l ++ s.caller.current.toList ∧ (accepted h).Sublist l

/-- One step keeps the accepted events among those of the returned calls. -/
lemma Returned.step (hs : Returned h s) (hst : Step s e s') : Returned (h ++ [(s, e)]) s' := by
  obtain ⟨l, hcalled, hsub⟩ := hs
  rw [Returned, called_snoc, accepted_snoc]
  cases hst.calls with
  | aside hc he haccepted => exact ⟨l, by simp [hcalled, hc, he], by simpa [haccepted] using hsub⟩
  | begins event hc hc' he =>
    subst he
    refine ⟨l, ?_, by simpa [SinkEvent.accepted] using hsub⟩
    simp [hcalled, hc, hc', SinkEvent.called]
  | @returns event accepted hc hc' he =>
    subst he
    refine ⟨l ++ [event], ?_, ?_⟩
    · simp [hcalled, hc, hc', SinkEvent.called]
    · cases accepted with
      | false => simpa [SinkEvent.accepted] using hsub.trans (List.sublist_append_left l [event])
      | true => exact hsub.append (List.Sublist.refl [event])

end Sink

/-! ## The database -/

/-- What is left of `write_batch`. -/
def Writer.rest : Writer F → WriterProgram F Unit
  | .writing _ rest => rest
  | _ => .pure ()

/-- In `write_batch`, what is left is the rest of it. -/
@[simp]
lemma Writer.rest_writing (uncounted : List (Row F)) (rest : WriterProgram F Unit) :
    (Writer.writing uncounted rest).rest = rest := rfl

/-- Outside of `write_batch` nothing of it is left. -/
lemma Writer.rest_of_inBatch {w : Writer F} (h : w.inBatch = false) : w.rest = .pure () := by
  cases w with
  | writing uncounted rest => cases h
  | _ => rfl

namespace Written

/-- Closing the connection leaves what is durable. -/
lemma Agrees.close {w : Written F} {rows : List (Row F)} (h : w.Agrees rows) :
    Agrees { w with db := w.db.close } rows :=
  ⟨h.rows_eq, h.durable, h.rowsWritten, h.droppedWriteFailed⟩

/-- A later state that has the same rows durable. -/
structure Quiet (w w' : Written F) : Prop where
  durable : w'.db.durable = w.db.durable
  rowsWritten : w.rowsWritten ≤ w'.rowsWritten

/-- Every statement may fail, and then leaves what is durable. -/
lemma exists_quiet (w : Written F) (c : WriterCall F) : ∃ r w', Step w c r w' ∧ w.Quiet w' := by
  cases c with
  | sql statement => exact ⟨false, w, ⟨_, .fails statement, rfl⟩, rfl, le_rfl⟩
  | addRowsWritten rows => exact ⟨(), _, rfl, rfl, Nat.le_add_right _ _⟩
  | addDroppedWriteFailed row => exact ⟨(), _, rfl, rfl, le_rfl⟩

end Written

namespace Store

variable {h : List (Sink F × SinkEvent F)} {s s' : Store F} {e : SinkEvent F}

/-- The database goes with the rows that were handed over: the counters of both are the same, and
with what is left of `write_batch` the durable rows will be those counted as written. -/
structure Settled (h : List (Sink F × SinkEvent F)) (s : Store F) : Prop where
  rowsWritten : s.written.rowsWritten = s.sink.rowsWritten
  droppedWriteFailed : s.written.droppedWriteFailed = s.sink.droppedWriteFailed
  agrees : After Written.Step (fun _ w => w.Agrees (Sink.handedRows h)) s.sink.writer.rest
    s.written
  sound : Within Written.Step Written.Allowed (fun _ w => w.db.Sound) s.sink.writer.rest s.written

/-- A step that leaves the database alone. -/
private lemma Settled.keep (hs : Settled h s) {t : Sink F}
    (hwritten : t.rowsWritten = s.sink.rowsWritten)
    (hfailed : t.droppedWriteFailed = s.sink.droppedWriteFailed) (he : e.handedRows = [])
    (hrest : t.writer.rest = s.sink.writer.rest) :
    Settled (h ++ [(s.sink, e)]) { s with sink := t } := by
  have hhanded : Sink.handedRows (h ++ [(s.sink, e)]) = Sink.handedRows h := by simp [he]
  refine ⟨hs.rowsWritten.trans hwritten.symm, hs.droppedWriteFailed.trans hfailed.symm, ?_, ?_⟩
  · rw [hhanded, hrest]
    exact hs.agrees
  · rw [hrest]
    exact hs.sound

/-- **Every step keeps the database with the rows.** -/
lemma Settled.step (hcontrol : s.sink.Control) (hs : Settled h s) (hst : Step s e s') :
    Settled (h ++ [(s.sink, e)]) s' := by
  cases hst with
  | @call uncounted c next answer w hw ha =>
    have hagrees := hs.agrees
    have hsound := hs.sound
    rw [hw] at hagrees hsound
    have hcounts : w.rowsWritten = (s.sink.count uncounted c).1.rowsWritten ∧
        w.droppedWriteFailed = (s.sink.count uncounted c).1.droppedWriteFailed := by
      cases c with
      | sql statement =>
        obtain ⟨db, -, rfl⟩ := ha
        exact ⟨hs.rowsWritten, hs.droppedWriteFailed⟩
      | addRowsWritten rows =>
        obtain rfl := ha
        exact ⟨congrArg (· + rows.length) hs.rowsWritten, hs.droppedWriteFailed⟩
      | addDroppedWriteFailed row =>
        obtain rfl := ha
        exact ⟨hs.rowsWritten, congrArg (· + 1) hs.droppedWriteFailed⟩
    refine ⟨hcounts.1, hcounts.2, ?_, hsound.2 answer w ha⟩
    simpa [SinkEvent.handedRows] using hagrees answer w ha
  | closeReset hc =>
    have hw := hcontrol.absent (hcontrol.resetting hc)
    have hagrees := hs.agrees
    have hsound := hs.sound
    rw [hw] at hagrees hsound
    refine ⟨hs.rowsWritten, hs.droppedWriteFailed, ?_, ?_⟩
    · show After _ _ s.sink.writer.rest _
      rw [hw, Sink.handedRows_snoc]
      exact (List.append_nil (Sink.handedRows h)).symm ▸ hagrees.close
    · show Within _ _ _ s.sink.writer.rest _
      rw [hw]
      exact Sqlite.sound_of_none hsound.durable
  | @other e t ht hcall _ =>
    cases ht.writes hcontrol with
    | aside hw he hwritten hfailed => exact hs.keep hwritten hfailed he (by rw [hw])
    | works hw hw' he hwritten hfailed =>
      exact hs.keep hwritten hfailed he
        (by rw [Writer.rest_of_inBatch hw, Writer.rest_of_inBatch hw'])
    | hands hw hw' hwritten hfailed =>
      have hagrees := hs.agrees
      have hsound := hs.sound
      rw [Writer.rest_of_inBatch hw] at hagrees hsound
      refine ⟨hs.rowsWritten.trans hwritten.symm, hs.droppedWriteFailed.trans hfailed.symm, ?_, ?_⟩
      · rw [Sink.handedRows_snoc]
        show After _ _ t.writer.rest _
        rw [hw']
        exact Written.writeBatch_spec hagrees e.handedRows
      · show Within _ _ _ t.writer.rest _
        rw [hw']
        exact Written.within_writeBatch hsound e.handedRows
    | @calls uncounted c next answer hw hw' =>
      -- The database takes part in this step.
      have hsame := (hcall _ _ _ hw).symm.trans hw'
      rw [hw] at hsame
      injection hsame with _ hnext
      exact absurd hnext.symm (Program.next_ne next answer)
    | ends hw hw' he hwritten hfailed =>
      exact hs.keep hwritten hfailed he (by rw [hw, Writer.rest_of_inBatch hw']; rfl)

/-- The part of a history that concerns the sink. -/
def sinkHistory (hist : List (Store F × SinkEvent F)) : List (Sink F × SinkEvent F) :=
  hist.map fun p => (p.1.sink, p.2)

/-! ## What a sink with its database may do -/

/-- Outside of `write_batch` and of the end of `close`, what the sink does leaves the database
alone. -/
lemma run_of_sink {t : Sink F} (hr : Run Sink.Step s.sink h t)
    (hquiet : ∀ p ∈ h, p.1.writer.inBatch = false ∧ p.1.caller ≠ .closeResetting) :
    ∃ hist, Run Step s hist { s with sink := t } ∧ sinkHistory hist = h := by
  induction hr with
  | nil => exact ⟨[], .nil, rfl⟩
  | @snoc h t t' e _ hs ih =>
    obtain ⟨hbefore, hlast⟩ := List.forall_mem_append.mp hquiet
    obtain ⟨hist, hr, rfl⟩ := ih hbefore
    obtain ⟨hw, hc⟩ := List.forall_mem_singleton.mp hlast
    refine ⟨_, hr.snoc (.other hs (fun _ _ _ h => ?_) fun h => absurd h hc), List.map_append⟩
    have hw' : t.writer.inBatch = false := hw
    rw [show t.writer = _ from h] at hw'
    cases hw'

/-- A batch of one row may be written in one transaction. -/
lemma run_batch {row : Row F} (hw : s.sink.writer = .writing [row] (writeBatch [row]))
    (hdb : s.written.db.transaction = none) :
    ∃ hist w, Run Step s hist
      { sink := { s.sink with rowsWritten := s.sink.rowsWritten + 1, writer := .loadStopping }
        written := w } ∧
      w.db.transaction = none ∧
      w.db.durable.latencyEvents = s.written.db.durable.latencyEvents ++ [row.columns] ∧
      ∀ p ∈ hist, p.1.sink.caller = s.sink.caller ∧ p.2 = .internal := by
  obtain ⟨sink, ⟨durable, transaction⟩, rowsWritten, droppedWriteFailed, counted⟩ := s
  obtain rfl : transaction = none := hdb
  refine ⟨_, _, .cons (.call hw ⟨_, .begin, rfl⟩) (.cons (.call rfl ⟨_, .insertCorrelation _, rfl⟩)
    (.cons (.call rfl ⟨_, .insertLatencyEvent _, rfl⟩) (.cons (.call rfl ⟨_, .commit, rfl⟩)
      (.cons (.call rfl rfl) (.cons (.other (.writerDone rfl) (by simp) id) .nil))))),
    rfl, ?_, ?_⟩
  · simp [Written.countWritten, Tables.append, Tables.addLatencyEvent, Tables.empty]
  · simp [Sink.count]

/-- The writer may take the only row of the ring and make it durable, while the other thread stays
where it is. -/
lemma run_drains {caller : Caller F} (hs : s.sink.Rests caller 1)
    (hc : caller ≠ .closeResetting) (hdb : s.written.db.transaction = none) :
    ∃ hist t, Run Step s hist t ∧
      t.sink = { s.sink with
        ring := { s.sink.ring with headCache := s.sink.ring.head, tail := s.sink.ring.tail + 1 }
        rowsWritten := s.sink.rowsWritten + 1
        writer := .loadStopping } ∧
      t.sink.Rests caller 0 ∧ t.written.db.transaction = none ∧
      t.written.db.durable.latencyEvents = s.written.db.durable.latencyEvents ++
        [(s.sink.ring.slot s.sink.ring.tail).columns] ∧
      ∀ p ∈ hist, p.1.sink.caller = caller ∧
        (p.2 = .internal ∨ ∃ batch, p.2 = .handed batch) := by
  obtain ⟨h, hr, halone⟩ := Sink.run_hands hs
  obtain ⟨hist₁, hr₁, rfl⟩ := run_of_sink hr fun p hp => by
    obtain ⟨hcaller, hbatch, -⟩ := halone p hp
    exact ⟨hbatch, by rwa [hcaller]⟩
  obtain ⟨hist₂, w, hr₂, htransaction, hdurable, hinside⟩ := run_batch (s := { s with
    sink := { s.sink with
      ring := { s.sink.ring with headCache := s.sink.ring.head, tail := s.sink.ring.tail + 1 }
      writer := .writing [s.sink.ring.slot s.sink.ring.tail]
        (writeBatch [s.sink.ring.slot s.sink.ring.tail]) } }) rfl hdb
  refine ⟨_, _, hr₁.append hr₂, rfl,
    ⟨hs.caller, hs.joinable, rfl, hs.rows.symm, by simp [hs.rows]⟩, htransaction, hdurable,
    List.forall_mem_append.mpr ⟨?_, ?_⟩⟩
  · intro p hp
    obtain ⟨hcaller, -, hevent⟩ := halone (p.1.sink, p.2) (List.mem_map_of_mem hp)
    exact ⟨hcaller, hevent⟩
  · exact fun p hp => ⟨(hinside p hp).1.trans hs.caller, .inl (hinside p hp).2⟩

/-! ## What a crash leaves -/

section Runs

variable [OfScientific F] {capacity : UInt64} {hcap : capacity.toNat ≤ 2 ^ 63}
  {hist : List (Store F × SinkEvent F)}

/-- Where the accepted events of a sink are. -/
lemma accepted_of_run {h : List (Sink F × SinkEvent F)} {s : Sink F}
    (hr : Run Sink.Step (Sink.new (F := F) capacity hcap) h s) :
    (Sink.handedRows h).map Row.event <+: Sink.accepted h ∧
      (Sink.accepted h).length = s.rowsWritten + s.droppedWriteFailed +
        (s.ring.head - s.ring.tail).toNat +
        (s.writer.batch.length + s.writer.uncounted.length) := by
  obtain ⟨-, ⟨queue, hring, -, -, hflow⟩, -, hcounted, -⟩ := Sink.invariants hr
  constructor
  · refine ⟨(s.writer.batch ++ queue).map Row.event, ?_⟩
    rw [← List.map_append, ← List.append_assoc, hflow]
  · have := hcounted.1
    rw [← hflow, List.length_map, List.length_append, List.length_append, hring.toNat_sub]
    omega

/-- A run of the sink with its database is a run of the sink. -/
lemma run_sink (hr : Run Step (Store.new (F := F) capacity hcap) hist s) :
    Run Sink.Step (Sink.new capacity hcap) (sinkHistory hist) s.sink := by
  have hproject := hr.project (fun s => s.sink) some fun s e s' hst => Or.inr ⟨e, rfl, hst.sink⟩
  have hmap : (hist.filterMap fun p => (some p.2).map fun e => (p.1.sink, e)) =
      sinkHistory hist := congrFun List.filterMap_eq_map hist
  rwa [hmap] at hproject

/-- The invariants of the database hold in every run. -/
lemma settled (hr : Run Step (Store.new (F := F) capacity hcap) hist s) :
    Settled (sinkHistory hist) s ∧ s.sink.writer.Sized ∧ ∀ p ∈ sinkHistory hist, p.2.Sized := by
  refine hr.history_invariant (I := fun hist s => Settled (sinkHistory hist) s ∧
    s.sink.writer.Sized ∧ ∀ p ∈ sinkHistory hist, p.2.Sized) ?_ ?_
  · exact ⟨⟨rfl, rfl, ⟨rfl, rfl, rfl, rfl⟩, Sqlite.sound_of_none Tables.sound_empty⟩, trivial,
      by simp [sinkHistory]⟩
  · rintro hist s e s' hr ⟨hs, hsized, hevents⟩ hst
    obtain ⟨hcontrol, -⟩ := Sink.invariants (run_sink hr)
    obtain ⟨hsized', hevent⟩ := hst.sink.sized hsized
    have hsnoc : sinkHistory (hist ++ [(s, e)]) = sinkHistory hist ++ [(s.sink, e)] := by
      simp [sinkHistory]
    rw [hsnoc]
    refine ⟨hs.step hcontrol hst, hsized', fun p hp => ?_⟩
    rcases List.mem_append.mp hp with hp | hp
    · exact hevents p hp
    · rw [List.mem_singleton.mp hp]
      exact hevent

/-- The durable rows hold some of the accepted events, among them all that were counted as
written.

**Proof sketch.** If all statements failed from here on, `write_batch` would return with the same
rows durable, and these are the rows it counted as written. -/
lemma durable_of_run (hr : Run Step (Store.new (F := F) capacity hcap) hist s) :
    ∃ events : List (LatencyEvent F), events.Sublist (Sink.accepted (sinkHistory hist)) ∧
      s.written.db.durable.latencyEvents = events.map LatencyEvent.columns ∧
      s.sink.rowsWritten ≤ events.length := by
  obtain ⟨hsettled, -⟩ := settled hr
  obtain ⟨-, w, hagrees, hdurable, hwritten⟩ := hsettled.agrees.exists_end
    (L := Written.Quiet) (fun w => ⟨rfl, le_rfl⟩)
    (fun w w' w'' h h' => ⟨h'.durable.trans h.durable, h.rowsWritten.trans h'.rowsWritten⟩)
    Written.exists_quiet
  refine ⟨(w.counted.filter fun p => p.2).map fun p => p.1.event, ?_, ?_, ?_⟩
  · have hsub : ((w.counted.filter fun p => p.2).map fun p => p.1.event).Sublist
        ((Sink.handedRows (sinkHistory hist)).map Row.event) := by
      rw [← hagrees.rows_eq, List.map_map]
      exact List.filter_sublist.map _
    exact hsub.trans (accepted_of_run (run_sink hr)).1.sublist
  · rw [← hdurable, hagrees.durable, Written.writtenColumns, List.map_map]
    rfl
  · rw [List.length_map, ← List.countP_eq_length_filter, ← hagrees.rowsWritten,
      ← hsettled.rowsWritten]
    exact hwritten

/-- In every run the two tables fit together. -/
lemma sound_of_run (hr : Run Step (Store.new (F := F) capacity hcap) hist s) :
    s.written.db.Sound := by
  have hs := (settled hr).1.sound
  cases hrest : s.sink.writer.rest with
  | pure a =>
    rw [hrest] at hs
    exact hs
  | call c next =>
    rw [hrest] at hs
    exact hs.1.1

/-- The calls of `record` that a run of the sink shows. -/
lemma returned_of_run {h : List (Sink F × SinkEvent F)} {s : Sink F}
    (hr : Run Sink.Step (Sink.new (F := F) capacity hcap) h s) : Sink.Returned h s :=
  hr.history_invariant ⟨[], rfl, .refl []⟩ fun _ _ _ _ _ hs hst => hs.step hst

/-- When `close` returns on a sink that was open, the writer is gone, the counters account for
every call of `record`, and the durable rows are those counted as written. -/
lemma closed_of_run (hr : Run Step (Store.new (F := F) capacity hcap) hist s)
    (hst : Step s .closeReturned s') (hopened : Sink.opened (sinkHistory hist) = true) :
    s'.sink.writer = .absent ∧ s'.sink.joinable = false ∧
      (Sink.called (sinkHistory hist)).length = s'.sink.rowsWritten + s'.sink.droppedRingFull +
        s'.sink.droppedOversizedId + s'.sink.droppedWriteFailed ∧
      s'.written.db.durable.latencyEvents.length = s'.sink.rowsWritten := by
  obtain ⟨hcontrol, -, hbegun, -, hemptied⟩ := Sink.invariants (run_sink hr)
  obtain ⟨hc, hs'⟩ := Sink.of_closeReturned hst.sink
  have hj := hcontrol.resetting hc
  have hw := hcontrol.absent hj
  have hempty : s.sink.ring.head = s.sink.ring.tail := by
    obtain hj' | ⟨-, -, hempty⟩ := hemptied.opened hopened
    · simp [hj] at hj'
    · exact hempty
  obtain ⟨-, hlen⟩ := accepted_of_run (run_sink hr)
  have hsettled := (settled (hr.snoc hst)).1
  have hagrees := hsettled.agrees
  rw [hs'] at hagrees ⊢
  simp only at hagrees ⊢
  rw [hw] at hagrees
  refine ⟨hw, hj, ?_, ?_⟩
  · have h0 : (0 : UInt64).toNat = 0 := rfl
    rw [hw, hempty, UInt64.sub_self] at hlen
    simp only [Writer.batch, Writer.uncounted, List.length_nil, h0] at hlen
    rw [Sink.length_called, hbegun, hc]
    simp only [Caller.recording]
    omega
  · have hagrees' : s'.written.Agrees _ := hagrees
    have hrows := hsettled.rowsWritten
    rw [hs'] at hrows
    rw [hagrees'.durable, Written.writtenColumns, List.length_map, ← List.countP_eq_length_filter,
      ← hagrees'.rowsWritten, hrows]

/-- **A crash leaves a consistent database.** In every run of the sink with its database, whose
tables start empty, whatever SQLite answers and wherever the two threads are: the durable rows hold
some of the accepted events, in the order they were accepted in, among them all that were counted as
written; every one of them has its parent row, and no parent is stored twice; a batch has between
one and `kMaxBatchRows` rows; and of the accepted events at most `kMaxBatchRows` are neither
durable nor counted as failed nor still in the ring. -/
theorem crash_consistent (hr : Run Step (Store.new (F := F) capacity hcap) hist s) :
    (∃ events : List (LatencyEvent F), events.Sublist (Sink.accepted (sinkHistory hist)) ∧
      s.written.db.durable.latencyEvents = events.map LatencyEvent.columns ∧
      s.sink.rowsWritten ≤ events.length ∧
      (Sink.accepted (sinkHistory hist)).length ≤ events.length + s.sink.droppedWriteFailed +
        (s.sink.ring.head - s.sink.ring.tail).toNat + kMaxBatchRows) ∧
    (∀ columns ∈ s.written.db.durable.latencyEvents,
      columns.correlationId ∈ s.written.db.durable.correlations) ∧
    s.written.db.durable.correlations.Nodup ∧
    ∀ p ∈ hist, ∀ batch, p.2 = .handed batch →
      0 < batch.length ∧ batch.length ≤ kMaxBatchRows := by
  obtain ⟨-, hsized, hevents⟩ := settled hr
  have hsound := sound_of_run hr
  refine ⟨?_, hsound.durable.parent, hsound.durable.unique, fun p hp batch hbatch => ?_⟩
  · obtain ⟨events, hsub, hdurable, hrows⟩ := durable_of_run hr
    obtain ⟨-, hlen⟩ := accepted_of_run (run_sink hr)
    have := hsized.length_le
    exact ⟨events, hsub, hdurable, hrows, by omega⟩
  · exact hevents (p.1.sink, p.2) (List.mem_map_of_mem hp) batch hbatch

/-- Of two events the first is durable with its parent row, and the second is still in the ring and
is all that is lost, if the process dies there. -/
theorem crash_consistent_drained :
    ∃ (hist : List (Store ℚ × SinkEvent ℚ)) (s : Store ℚ),
      Run Step (Store.new 1 (by decide)) hist s ∧
        (Sink.accepted (sinkHistory hist)).length = 2 ∧
        (s.sink.ring.head - s.sink.ring.tail).toNat = 1 ∧
        s.written.db.durable.latencyEvents.length = 1 ∧
        (∀ columns ∈ s.written.db.durable.latencyEvents,
          columns.correlationId ∈ s.written.db.durable.correlations) ∧
        ∃ events : List (LatencyEvent ℚ), events.Sublist (Sink.accepted (sinkHistory hist)) ∧
          s.written.db.durable.latencyEvents = events.map LatencyEvent.columns := by
  obtain ⟨event, hid⟩ : ∃ event : LatencyEvent ℚ,
      event.correlationId.length ≤ kMaxCorrelationIdBytes :=
    ⟨⟨[], .wakeRecv, 0, 0, 0, false⟩, Nat.zero_le _⟩
  have hquiet : ∀ {h : List (Sink ℚ × SinkEvent ℚ)} {w : Writer ℚ}, w.inBatch = false →
      (∀ p ∈ h, p.1.writer = w ∧ p.1.caller ≠ .closeResetting) →
      ∀ p ∈ h, p.1.writer.inBatch = false ∧ p.1.caller ≠ .closeResetting :=
    fun hw hp p hmem => ⟨by rw [(hp p hmem).1, hw], (hp p hmem).2⟩
  -- The first event is recorded,
  obtain ⟨hist₁, s₁, hr₁, hs₁, hroom₁, hwritten₁, hsink₁⟩ : ∃ hist s,
      Run Step (Store.new (F := ℚ) 1 (by decide)) hist s ∧ s.sink.Rests .idle 1 ∧
        s.sink.ring.head - s.sink.ring.tailCache < s.sink.ring.capacity ∧
        s.written = Written.new ∧ s.sink.rowsWritten = 0 ∧ s.sink.droppedWriteFailed = 0 := by
    obtain ⟨h₁, hr₁, -, hquiet₁⟩ := Sink.run_opens (s := Sink.new (F := ℚ) 1 (by decide)) rfl rfl
    obtain ⟨h₂, hr₂, hquiet₂⟩ := Sink.run_records (s := { Sink.new (F := ℚ) 1 (by decide) with
      joinable := true
      connected := true
      writer := .loadStopping }) rfl hid (by decide)
    obtain ⟨hist, hr, -⟩ := run_of_sink (s := Store.new 1 (by decide)) (hr₁.append hr₂)
      (List.forall_mem_append.mpr ⟨hquiet rfl hquiet₁, hquiet rfl hquiet₂⟩)
    refine ⟨hist, _, hr, ⟨rfl, rfl, rfl, rfl, rfl⟩, ?_, rfl, rfl, rfl⟩
    show 0 + 1 - 0 < (SpscRing.setSlot _ _ _).capacity
    rw [SpscRing.capacity_setSlot]
    decide
  -- the writer makes it durable,
  obtain ⟨hist₂, s₂, hr₂, hsink₂, hs₂, -, hdurable₂, -⟩ :=
    run_drains hs₁ (by simp) (by rw [hwritten₁]; rfl)
  -- and the second one is recorded.
  obtain ⟨h₃, hr₃, hquiet₃⟩ := Sink.run_records hs₂.caller hid (by rw [hsink₂]; exact hroom₁)
  obtain ⟨hist₃, hr₃', -⟩ := run_of_sink hr₃ (hquiet (by rw [hs₂.writer]; rfl) hquiet₃)
  have hr := (hr₁.append hr₂).append hr₃'
  obtain ⟨⟨events, hsub, hdurable, -⟩, hparent, -, -⟩ := crash_consistent hr
  have hone : s₂.sink.ring.head + 1 - s₂.sink.ring.tail = 1 := by
    rw [hs₂.rows, UInt64.add_zero, UInt64.add_comm, UInt64.add_sub_cancel]
  obtain ⟨-, hlength⟩ := accepted_of_run (run_sink hr)
  refine ⟨_, _, hr, ?_, congrArg UInt64.toNat hone, ?_, hparent, events, hsub, hdurable⟩
  · have hbatch : s₂.sink.writer.batch.length + s₂.sink.writer.uncounted.length = 0 := by
      rw [hs₂.writer]
      rfl
    have hcounts : s₂.sink.rowsWritten = 1 ∧ s₂.sink.droppedWriteFailed = 0 := by
      rw [hsink₂]
      exact ⟨congrArg (· + 1) hsink₁.1, hsink₁.2⟩
    simp only [hbatch, hcounts] at hlength
    exact hlength.trans (congrArg (1 + 0 + UInt64.toNat · + 0) hone)
  · show s₂.written.db.durable.latencyEvents.length = 1
    rw [hdurable₂, hwritten₁]
    rfl

end Runs

end Store

end Hotpath
