import Hotpath.Lib.Progress
import Hotpath.Telemetry.Store

set_option relaxedAutoImplicit false
set_option autoImplicit false

/-!
# The sink does not hang

A call of `close` returns although it waits for the writer, because nothing is put into the ring any
more and a batch is written in a bounded number of calls.

## Main definitions

* `Hotpath.Writer.Left` — how many steps of the writer are left at most.

## Main results

* `Hotpath.writeBatch_costs` — the calls `write_batch` makes.
* `Hotpath.Sink.close_returns` — the bound on a call of `close`.
-/

namespace Hotpath

open Program (Costs)
open System (Run)

variable {F : Type}

/-! ## The calls of a batch -/

/-- A statement is one call. -/
private lemma exec_costs (statement : Statement F) : Costs 1 (exec statement) :=
  Program.costs_perform _

/-- A row takes a statement for its parent and one for itself. -/
private lemma insert_costs (row : Row F) : Costs 2 (insert row) := by
  refine (exec_costs _).bind (l := 1) fun ok => ?_
  cases ok with
  | false => exact (Program.costs_pure false).mono (Nat.zero_le 1)
  | true => exact exec_costs _

/-- A batch takes two statements a row. -/
private lemma insertAll_costs (rows : List (Row F)) : Costs (2 * rows.length) (insertAll rows) := by
  induction rows with
  | nil => exact Program.costs_pure true
  | cons row rows ih =>
    have hsum : 2 * (row :: rows).length = 2 + 2 * rows.length := by
      rw [List.length_cons]
      omega
    rw [hsum]
    refine (insert_costs row).bind fun ok => ?_
    cases ok with
    | false => exact (Program.costs_pure false).mono (Nat.zero_le _)
    | true => exact ih

/-- The rollback after a failure is one call. -/
private lemma rollback_costs {α : Type} {p : WriterProgram F α} {k : ℕ} (hp : Costs k p) :
    Costs (1 + k) (exec .rollback >>= fun _ => p) :=
  (exec_costs _).bind fun _ => hp

/-- A transaction takes its begin, its commit, the count and the rows. -/
private lemma writeTransaction_costs (batch : List (Row F)) :
    Costs (2 * batch.length + 3) (writeTransaction batch) := by
  have hsum : 2 * batch.length + 3 = 1 + (2 * batch.length + 2) := by omega
  rw [hsum]
  refine (exec_costs _).bind fun ok => ?_
  cases ok with
  | false => exact (Program.costs_pure false).mono (Nat.zero_le _)
  | true =>
    refine (insertAll_costs batch).bind fun allInserted => ?_
    have hrollback : Costs 1 (exec .rollback >>= fun _ => (pure false : WriterProgram F Bool)) :=
      rollback_costs (Program.costs_pure false)
    cases allInserted with
    | false => exact hrollback.mono (by omega)
    | true =>
      refine (exec_costs _).bind (l := 1) fun ok => ?_
      cases ok with
      | false => exact hrollback
      | true => exact (Program.costs_pure true).mono (Nat.zero_le 1)

/-- A row of the fallback takes a transaction of its own. -/
private lemma writeRow_costs (row : Row F) : Costs 6 (writeRow row) := by
  have hfailed : Costs 2 (exec .rollback >>= fun _ => addDroppedWriteFailed row) :=
    rollback_costs (Program.costs_perform _)
  refine (exec_costs _).bind (l := 5) fun ok => ?_
  cases ok with
  | false => exact hfailed.mono (by omega)
  | true =>
    refine (insert_costs row).bind (l := 3) fun inserted => ?_
    cases inserted with
    | false => exact hfailed.mono (by omega)
    | true =>
      refine (exec_costs _).bind (l := 2) fun ok => ?_
      cases ok with
      | false => exact hfailed
      | true => exact (Program.costs_perform _).mono (Nat.le_succ 1)

/-- The fallback takes a transaction a row. -/
private lemma writeRows_costs (rows : List (Row F)) : Costs (6 * rows.length) (writeRows rows) := by
  induction rows with
  | nil => exact Program.costs_pure ()
  | cons row rows ih =>
    have hsum : 6 * (row :: rows).length = 6 + 6 * rows.length := by
      rw [List.length_cons]
      omega
    rw [hsum]
    exact (writeRow_costs row).bind fun _ => ih

/-- **The calls of `write_batch`**: in the worst case its transaction fails at the `COMMIT`, and
then every row does. -/
theorem writeBatch_costs (batch : List (Row F)) :
    Costs (8 * batch.length + 4) (writeBatch batch) := by
  have hsum : 8 * batch.length + 4 = 2 * batch.length + 3 + (6 * batch.length + 1) := by omega
  rw [hsum]
  refine (writeTransaction_costs batch).bind fun committed => ?_
  cases committed with
  | false => exact (writeRows_costs batch).mono (by omega)
  | true => exact (Program.costs_perform _).mono (by omega)


/-! ## The writer while it is waited for -/

/-- How many steps of `try_pop` are left at most. -/
def TryPop.left {T : Type} : TryPop T → ℕ
  | .loadTail => 4
  | .loadHead _ => 3
  | .readSlot _ => 2
  | .storeTail _ _ => 1

/-- A step inside of `try_pop` is one less. -/
private lemma left_tryPop {T : Type} {r r' : SpscRing T} {c c' : TryPop T}
    (h : r.tryPop c = (r', .more c')) : c'.left < c.left := by
  cases c with
  | loadTail =>
    simp only [SpscRing.tryPop] at h
    split_ifs at h <;> (cases h; simp [TryPop.left])
  | loadHead tail =>
    simp only [SpscRing.tryPop] at h
    split_ifs at h
    · simp at h
    · cases h
      simp [TryPop.left]
  | readSlot tail =>
    cases h
    simp [TryPop.left]
  | storeTail tail out => simp [SpscRing.tryPop] at h

/-- A pop that finds nothing ends early, and one that takes a value at the end. -/
private lemma left_tryPop_done {T : Type} {r r' : SpscRing T} {c : TryPop T} {result : Option T}
    (h : r.tryPop c = (r', .done result)) : c.left = if result = none then 3 else 1 := by
  cases c with
  | loadTail =>
    simp only [SpscRing.tryPop] at h
    split_ifs at h <;> simp at h
  | loadHead tail =>
    simp only [SpscRing.tryPop] at h
    split_ifs at h
    · cases h
      rfl
    · simp at h
  | readSlot tail => simp [SpscRing.tryPop] at h
  | storeTail tail out =>
    cases h
    rfl

/-- What is left to do after the pop that ends a batch: nothing if the flag was read as set, else
to read it, and with rows in the batch to write them and to begin again. -/
def Writer.leftAfter (draining : Bool) (batch : List (Row F)) : ℕ :=
  if batch = [] then (if draining then 0 else 3) else 8

/-- At most `m` steps of the writer are left, if the flag is set and so many rows are in the ring
and no more come. -/
def Writer.Left (queued : ℕ) (m : ℕ) : Writer F → Prop
  | .absent => True
  | .loadStopping => m = 20 * queued + 5
  | .popping draining batch pop =>
    m = 20 * queued + pop.left + 8 * batch.length + Writer.leftAfter draining batch
  | .writing _ rest => ∃ k, Costs k rest ∧ m = 20 * queued + k + 6
  | .returned => True

/-- The end of a batch takes a step. -/
private lemma left_drained (draining : Bool) (batch : List (Row F)) (queued : ℕ) :
    ∃ m < 20 * queued + 3 + 8 * batch.length + Writer.leftAfter draining batch,
      Writer.Left queued m (Writer.drained draining batch).1 := by
  unfold Writer.drained Writer.leftAfter
  split_ifs with hbatch hdraining
  · exact ⟨0, by omega, trivial⟩
  · exact ⟨20 * queued + 5, by omega, rfl⟩
  · exact ⟨_, by omega, 8 * batch.length + 4, writeBatch_costs batch, rfl⟩

/-- A row that is put into the batch leaves the writer fewer steps. -/
private lemma left_pushed (draining : Bool) (batch : List (Row F)) (row : Row F) (queued : ℕ) :
    ∃ m < 20 * (queued + 1) + 1 + 8 * batch.length + Writer.leftAfter draining batch,
      Writer.Left queued m (Writer.pushed draining (batch ++ [row])).1 := by
  have hlen : (batch ++ [row]).length = batch.length + 1 := by simp
  have hafter : Writer.leftAfter draining (batch ++ [row]) = 8 := by simp [Writer.leftAfter]
  unfold Writer.pushed
  split_ifs
  · refine ⟨_, ?_, rfl⟩
    rw [hlen, hafter, TryPop.left]
    omega
  · obtain ⟨m, hm, hleft⟩ := left_drained draining (batch ++ [row]) queued
    refine ⟨m, ?_, hleft⟩
    rw [hlen, hafter] at hm
    omega

/-- A writer that drained does not end without having returned. -/
private lemma ne_absent_pushed (draining : Bool) (batch : List (Row F)) :
    (Writer.pushed draining batch).1 ≠ .absent ∧ (Writer.drained draining batch).1 ≠ .absent := by
  have hdrained : (Writer.drained draining batch).1 ≠ .absent := by
    unfold Writer.drained
    split_ifs <;> simp
  refine ⟨?_, hdrained⟩
  unfold Writer.pushed
  split_ifs
  · simp
  · exact hdrained

namespace Sink

variable {s s' : Sink F} {e : SinkEvent F}

/-- A sink on which `close` waits for the writer or has just done so, with at most `m` steps
left before it closes the connection. -/
inductive Closing : Sink F → ℕ → Prop
  | joining {s : Sink F} {queue : List (Row F)} {m : ℕ} (hring : s.ring.Holds queue)
      (hpop : s.PopKnown) (hc : s.caller = .closeJoining) (hstop : s.stopping = true)
      (hw : s.writer ≠ .absent) (hleft : Writer.Left queue.length m s.writer) : Closing s (m + 1)
  | resetting {s : Sink F} (hc : s.caller = .closeResetting) (hw : s.writer = .absent) :
      Closing s 0

/-- As long as the writer is there, it is waited for. -/
private lemma Closing.join {m : ℕ} (hs : Closing s m) (hw : s.writer ≠ .absent) :
    s.caller = .closeJoining ∧ ∃ queue m', m = m' + 1 ∧ s.ring.Holds queue ∧ s.PopKnown ∧
      s.stopping = true ∧ Writer.Left queue.length m' s.writer := by
  cases hs with
  | joining hring hpop hc hstop _ hleft => exact ⟨hc, _, _, rfl, hring, hpop, hstop, hleft⟩
  | resetting _ hw' => exact absurd hw' hw

/-- **While `close` waits, every step brings its return nearer.** -/
lemma Closing.step {m : ℕ} (hs : Closing s m) (hst : Step s e s') (he : e ≠ .closeReturned) :
    ∃ m' < m, Closing s' m' := by
  have hcaller : s.caller = .closeJoining ∨ s.caller = .closeResetting ∧ s.writer = .absent := by
    cases hs with
    | joining _ _ hc _ _ _ => exact .inl hc
    | resetting hc hw => exact .inr ⟨hc, hw⟩
  cases hst with
  | closeJoin hc hw =>
    obtain ⟨-, _, m', rfl, -⟩ := hs.join (by simp [hw])
    exact ⟨0, Nat.succ_pos m', .resetting rfl rfl⟩
  | closeReset hc => exact absurd rfl he
  | writerLoad hw =>
    obtain ⟨hc, queue, m', rfl, hring, -, hstop, hleft⟩ := hs.join (by simp [hw])
    rw [hw] at hleft
    obtain rfl := hleft
    refine ⟨20 * queue.length + 4 + 1, by omega, .joining hring trivial hc hstop (by simp) ?_⟩
    simp [Writer.Left, Writer.leftAfter, TryPop.left, hstop]
  | @writerPop draining batch c c' r hw h =>
    obtain ⟨hc, queue, m', rfl, hring, hpop, hstop, hleft⟩ := hs.join (by simp [hw])
    rw [PopKnown, hw] at hpop
    rw [hw] at hleft
    obtain rfl := hleft
    obtain ⟨hring', hpop', -, -⟩ := hring.tryPop_more hpop h
    have hless := left_tryPop h
    exact ⟨_, by omega, .joining hring' hpop' hc hstop (by simp) rfl⟩
  | @writerPopped draining batch c r row hw h =>
    obtain ⟨hc, queue, m', rfl, hring, hpop, hstop, hleft⟩ := hs.join (by simp [hw])
    rw [PopKnown, hw] at hpop
    rw [hw] at hleft
    obtain rfl := hleft
    obtain ⟨queue', hop, hring', -, -⟩ := hring.tryPop_done hpop h
    have hone : c.left = 1 := left_tryPop_done h
    cases hop with
    | pop =>
      obtain ⟨m, hm, hleft⟩ := left_pushed draining batch row queue'.length
      rw [List.length_cons]
      refine ⟨m + 1, by omega, .joining hring' ?_ hc hstop ?_ hleft⟩
      · exact (popKnown_pushed { s with ring := r } draining _).1
      · exact (ne_absent_pushed draining _).1
  | @writerEmpty draining batch c r hw h =>
    obtain ⟨hc, queue, m', rfl, hring, hpop, hstop, hleft⟩ := hs.join (by simp [hw])
    rw [PopKnown, hw] at hpop
    rw [hw] at hleft
    obtain rfl := hleft
    obtain ⟨queue', hop, hring', -, -⟩ := hring.tryPop_done hpop h
    have hthree : c.left = 3 := left_tryPop_done h
    cases hop with
    | empty =>
      obtain ⟨m, hm, hleft⟩ := left_drained draining batch 0
      rw [List.length_nil]
      refine ⟨m + 1, by omega, .joining hring' ?_ hc hstop ?_ hleft⟩
      · exact (popKnown_pushed { s with ring := r } draining _).2
      · exact (ne_absent_pushed draining _).2
  | @writerCall uncounted c next hw answer =>
    obtain ⟨hc, queue, m', rfl, hring, -, hstop, hleft⟩ := hs.join (by simp [hw])
    rw [hw] at hleft
    obtain ⟨k, hcosts, rfl⟩ := hleft
    obtain ⟨k', rfl, hcosts'⟩ := hcosts.of_call answer
    refine ⟨20 * queue.length + k' + 6 + 1, by omega, ?_⟩
    have hleft : Writer.Left queue.length (20 * queue.length + k' + 6)
        (.writing (s.count uncounted c).2 (next answer)) := ⟨k', hcosts', rfl⟩
    cases c <;> exact .joining hring trivial hc hstop (by simp) hleft
  | writerDone hw =>
    obtain ⟨hc, queue, m', rfl, hring, -, hstop, hleft⟩ := hs.join (by simp [hw])
    rw [hw] at hleft
    obtain ⟨k, -, rfl⟩ := hleft
    exact ⟨20 * queue.length + 5 + 1, by omega, .joining hring trivial hc hstop (by simp) rfl⟩
  | _ => simp_all


/-- **While `close` waits, a step can be taken.** -/
lemma Closing.can_step {m : ℕ} (hs : Closing s m) : ∃ e s', Step s e s' := by
  cases hs with
  | joining _ _ hc _ hw _ =>
    cases hwriter : s.writer with
    | absent => exact absurd hwriter hw
    | loadStopping => exact ⟨_, _, .writerLoad hwriter⟩
    | popping draining batch c =>
      obtain ⟨r, o, hpop⟩ : ∃ r o, s.ring.tryPop c = (r, o) := ⟨_, _, rfl⟩
      cases o with
      | more c' => exact ⟨_, _, .writerPop hwriter hpop⟩
      | done result =>
        cases result with
        | none => exact ⟨_, _, .writerEmpty hwriter hpop⟩
        | some row => exact ⟨_, _, .writerPopped hwriter hpop⟩
    | writing uncounted rest =>
      cases rest with
      | pure a => exact ⟨_, _, .writerDone hwriter⟩
      | call c next =>
        cases c with
        | sql statement => exact ⟨_, _, .writerCall hwriter true⟩
        | addRowsWritten rows => exact ⟨_, _, .writerCall hwriter ()⟩
        | addDroppedWriteFailed row => exact ⟨_, _, .writerCall hwriter ()⟩
    | returned => exact ⟨_, _, .closeJoin hc hwriter⟩
  | resetting hc _ => exact ⟨_, _, .closeReset hc⟩

/-- Who waits for the writer has one to wait for, and has set the flag. -/
structure Joins (s : Sink F) : Prop where
  running : s.joinable = true → s.writer ≠ .absent
  storing : s.caller = .closeStoring → s.joinable = true
  joining : s.caller = .closeJoining → s.joinable = true ∧ s.stopping = true

/-- A call of `record` is not one of `close`. -/
private lemma record_ne (event : LatencyEvent F) :
    Caller.record event ≠ .closeStoring ∧ Caller.record event ≠ .closeJoining := by
  unfold Caller.record
  split_ifs <;> simp

/-- One step keeps who waits for the writer within its rights. -/
lemma Joins.step (hs : Joins s) (hst : Step s e s') : Joins s' := by
  cases hst with
  | openAlready hc hj => exact hs
  | openStart hc => exact ⟨by simp, by simp, by simp⟩
  | recordCall hc event =>
    obtain ⟨hstoring, hjoining⟩ := record_ne event
    exact ⟨hs.running, fun h => absurd h hstoring, fun h => absurd h hjoining⟩
  | closeCall hc hj => exact ⟨hs.running, fun _ => hj, by simp⟩
  | closeStore hc => exact ⟨hs.running, by simp, fun _ => ⟨hs.storing hc, rfl⟩⟩
  | closeJoin hc hw => exact ⟨by simp, by simp, by simp⟩
  | writerLoad hw => exact ⟨by simp, hs.storing, hs.joining⟩
  | writerPop hw h => exact ⟨by simp, hs.storing, hs.joining⟩
  | @writerPopped draining batch c r row hw h =>
    exact ⟨fun _ => (ne_absent_pushed draining _).1, hs.storing, hs.joining⟩
  | @writerEmpty draining batch c r hw h =>
    exact ⟨fun _ => (ne_absent_pushed draining _).2, hs.storing, hs.joining⟩
  | @writerCall uncounted c next hw answer =>
    cases c <;> exact ⟨by simp, hs.storing, hs.joining⟩
  | writerDone hw => exact ⟨by simp, hs.storing, hs.joining⟩
  | _ => exact ⟨hs.running, by simp, by simp⟩

/-- The rest of `write_batch` makes no more calls than a full batch does. -/
lemma costs_rest (hcontrol : Control s) (hsized : s.writer.Sized)
    (hs : Costs (8 * kMaxBatchRows + 4) s.writer.rest) (hst : Step s e s') :
    Costs (8 * kMaxBatchRows + 4) s'.writer.rest := by
  obtain ⟨-, hevent⟩ := hst.sized hsized
  have hrest : Costs (8 * kMaxBatchRows + 4) (pure () : WriterProgram F Unit) :=
    (Program.costs_pure ()).mono (Nat.zero_le _)
  cases hst.writes hcontrol with
  | aside hw _ _ _ => rwa [hw]
  | works _ hw' _ _ _ =>
    rw [Writer.rest_of_inBatch hw']
    exact hrest
  | hands _ hw' _ _ =>
    rw [hw']
    refine (writeBatch_costs e.handedRows).mono ?_
    have := hevent.length_le
    omega
  | calls answer hw hw' =>
    rw [hw] at hs
    rw [hw']
    obtain ⟨k, hk, hcosts⟩ := hs.of_call answer
    exact hcosts.mono (by omega)
  | ends _ hw' _ _ _ =>
    rw [Writer.rest_of_inBatch hw']
    exact hrest

/-! ## What a caller waits for -/

section Runs

variable [OfScientific F] {capacity : UInt64} {hcap : capacity.toNat ≤ 2 ^ 63}
  {h h' : List (Sink F × SinkEvent F)}

/-- In every run, who waits for the writer has one to wait for. -/
lemma joins_of_run (hr : Run Step (Sink.new (F := F) capacity hcap) h s) :
    Joins s ∧ s.writer.Sized ∧ Costs (8 * kMaxBatchRows + 4) s.writer.rest := by
  refine hr.history_invariant (I := fun _ s => Joins s ∧ s.writer.Sized ∧
    Costs (8 * kMaxBatchRows + 4) s.writer.rest) ?_ ?_
  · refine ⟨⟨?_, ?_, ?_⟩, trivial, (Program.costs_pure ()).mono (Nat.zero_le _)⟩ <;>
      simp [Sink.new]
  · rintro h s e s' hr ⟨hjoins, hsized, hcosts⟩ hst
    obtain ⟨hcontrol, -⟩ := invariants hr
    exact ⟨hjoins.step hst, (hst.sized hsized).1, costs_rest hcontrol hsized hcosts hst⟩

/-- Where `close` waits for the writer, so many steps are left. -/
private lemma closing_of_run (hr : Run Step (Sink.new (F := F) capacity hcap) h s)
    (hc : s.caller = .closeJoining) : ∃ m ≤ 20 * (s.ring.head - s.ring.tail).toNat +
      8 * kMaxBatchRows + 11, Closing s m := by
  obtain ⟨-, ⟨queue, hring, -, hpop, -⟩, -⟩ := invariants hr
  obtain ⟨hjoins, hsized, hcosts⟩ := joins_of_run hr
  obtain ⟨hj, hstop⟩ := hjoins.joining hc
  rw [hring.toNat_sub]
  obtain ⟨m, hm, hleft⟩ : ∃ m ≤ 20 * queue.length + 8 * kMaxBatchRows + 10,
      Writer.Left queue.length m s.writer := by
    cases hw : s.writer with
    | absent | returned => exact ⟨0, Nat.zero_le _, trivial⟩
    | loadStopping => exact ⟨_, by omega, rfl⟩
    | popping draining batch c =>
      rw [hw] at hsized
      have hbatch : batch.length < kMaxBatchRows := hsized
      have hpops : c.left ≤ 4 := by cases c <;> simp [TryPop.left]
      have hafter : Writer.leftAfter draining batch ≤ 8 := by
        unfold Writer.leftAfter
        split_ifs <;> omega
      exact ⟨_, by omega, rfl⟩
    | writing uncounted rest =>
      rw [hw] at hcosts
      exact ⟨_, by omega, _, hcosts, rfl⟩
  exact ⟨m + 1, by omega, .joining hring hpop hc hstop (hjoins.running hj) hleft⟩

/-- **`close` returns.** In every run of the sink, whatever SQLite answers: from where `close` has
set the flag and waits for the writer, a step can be taken until it returns, and the two threads
take at most so many before it does: twenty for each row in the ring, and those of a full batch.

**Proof sketch.** Nothing is pushed any more. Every step of the writer brings it nearer to a pop
that finds the ring empty after the flag was read as set: a row that is popped is paid for with
its own pop and its calls in `write_batch`. -/
theorem close_returns (hr : Run Step (Sink.new (F := F) capacity hcap) h s)
    (hc : s.caller = .closeJoining) (hr' : Run Step s h' s')
    (hclosing : ∀ p ∈ h', p.2 ≠ .closeReturned) :
    h'.length ≤ 20 * (s.ring.head - s.ring.tail).toNat + 8 * kMaxBatchRows + 11 ∧
      ∃ e s'', Step s' e s'' := by
  obtain ⟨m, hm, hs⟩ := closing_of_run hr hc
  refine ⟨?_, ?_⟩
  · exact (hr'.length_le (fun _ _ _ _ hs hst he => hs.step hst he) hs hclosing).trans hm
  · obtain ⟨m', hs'⟩ : ∃ m', Closing s' m' := by
      refine (hr'.restrict (P := fun e => e ≠ .closeReturned) hclosing).invariant
        (I := fun s => ∃ m, Closing s m) ⟨m, hs⟩ ?_
      rintro s e s' ⟨m, hs⟩ ⟨hst, he⟩
      obtain ⟨m', -, hs'⟩ := hs.step hst he
      exact ⟨m', hs'⟩
    exact hs'.can_step

end Runs

/-- `close` waits for the writer, which has taken the only row of the ring meanwhile and is about to
write it. -/
theorem close_returns_handed : ∃ (h h' : List (Sink ℚ × SinkEvent ℚ)) (s s' : Sink ℚ) (row : Row ℚ),
    Run Step (Sink.new 1 (by decide)) h s ∧ s.caller = .closeJoining ∧
      (s.ring.head - s.ring.tail).toNat = 1 ∧ Run Step s h' s' ∧
      s'.writer = .writing [row] (writeBatch [row]) ∧
      h'.length ≤ 20 * 1 + 8 * kMaxBatchRows + 11 ∧ ∃ e s'', Step s' e s'' := by
  obtain ⟨h, s, hr, -, hs, -⟩ := run_joining
  obtain ⟨h', hr', halone⟩ := run_hands hs
  have hlen : (s.ring.head - s.ring.tail).toNat = 1 := by
    rw [hs.rows, UInt64.add_comm, UInt64.add_sub_cancel]
    rfl
  obtain ⟨hlength, hnext⟩ := close_returns hr hs.caller hr' fun p hp he => by
    obtain ⟨-, -, he' | ⟨batch, he'⟩⟩ := halone p hp <;> simp [he] at he'
  rw [hlen] at hlength
  exact ⟨h, h', s, _, _, hr, hs.caller, hlen, hr', rfl, hlength, hnext⟩

end Sink

end Hotpath
