import Hotpath.Lib.Program
import Hotpath.Lib.System
import Hotpath.Telemetry.Sqlite

set_option relaxedAutoImplicit false
set_option autoImplicit false

/-!
# Writing a batch

`TelemetrySink::insert` and `TelemetrySink::write_batch`, as programs that execute statements and
count rows.

## Main definitions

* `Hotpath.WriterCall` — what `write_batch` does to the world.
* `Hotpath.insert`, `Hotpath.writeBatch`.
* `Hotpath.Written`, `Hotpath.Written.Step` — the database, the counters and which rows were
  counted where.

## Main results

* `Hotpath.counters_match_database` — over any batches, the durable rows are those counted as
  written.
-/

namespace Hotpath

variable {F : Type}

/-! ## The programs -/

/-- What `write_batch` does: it executes a statement, or adds to `rows_written_` or
`dropped_write_failed_` for rows of the batch. -/
inductive WriterCall (F : Type) where
  | sql (statement : Statement F)
  | addRowsWritten (rows : List (Row F))
  | addDroppedWriteFailed (row : Row F)

/-- A statement succeeds or not. -/
abbrev WriterCall.Answer : WriterCall F → Type
  | .sql _ => Bool
  | .addRowsWritten _ => Unit
  | .addDroppedWriteFailed _ => Unit

/-- A program of the writer thread. -/
abbrev WriterProgram (F : Type) : Type → Type := Program (WriterCall F) WriterCall.Answer

/-- A statement, with whether it succeeds. -/
def exec (statement : Statement F) : WriterProgram F Bool :=
  Program.perform (WriterCall.sql statement)

/-- `rows_written_.fetch_add`, for rows. -/
def addRowsWritten (rows : List (Row F)) : WriterProgram F Unit :=
  Program.perform (WriterCall.addRowsWritten rows)

/-- `dropped_write_failed_.fetch_add`, for a row. -/
def addDroppedWriteFailed (row : Row F) : WriterProgram F Unit :=
  Program.perform (WriterCall.addDroppedWriteFailed row)

/-- `insert`. -/
def insert (row : Row F) : WriterProgram F Bool := do
  if !(← exec (.insertCorrelation row.id)) then
    return false
  exec (.insertLatencyEvent row.columns)

/-- The loop over a batch in one transaction, which ends with the first row that is not
inserted. -/
def insertAll : List (Row F) → WriterProgram F Bool
  | [] => return true
  | row :: rows => do if ← insert row then insertAll rows else return false

/-- The first block of `write_batch`: the batch in one transaction. Without a successful `BEGIN`
nothing is rolled back. -/
def writeTransaction (batch : List (Row F)) : WriterProgram F Bool := do
  if ← exec .begin then
    let allInserted ← insertAll batch
    let committed ← if allInserted then exec .commit else pure false
    if committed then
      return true
    let _ ← exec .rollback
    return false
  else
    return false

/-- An iteration of the loop in `write_batch` that retries a row at a time. -/
def writeRow (row : Row F) : WriterProgram F Unit := do
  let began ← exec .begin
  let inserted ← if began then insert row else pure false
  let committed ← if inserted then exec .commit else pure false
  if committed then
    addRowsWritten [row]
  else
    let _ ← exec .rollback
    addDroppedWriteFailed row

/-- The loop of the fallback, a transaction a row. -/
def writeRows : List (Row F) → WriterProgram F Unit
  | [] => return ()
  | row :: rows => do
    writeRow row
    writeRows rows

/-- `write_batch`. -/
def writeBatch (batch : List (Row F)) : WriterProgram F Unit := do
  if ← writeTransaction batch then
    addRowsWritten batch
  else
    writeRows batch

/-! ## The writer's world -/

/-- The database, the two counters, and, in the order of counting, each row that was counted with
whether it was counted as written. -/
structure Written (F : Type) where
  db : Sqlite F
  rowsWritten : ℕ
  droppedWriteFailed : ℕ
  counted : List (Row F × Bool)

namespace Written

/-- After `open`, when nothing was written. The two tables start empty: rows of earlier processes
are left out. -/
def new : Written F := ⟨Sqlite.new, 0, 0, []⟩

/-- `rows_written_` grows by the number of some rows. -/
def countWritten (s : Written F) (rows : List (Row F)) : Written F :=
  { s with
    rowsWritten := s.rowsWritten + rows.length
    counted := s.counted ++ rows.map fun row => (row, true) }

/-- `dropped_write_failed_` grows by one, for a row. -/
def countFailed (s : Written F) (row : Row F) : Written F :=
  { s with
    droppedWriteFailed := s.droppedWriteFailed + 1
    counted := s.counted ++ [(row, false)] }

/-- What a call of `write_batch` may do. -/
def Step (s : Written F) : (c : WriterCall F) → c.Answer → Written F → Prop
  | .sql statement, ok, s' => ∃ db, Sqlite.Step s.db statement ok db ∧ s' = { s with db := db }
  | .addRowsWritten rows, _, s' => s' = s.countWritten rows
  | .addDroppedWriteFailed row, _, s' => s' = s.countFailed row

/-- A whole execution of `write_batch`. -/
def BatchStep (s : Written F) (batch : List (Row F)) (s' : Written F) : Prop :=
  Program.Exec Step (writeBatch batch) s () s'

/-- Every batch is written to its end, with some outcome of every statement. -/
theorem batchStep_total (s : Written F) (batch : List (Row F)) : ∃ s', BatchStep s batch s' := by
  have hstep : ∀ (s : Written F) (c : WriterCall F), ∃ r s', Step s c r s' := by
    intro s c
    cases c with
    | sql statement => exact ⟨false, _, _, .fails statement, rfl⟩
    | addRowsWritten rows => exact ⟨(), _, rfl⟩
    | addDroppedWriteFailed row => exact ⟨(), _, rfl⟩
  obtain ⟨_, s', h⟩ := Program.exec_total hstep (writeBatch batch) s
  exact ⟨s', h⟩

/-! ## One batch -/

open Program (After after_bind)

variable {s : Written F} {d p : List (LatencyColumns F)}

/-- A statement changes the database only. -/
private lemma after_exec {statement : Statement F} {Q : Bool → Written F → Prop}
    (h : ∀ ok db, Sqlite.Step s.db statement ok db → Q ok { s with db := db }) :
    After Step Q (exec statement) s := by
  rintro ok s' ⟨db, hdb, rfl⟩
  exact h ok db hdb

/-- The database of a state changed, which now has certain latency events durable. -/
private def Turned (s : Written F) (d : List (LatencyColumns F)) (s' : Written F) : Prop :=
  ∃ db, s' = { s with db := db } ∧ db.durable.latencyEvents = d

/-- **`insert`** in a transaction makes nothing durable, and if it succeeds adds its row to the
transaction. -/
private lemma insert_spec (hs : s.db.Pending d p) (row : Row F) :
    After Step (fun ok s' => Turned s d s' ∧ (ok = true → s'.db.Pending d (p ++ [row.columns])))
      (insert row) s := by
  refine after_bind.mpr (after_exec fun ok db hparent => ?_)
  cases ok with
  | false => exact ⟨⟨db, rfl, by rw [hparent.durable_of_false, hs.1]⟩, by simp⟩
  | true =>
    have hdb := hparent.insertCorrelation_true hs
    refine after_exec fun ok db' hevent => ?_
    cases ok with
    | false => exact ⟨⟨db', rfl, by rw [hevent.durable_of_false, hdb.1]⟩, by simp⟩
    | true =>
      have hdb' := hevent.insertLatencyEvent_true hdb
      exact ⟨⟨db', rfl, hdb'.1⟩, fun _ => hdb'⟩

/-- The loop of inserts makes nothing durable, and if it succeeds adds its rows to the
transaction. -/
private lemma insertAll_spec (rows : List (Row F)) (hs : s.db.Pending d p) :
    After Step
      (fun ok s' => Turned s d s' ∧ (ok = true → s'.db.Pending d (p ++ rows.map Row.columns)))
      (insertAll rows) s := by
  induction rows generalizing s p with
  | nil => exact ⟨⟨s.db, rfl, hs.1⟩, fun _ => by simpa using hs⟩
  | cons row rows ih =>
    refine after_bind.mpr ((insert_spec hs row).imp ?_)
    rintro ok s' ⟨⟨db, rfl, hd⟩, hpending⟩
    cases ok with
    | false => exact ⟨⟨db, rfl, hd⟩, by simp⟩
    | true =>
      refine (ih (hpending rfl)).imp ?_
      rintro ok s' ⟨⟨db', rfl, hd'⟩, hpending'⟩
      refine ⟨⟨db', rfl, hd'⟩, fun hok => ?_⟩
      simpa using hpending' hok

/-- **A batch in one transaction** makes all its rows durable or none. -/
private lemma writeTransaction_spec (batch : List (Row F)) (hs : s.db.durable.latencyEvents = d) :
    After Step
      (fun committed s' => Turned s (if committed then d ++ batch.map Row.columns else d) s')
      (writeTransaction batch) s := by
  refine after_bind.mpr (after_exec fun ok db₁ hbegin => ?_)
  cases ok with
  | false => exact ⟨db₁, rfl, by rw [hbegin.durable_of_false, hs]; rfl⟩
  | true =>
    have hdb := hbegin.begin_true
    rw [hs] at hdb
    refine after_bind.mpr ((insertAll_spec batch (s := { s with db := db₁ }) hdb).imp ?_)
    rintro allInserted s' ⟨⟨db₂, rfl, hd⟩, hpending⟩
    cases allInserted with
    | false =>
      exact after_exec fun ok db₃ hrollback =>
        ⟨db₃, rfl, by rw [hrollback.durable_of_rollback, hd]; rfl⟩
    | true =>
      refine after_bind.mpr (after_exec fun ok db₃ hcommit => ?_)
      cases ok with
      | false =>
        exact after_exec fun ok db₄ hrollback => ⟨db₄, rfl, by
          rw [hrollback.durable_of_rollback, hcommit.durable_of_false, hd]
          rfl⟩
      | true => exact ⟨db₃, rfl, hcommit.commit_true (hpending rfl)⟩

/-- The columns of the rows that were counted as written, in order. -/
def writtenColumns (s : Written F) : List (LatencyColumns F) :=
  (s.counted.filter fun p => p.2).map fun p => p.1.columns

/-- The counters agree with the database, after these rows: each of them was counted once, and
those counted as written are the durable ones. -/
structure Agrees (s : Written F) (rows : List (Row F)) : Prop where
  rows_eq : s.counted.map Prod.fst = rows
  durable : s.db.durable.latencyEvents = s.writtenColumns
  rowsWritten : s.rowsWritten = s.counted.countP fun p => p.2
  droppedWriteFailed : s.droppedWriteFailed = s.counted.countP fun p => !p.2

/-- Counting rows as written that became durable. -/
private lemma Agrees.countWritten {rows : List (Row F)} (hs : s.Agrees rows) {s' : Written F}
    {batch : List (Row F)} (h : Turned s (s.writtenColumns ++ batch.map Row.columns) s') :
    (s'.countWritten batch).Agrees (rows ++ batch) := by
  obtain ⟨db, rfl, hd⟩ := h
  have hall : (batch.map fun row => (row, true)).filter (fun p => p.2) =
      batch.map fun row => (row, true) := by
    simp [List.filter_eq_self]
  have hcount : (batch.map fun row => (row, true)).countP (fun p => p.2) = batch.length := by
    rw [List.countP_eq_length_filter, hall, List.length_map]
  have hnone : (batch.map fun row => (row, true)).countP (fun p => !p.2) = 0 := by
    simp [List.countP_eq_zero]
  constructor
  · simp only [Written.countWritten, List.map_append, hs.rows_eq, List.map_map]
    simp [Function.comp_def]
  · rw [writtenColumns, Written.countWritten, List.filter_append, hall, List.map_append,
      List.map_map]
    exact hd
  · rw [Written.countWritten, List.countP_append, hcount, ← hs.rowsWritten]
  · rw [Written.countWritten, List.countP_append, hnone, Nat.add_zero]
    exact hs.droppedWriteFailed

/-- Counting a row as failed that did not become durable. -/
private lemma Agrees.countFailed {rows : List (Row F)} (hs : s.Agrees rows) {s' : Written F}
    {row : Row F} (h : Turned s s.writtenColumns s') :
    (s'.countFailed row).Agrees (rows ++ [row]) := by
  obtain ⟨db, rfl, hd⟩ := h
  constructor
  · simp only [Written.countFailed, List.map_append, hs.rows_eq]
    rfl
  · rw [writtenColumns, Written.countFailed, List.filter_append, List.map_append]
    simpa [writtenColumns] using hd
  · rw [Written.countFailed, List.countP_append]
    simpa using hs.rowsWritten
  · rw [Written.countFailed, List.countP_append, ← hs.droppedWriteFailed]
    rfl

/-- **A row of the fallback** is counted once, and as written if it is durable. -/
private lemma writeRow_spec {rows : List (Row F)} (hs : s.Agrees rows) (row : Row F) :
    After Step (fun _ s' => s'.Agrees (rows ++ [row])) (writeRow row) s := by
  have hfailed : ∀ db, db.durable.latencyEvents = s.writtenColumns →
      After Step (fun _ s' => s'.Agrees (rows ++ [row]))
        (exec .rollback >>= fun _ => addDroppedWriteFailed row) { s with db := db } := by
    intro db hd
    refine after_bind.mpr (after_exec fun ok db' hrollback => ?_)
    rintro ⟨⟩ s' rfl
    exact hs.countFailed ⟨db', rfl, by rw [hrollback.durable_of_rollback, hd]⟩
  refine after_bind.mpr (after_exec fun ok db₁ hbegin => ?_)
  cases ok with
  | false => exact hfailed db₁ (by rw [hbegin.durable_of_false, hs.durable])
  | true =>
    have hdb := hbegin.begin_true
    rw [hs.durable] at hdb
    refine after_bind.mpr ((insert_spec (s := { s with db := db₁ }) hdb row).imp ?_)
    rintro inserted s' ⟨⟨db₂, rfl, hd⟩, hpending⟩
    cases inserted with
    | false => exact hfailed db₂ hd
    | true =>
      refine after_bind.mpr (after_exec fun ok db₃ hcommit => ?_)
      cases ok with
      | false => exact hfailed db₃ (by rw [hcommit.durable_of_false, hd])
      | true =>
        rintro ⟨⟩ s' rfl
        exact hs.countWritten ⟨db₃, rfl, hcommit.commit_true (hpending rfl)⟩

/-- The fallback counts each row once. -/
private lemma writeRows_spec {rows : List (Row F)} (hs : s.Agrees rows) (batch : List (Row F)) :
    After Step (fun _ s' => s'.Agrees (rows ++ batch)) (writeRows batch) s := by
  induction batch generalizing s rows with
  | nil => exact (List.append_nil rows).symm ▸ hs
  | cons row batch ih =>
    refine after_bind.mpr ((writeRow_spec hs row).imp fun _ s' hs' => ?_)
    have := ih hs'
    rwa [List.append_assoc] at this

/-- **`write_batch` keeps the counters in agreement with the database**, whatever transaction an
earlier statement left open.

**Proof sketch.** A `COMMIT` is only executed after a `BEGIN` that succeeded, and so commits
exactly the rows inserted since. -/
theorem writeBatch_spec {rows : List (Row F)} (hs : s.Agrees rows) (batch : List (Row F)) :
    After Step (fun _ s' => s'.Agrees (rows ++ batch)) (writeBatch batch) s := by
  refine after_bind.mpr ((writeTransaction_spec batch hs.durable).imp fun committed s' h => ?_)
  cases committed with
  | true =>
    rintro ⟨⟩ s'' rfl
    exact hs.countWritten h
  | false =>
    obtain ⟨db, rfl, hd⟩ := h
    have hs' : Agrees { s with db := db } rows :=
      ⟨hs.rows_eq, hd, hs.rowsWritten, hs.droppedWriteFailed⟩
    exact writeRows_spec hs' batch

/-! ## Any batches -/

/-- **The counters never disagree with the database**, whose tables start empty. After any batches
and whatever their statements did: the rows of the batches were counted once each, in order; the
counters count them; and the rows that were counted as written are, in this order, those durable in
`latency_events`.

**Proof sketch.** One batch after the other. -/
theorem counters_match_database {h : List (Written F × List (Row F))}
    (hr : System.Run BatchStep Written.new h s) :
    s.counted.map Prod.fst = (h.map Prod.snd).flatten ∧
    s.db.durable.latencyEvents = (s.counted.filter fun p => p.2).map (fun p => p.1.columns) ∧
    s.rowsWritten = s.counted.countP (fun p => p.2) ∧
    s.droppedWriteFailed = s.counted.countP (fun p => !p.2) := by
  have hs : s.Agrees (h.map Prod.snd).flatten := by
    refine hr.history_invariant (I := fun h s => s.Agrees (h.map Prod.snd).flatten)
      ⟨rfl, rfl, rfl, rfl⟩ fun h s batch s' _ hs hbatch => ?_
    have := (writeBatch_spec hs batch).of_exec hbatch
    simpa using this
  exact ⟨hs.rows_eq, hs.durable, hs.rowsWritten, hs.droppedWriteFailed⟩

/-- A row whose `COMMIT` and `ROLLBACK` fail stays behind in a transaction; it is counted as
failed, and the next batch does not make it durable. -/
theorem counters_match_database_open : ∃ s : Written ℚ, s.droppedWriteFailed = 1 ∧
    s.rowsWritten = 1 ∧ s.db.durable.latencyEvents.length = 1 := by
  have hfirst : ∃ s, BatchStep (Written.new (F := ℚ)) [default] s ∧
      s.db = ⟨Tables.empty, none⟩ ∧ s.counted = [(default, false)] :=
    ⟨_, .call ⟨_, .begin, rfl⟩ (.call ⟨_, .insertCorrelation _, rfl⟩
      (.call ⟨_, .insertLatencyEvent _, rfl⟩ (.call (r := false) ⟨_, .fails _, rfl⟩
        (.call (r := false) ⟨_, .fails _, rfl⟩ (.call (r := false) ⟨_, .fails _, rfl⟩
          (.call (r := true) ⟨_, .rollback, rfl⟩ (.call rfl .pure))))))), rfl, rfl⟩
  obtain ⟨s₁, hs₁, hdb, hcounted₁⟩ := hfirst
  have hsecond : ∃ s, BatchStep s₁ [default] s ∧ s.counted = s₁.counted ++ [(default, true)] := by
    obtain ⟨db, rowsWritten, droppedWriteFailed, counted⟩ := s₁
    obtain rfl : db = ⟨Tables.empty, none⟩ := hdb
    exact ⟨_, .call ⟨_, .begin, rfl⟩ (.call ⟨_, .insertCorrelation _, rfl⟩
      (.call ⟨_, .insertLatencyEvent _, rfl⟩ (.call ⟨_, .commit, rfl⟩ (.call rfl .pure)))), rfl⟩
  obtain ⟨s, hs, hcounted⟩ := hsecond
  rw [hcounted₁] at hcounted
  have hr := System.Run.snoc (.snoc .nil hs₁) hs
  obtain ⟨-, hdurable, hwritten, hfailed⟩ := counters_match_database hr
  rw [hcounted] at hdurable hwritten hfailed
  exact ⟨s, hfailed, hwritten, by rw [hdurable]; rfl⟩

end Written

end Hotpath
