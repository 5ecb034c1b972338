import Hotpath.Telemetry.WriteBatch

set_option relaxedAutoImplicit false
set_option autoImplicit false

/-!
# Rows that SQLite refuses

What `write_batch` makes durable when the only statements that fail are the event inserts of
certain rows. The transaction of the whole batch then succeeds or leaves nothing, and the fallback
writes every other row.

## Main definitions

* `Hotpath.Sqlite.Obeys` — which statements succeed.
* `Hotpath.Tables.Gained` — two tables with the rows written in between.

## Main results

* `Hotpath.Tables.gained_addRows` — what rows add to the two tables.
* `Hotpath.Written.only_refused_rows_lost` — exactly the refused rows of a batch are lost.
-/

namespace Hotpath

variable {F : Type}

/-! ## Written rows -/

namespace Tables

/-- A row with its parent row. -/
def addRow (t : Tables F) (row : Row F) : Tables F :=
  (t.addCorrelation [] row.id).addLatencyEvent row.columns

/-- The tables with some rows more, one after the other, each with its parent row. -/
def addRows (t : Tables F) (rows : List (Row F)) : Tables F := rows.foldl addRow t

/-- What the tables hold besides: the latency events of some rows, in order, and the parents of
these rows that were not there before, once each. -/
structure Gained (t t' : Tables F) (rows : List (Row F)) : Prop where
  latencyEvents : t'.latencyEvents = t.latencyEvents ++ rows.map Row.columns
  correlations : ∃ ids, t'.correlations = t.correlations ++ ids ∧ ids.Nodup ∧
    ∀ id, id ∈ ids ↔ id ∉ t.correlations ∧ ∃ row ∈ rows, row.id = id

/-- A batch without rows gains nothing. -/
lemma gained_nil (t : Tables F) : t.Gained t [] :=
  ⟨by simp, [], by simp, List.nodup_nil, by simp⟩

/-- One more row gains its latency event, and its parent if that is new. -/
lemma Gained.addRow {t t' : Tables F} {rows : List (Row F)} (h : t.Gained t' rows) (row : Row F) :
    t.Gained (t'.addRow row) (rows ++ [row]) := by
  obtain ⟨hevents, ids, hids, hnodup, hmem⟩ := h
  have hvisible : row.id ∈ t'.correlations ↔ row.id ∈ t.correlations ∨ row.id ∈ ids := by
    rw [hids, List.mem_append]
  have hrows : ∀ id, (∃ r ∈ rows ++ [row], r.id = id) ↔ (∃ r ∈ rows, r.id = id) ∨ row.id = id := by
    intro id
    simp [or_and_right, exists_or]
  by_cases hold : row.id ∈ t'.correlations
  · have heq : (t'.addRow row).correlations = t'.correlations := by
      simp [Tables.addRow, addLatencyEvent, addCorrelation, hold]
    refine ⟨?_, ids, heq.trans hids, hnodup, ?_⟩
    · simp [Tables.addRow, addLatencyEvent, addCorrelation, hold, hevents]
    · intro id
      rw [hmem, hrows]
      constructor
      · rintro ⟨hnew, hrow⟩
        exact ⟨hnew, Or.inl hrow⟩
      · rintro ⟨hnew, hrow | rfl⟩
        · exact ⟨hnew, hrow⟩
        · rcases hvisible.mp hold with hold | hold
          · exact absurd hold hnew
          · exact (hmem _).mp hold
  · have heq : (t'.addRow row).correlations = t'.correlations ++ [row.id] := by
      simp [Tables.addRow, addLatencyEvent, addCorrelation, hold]
    have hnew := not_or.mp (hvisible.not.mp hold)
    refine ⟨?_, ids ++ [row.id], ?_, ?_, ?_⟩
    · simp [Tables.addRow, addLatencyEvent, addCorrelation, hold, hevents]
    · rw [heq, hids, List.append_assoc]
    · exact List.nodup_append.mpr ⟨hnodup, List.nodup_singleton _, fun a ha b hb => by
        rw [List.mem_singleton.mp hb]
        rintro rfl
        exact hnew.2 ha⟩
    · intro id
      rw [List.mem_append, hmem, List.mem_singleton, hrows]
      constructor
      · rintro (⟨hid, hrow⟩ | rfl)
        · exact ⟨hid, Or.inl hrow⟩
        · exact ⟨hnew.1, Or.inr rfl⟩
      · rintro ⟨hid, hrow | rfl⟩
        · exact Or.inl ⟨hid, hrow⟩
        · exact Or.inr rfl

/-- **What rows add to the two tables.** -/
theorem gained_addRows (t : Tables F) (rows : List (Row F)) : t.Gained (t.addRows rows) rows := by
  induction rows using List.reverseRecOn with
  | nil => exact t.gained_nil
  | append_singleton rows row ih =>
    rw [addRows, List.foldl_append]
    exact ih.addRow row

/-- A row added to an open transaction is the row added to all that is visible. -/
lemma append_addRow (d t : Tables F) (row : Row F) :
    d.append ((t.addCorrelation d.correlations row.id).addLatencyEvent row.columns) =
      (d.append t).addRow row := by
  unfold addRow addCorrelation append addLatencyEvent
  by_cases h : row.id ∈ d.correlations ∨ row.id ∈ t.correlations
  · simp [h, List.append_assoc]
  · rw [not_or] at h
    simp [h.1, h.2, List.append_assoc]

end Tables

/-! ## Which statements succeed -/

/-- The statements that succeed when only the event inserts of certain rows are refused: `BEGIN`
outside of a transaction, `COMMIT` and `ROLLBACK` in one, the inserts of parent rows, and every
other event insert. -/
def Sqlite.Obeys (refuses : LatencyColumns F → Bool) (s : Sqlite F) (ok : Bool) :
    Statement F → Prop
  | .begin => s.transaction = none → ok = true
  | .insertCorrelation _ => ok = true
  | .insertLatencyEvent columns => ok = !refuses columns
  | .commit => s.transaction ≠ none → ok = true
  | .rollback => s.transaction ≠ none → ok = true

namespace Written

open Program (After after_bind)

/-- What a call of `write_batch` does then. -/
def RefusingStep (refuses : LatencyColumns F → Bool) (s : Written F) :
    (c : WriterCall F) → c.Answer → Written F → Prop
  | .sql statement, ok, s' => Step s (.sql statement) ok s' ∧ s.db.Obeys refuses ok statement
  | .addRowsWritten rows, r, s' => Step s (.addRowsWritten rows) r s'
  | .addDroppedWriteFailed row, r, s' => Step s (.addDroppedWriteFailed row) r s'

/-- Every call is answered. -/
lemma refusingStep_total (refuses : LatencyColumns F → Bool) (s : Written F) (c : WriterCall F) :
    ∃ r s', RefusingStep refuses s c r s' := by
  obtain ⟨⟨durable, transaction⟩, rowsWritten, droppedWriteFailed, counted⟩ := s
  cases c with
  | addRowsWritten rows => exact ⟨(), _, rfl⟩
  | addDroppedWriteFailed row => exact ⟨(), _, rfl⟩
  | sql statement =>
    cases statement with
    | begin =>
      cases transaction with
      | none => exact ⟨true, _, ⟨_, .begin, rfl⟩, fun _ => rfl⟩
      | some t => exact ⟨false, _, ⟨_, .fails _, rfl⟩, fun h => by cases h⟩
    | insertCorrelation id =>
      cases transaction with
      | none => exact ⟨true, _, ⟨_, .insertCorrelationAlone id, rfl⟩, rfl⟩
      | some t => exact ⟨true, _, ⟨_, .insertCorrelation id, rfl⟩, rfl⟩
    | insertLatencyEvent columns =>
      cases h : refuses columns with
      | true => exact ⟨false, _, ⟨_, .fails _, rfl⟩, by simp [Sqlite.Obeys, h]⟩
      | false =>
        cases transaction with
        | none =>
          exact ⟨true, _, ⟨_, .insertLatencyEventAlone columns, rfl⟩, by simp [Sqlite.Obeys, h]⟩
        | some t =>
          exact ⟨true, _, ⟨_, .insertLatencyEvent columns, rfl⟩, by simp [Sqlite.Obeys, h]⟩
    | commit =>
      cases transaction with
      | none => exact ⟨false, _, ⟨_, .fails _, rfl⟩, fun h => absurd rfl h⟩
      | some t => exact ⟨true, _, ⟨_, .commit, rfl⟩, fun _ => rfl⟩
    | rollback =>
      cases transaction with
      | none => exact ⟨false, _, ⟨_, .fails _, rfl⟩, fun h => absurd rfl h⟩
      | some t => exact ⟨true, _, ⟨_, .rollback, rfl⟩, fun _ => rfl⟩

/-! ## One batch -/

variable {refuses : LatencyColumns F → Bool} {s : Written F} {d : Tables F}

/-- A statement changes the database only. -/
private lemma after_refusing {statement : Statement F} {Q : Bool → Written F → Prop}
    (h : ∀ ok db, Sqlite.Step s.db statement ok db → s.db.Obeys refuses ok statement →
      Q ok { s with db := db }) :
    After (RefusingStep refuses) Q (exec statement) s := by
  rintro ok s' ⟨⟨db, hdb, rfl⟩, hobeys⟩
  exact h ok db hdb hobeys

/-- The rows of a batch that are not refused. -/
def kept (refuses : LatencyColumns F → Bool) (rows : List (Row F)) : List (Row F) :=
  rows.filter fun row => !refuses row.columns

/-- The rows of a batch that are refused. -/
def refused (refuses : LatencyColumns F → Bool) (rows : List (Row F)) : List (Row F) :=
  rows.filter fun row => refuses row.columns

/-- `insert` in a transaction adds its row, unless that is refused. -/
private lemma insert_refusing {t : Tables F} (hs : s.db = ⟨d, some t⟩) (row : Row F) :
    After (RefusingStep refuses) (fun ok s' => ok = !refuses row.columns ∧
      (ok = true → ∃ t', s' = { s with db := ⟨d, some t'⟩ } ∧
        d.append t' = (d.append t).addRow row) ∧
      (ok = false → ∃ transaction, s' = { s with db := ⟨d, transaction⟩ })) (insert row) s := by
  refine after_bind.mpr (after_refusing fun ok db hparent hok => ?_)
  obtain rfl : ok = true := hok
  obtain rfl : db = ⟨d, some (t.addCorrelation d.correlations row.id)⟩ := by
    rw [hs] at hparent
    cases hparent
    rfl
  refine after_refusing fun ok db hevent hok => ⟨hok, ?_, ?_⟩
  · rintro rfl
    cases hevent
    exact ⟨_, rfl, d.append_addRow t row⟩
  · rintro rfl
    cases hevent with
    | insertRollsBack _ => exact ⟨none, rfl⟩
    | fails _ => exact ⟨_, rfl⟩

/-- The loop of inserts adds all rows, unless one is refused. -/
private lemma insertAll_refusing {t : Tables F} (rows : List (Row F)) (hs : s.db = ⟨d, some t⟩) :
    After (RefusingStep refuses) (fun ok s' => ok = rows.all (fun row => !refuses row.columns) ∧
      (ok = true → ∃ t', s' = { s with db := ⟨d, some t'⟩ } ∧
        d.append t' = (d.append t).addRows rows) ∧
      (ok = false → ∃ transaction, s' = { s with db := ⟨d, transaction⟩ })) (insertAll rows) s := by
  induction rows generalizing s t with
  | nil => exact ⟨rfl, fun _ => ⟨t, by rw [← hs], rfl⟩, nofun⟩
  | cons row rows ih =>
    refine after_bind.mpr ((insert_refusing hs row).imp ?_)
    rintro ok s' ⟨hok, htrue, hfalse⟩
    rw [List.all_cons, ← hok]
    cases ok with
    | false => exact ⟨rfl, nofun, fun _ => hfalse rfl⟩
    | true =>
      obtain ⟨t', rfl, ht'⟩ := htrue rfl
      rw [Bool.true_and]
      refine (ih (s := { s with db := ⟨d, some t'⟩ }) rfl).imp ?_
      rintro ok s' ⟨hok, htrue, hfalse⟩
      rw [ht'] at htrue
      exact ⟨hok, htrue, hfalse⟩

/-- After a `ROLLBACK` no transaction is open, and what is durable stays. -/
private lemma rollback_refusing {transaction : Option (Tables F)} (hs : s.db = ⟨d, transaction⟩) :
    After (RefusingStep refuses) (fun _ s' => s' = { s with db := ⟨d, none⟩ })
      (exec .rollback) s := by
  refine after_refusing fun ok db hrollback hok => ?_
  cases transaction with
  | none =>
    rw [hs] at hrollback
    cases hrollback <;> rfl
  | some t =>
    obtain rfl : ok = true := hok (by simp [hs])
    rw [hs] at hrollback
    cases hrollback
    rfl

/-- A `BEGIN` outside of a transaction opens one. -/
private lemma begin_refusing (hs : s.db = ⟨d, none⟩) :
    After (RefusingStep refuses) (fun ok s' => ok = true ∧
      s' = { s with db := ⟨d, some Tables.empty⟩ }) (exec .begin) s := by
  refine after_refusing fun ok db hbegin hok => ?_
  obtain rfl : ok = true := hok (by rw [hs])
  rw [hs] at hbegin
  cases hbegin
  exact ⟨rfl, rfl⟩

/-- A `COMMIT` makes the rows of the transaction durable. -/
private lemma commit_refusing {t : Tables F} (hs : s.db = ⟨d, some t⟩) :
    After (RefusingStep refuses) (fun ok s' => ok = true ∧
      s' = { s with db := ⟨d.append t, none⟩ }) (exec .commit) s := by
  refine after_refusing fun ok db hcommit hok => ?_
  obtain rfl : ok = true := hok (by simp [hs])
  rw [hs] at hcommit
  cases hcommit
  exact ⟨rfl, rfl⟩

/-- A transaction without rows adds nothing. -/
private lemma append_empty (d : Tables F) : d.append Tables.empty = d := by
  simp [Tables.append, Tables.empty]

/-- **A batch in one transaction** is written if none of its rows is refused, and leaves nothing
otherwise. -/
private lemma writeTransaction_refusing (batch : List (Row F)) (hs : s.db = ⟨d, none⟩) :
    After (RefusingStep refuses) (fun committed s' =>
      committed = batch.all (fun row => !refuses row.columns) ∧
      s' = { s with db := ⟨if committed then d.addRows batch else d, none⟩ })
      (writeTransaction batch) s := by
  refine after_bind.mpr ((begin_refusing hs).imp ?_)
  rintro _ _ ⟨rfl, rfl⟩
  refine after_bind.mpr ((insertAll_refusing (s := { s with db := ⟨d, some Tables.empty⟩ })
    batch rfl).imp ?_)
  rintro allInserted s' ⟨hall, htrue, hfalse⟩
  rw [← hall]
  cases allInserted with
  | false =>
    obtain ⟨transaction, rfl⟩ := hfalse rfl
    refine after_bind.mpr ((rollback_refusing (s := { s with db := ⟨d, transaction⟩ }) rfl).imp ?_)
    rintro _ _ rfl
    exact ⟨rfl, rfl⟩
  | true =>
    obtain ⟨t, rfl, ht⟩ := htrue rfl
    refine after_bind.mpr ((commit_refusing (s := { s with db := ⟨d, some t⟩ }) rfl).imp ?_)
    rintro _ _ ⟨rfl, rfl⟩
    refine ⟨rfl, ?_⟩
    rw [ht, append_empty]
    rfl

/-- **A row of the fallback** is written and counted so, unless it is refused. -/
private lemma writeRow_refusing (row : Row F) (hs : s.db = ⟨d, none⟩) :
    After (RefusingStep refuses) (fun _ s' => s' =
      if refuses row.columns then { s with db := ⟨d, none⟩ }.countFailed row
      else { s with db := ⟨d.addRow row, none⟩ }.countWritten [row]) (writeRow row) s := by
  refine after_bind.mpr ((begin_refusing hs).imp ?_)
  rintro _ _ ⟨rfl, rfl⟩
  refine after_bind.mpr ((insert_refusing (s := { s with db := ⟨d, some Tables.empty⟩ })
    rfl row).imp ?_)
  rintro inserted s' ⟨hinserted, htrue, hfalse⟩
  cases inserted with
  | false =>
    obtain ⟨transaction, rfl⟩ := hfalse rfl
    have hrefuses : refuses row.columns = true := by simpa using hinserted.symm
    refine after_bind.mpr ((rollback_refusing (s := { s with db := ⟨d, transaction⟩ }) rfl).imp ?_)
    rintro _ _ rfl ⟨⟩ s' rfl
    exact (if_pos hrefuses).symm
  | true =>
    obtain ⟨t, rfl, ht⟩ := htrue rfl
    have hrefuses : refuses row.columns = false := by simpa using hinserted.symm
    refine after_bind.mpr ((commit_refusing (s := { s with db := ⟨d, some t⟩ }) rfl).imp ?_)
    rintro _ _ ⟨rfl, rfl⟩ ⟨⟩ s' rfl
    rw [ht, append_empty, hrefuses]
    rfl

/-- What a batch is written to: the rows that are not refused are durable, and all are counted. -/
def Kept (refuses : LatencyColumns F → Bool) (s s' : Written F) (batch : List (Row F)) : Prop :=
  s'.db = ⟨s.db.durable.addRows (kept refuses batch), none⟩ ∧
    s'.rowsWritten = s.rowsWritten + (kept refuses batch).length ∧
    s'.droppedWriteFailed = s.droppedWriteFailed + (refused refuses batch).length

/-- **The fallback** writes the rows that are not refused.

**Proof sketch.** Induction on the batch: the first row is written or counted as failed, and the
rest is written to the tables it leaves. -/
private lemma writeRows_refusing (batch : List (Row F)) (hs : s.db = ⟨d, none⟩) :
    After (RefusingStep refuses) (fun _ s' => Kept refuses s s' batch) (writeRows batch) s := by
  induction batch generalizing s d with
  | nil => exact ⟨by rw [hs]; rfl, rfl, rfl⟩
  | cons row batch ih =>
    refine after_bind.mpr ((writeRow_refusing row hs).imp ?_)
    rintro _ s₁ rfl
    cases hrefuses : refuses row.columns with
    | true =>
      rw [if_pos rfl]
      refine (ih (d := d) rfl).imp ?_
      rintro _ s' ⟨hdb, hwritten, hfailed⟩
      have hkept : kept refuses (row :: batch) = kept refuses batch := by simp [kept, hrefuses]
      have hrefused : refused refuses (row :: batch) = row :: refused refuses batch := by
        simp [refused, hrefuses]
      refine ⟨?_, ?_, ?_⟩
      · rw [hdb, hkept, hs]
        rfl
      · rw [hwritten, hkept]
        rfl
      · rw [hfailed, hrefused, List.length_cons]
        show s.droppedWriteFailed + 1 + _ = _
        omega
    | false =>
      rw [if_neg (by simp)]
      refine (ih (d := d.addRow row) rfl).imp ?_
      rintro _ s' ⟨hdb, hwritten, hfailed⟩
      have hkept : kept refuses (row :: batch) = row :: kept refuses batch := by
        simp [kept, hrefuses]
      have hrefused : refused refuses (row :: batch) = refused refuses batch := by
        simp [refused, hrefuses]
      refine ⟨?_, ?_, ?_⟩
      · rw [hdb, hkept, hs]
        rfl
      · rw [hwritten, hkept, List.length_cons]
        show s.rowsWritten + 1 + _ = _
        omega
      · rw [hfailed, hrefused]
        rfl

/-- **`write_batch`** writes the rows that are not refused. -/
private lemma writeBatch_refusing (batch : List (Row F)) (hs : s.db = ⟨d, none⟩) :
    After (RefusingStep refuses) (fun _ s' => Kept refuses s s' batch) (writeBatch batch) s := by
  refine after_bind.mpr ((writeTransaction_refusing batch hs).imp ?_)
  rintro committed s₁ ⟨hcommitted, rfl⟩
  cases committed with
  | true =>
    have hall : ∀ row ∈ batch, refuses row.columns = false := by
      simpa using hcommitted.symm
    have hkept : kept refuses batch = batch := by
      rw [kept, List.filter_eq_self]
      intro row hrow
      rw [hall row hrow]
      rfl
    have hrefused : refused refuses batch = [] := by
      rw [refused, List.filter_eq_nil_iff]
      intro row hrow
      rw [hall row hrow]
      exact Bool.false_ne_true
    rintro ⟨⟩ s' rfl
    refine ⟨?_, ?_, ?_⟩
    · rw [hkept, hs]
      rfl
    · rw [hkept]
      rfl
    · rw [hrefused]
      rfl
  | false =>
    refine (writeRows_refusing (s := { s with db := ⟨d, none⟩ }) batch rfl).imp ?_
    rintro _ s' ⟨hdb, hwritten, hfailed⟩
    exact ⟨by rw [hdb, hs], hwritten, hfailed⟩

/-- **Exactly the refused rows of a batch are lost.** Whatever the event inserts of certain rows
meet, if every other statement succeeds where it can, `write_batch` on a connection without an open
transaction returns and leaves none; the latency events gained are those of the rows that are not
refused, in order; their parents are there, those that were new once each, and no other parent is
new; and the two counters grew by the number of these rows and of the refused ones. -/
theorem only_refused_rows_lost (refuses : LatencyColumns F → Bool) (s : Written F)
    (batch : List (Row F)) (hs : s.db.transaction = none) :
    (∃ s', Program.Exec (RefusingStep refuses) (writeBatch batch) s () s') ∧
    ∀ s', Program.Exec (RefusingStep refuses) (writeBatch batch) s () s' →
      s'.db.transaction = none ∧
      s'.db.durable.latencyEvents = s.db.durable.latencyEvents ++
        (batch.filter fun row => !refuses row.columns).map Row.columns ∧
      (∃ ids, s'.db.durable.correlations = s.db.durable.correlations ++ ids ∧ ids.Nodup ∧
        ∀ id, id ∈ ids ↔ id ∉ s.db.durable.correlations ∧
          ∃ row ∈ batch, refuses row.columns = false ∧ row.id = id) ∧
      s'.rowsWritten = s.rowsWritten + batch.countP (fun row => !refuses row.columns) ∧
      s'.droppedWriteFailed =
        s.droppedWriteFailed + batch.countP (fun row => refuses row.columns) := by
  constructor
  · obtain ⟨_, s', h⟩ := Program.exec_total (refusingStep_total refuses) (writeBatch batch) s
    exact ⟨s', h⟩
  · intro s' h
    have hdb : s.db = ⟨s.db.durable, none⟩ := by
      rw [← hs]
    obtain ⟨hdb', hwritten, hfailed⟩ := (writeBatch_refusing batch hdb).of_exec h
    obtain ⟨hevents, ids, hids, hnodup, hmem⟩ :=
      s.db.durable.gained_addRows (kept refuses batch)
    refine ⟨by rw [hdb'], by rw [hdb', hevents]; rfl, ⟨ids, by rw [hdb', hids], hnodup, ?_⟩, ?_, ?_⟩
    · intro id
      rw [hmem]
      simp only [kept, List.mem_filter, Bool.not_eq_true', and_assoc]
    · rw [hwritten, kept, List.countP_eq_length_filter]
    · rw [hfailed, refused, List.countP_eq_length_filter]

/-- A row of a stage, zero besides. -/
def stagedRow (stage : LatencyStage) : Row ℚ := { (default : Row ℚ) with stage := stage }

/-- A table that takes only rows of the stage `sign` refuses the first of these two rows, and the
second is written with its parent. -/
theorem only_refused_rows_lost_sign : ∃ s : Written ℚ, s.rowsWritten = 1 ∧
    s.droppedWriteFailed = 1 ∧ s.db.durable.latencyEvents.length = 1 ∧
    [] ∈ s.db.durable.correlations := by
  obtain ⟨⟨s, hs⟩, hall⟩ := only_refused_rows_lost
    (fun columns : LatencyColumns ℚ => columns.stage != stageName .sign) Written.new
    [stagedRow .wakeRecv, stagedRow .sign] rfl
  obtain ⟨-, hevents, ⟨ids, hids, -, hmem⟩, hwritten, hfailed⟩ := hall s hs
  refine ⟨s, hwritten, hfailed, by rw [hevents]; rfl, ?_⟩
  rw [hids]
  exact List.mem_append_right _
    ((hmem []).mpr ⟨List.not_mem_nil, stagedRow .sign, by simp, by decide, rfl⟩)

end Written

end Hotpath
