import Mathlib.Tactic.SplitIfs
import Hotpath.Telemetry.Row

set_option relaxedAutoImplicit false
set_option autoImplicit false

/-!
# The database

What the sink's connection does to the two tables it writes, as far as SQLite documents it: which
statements can succeed, which rows they make durable, and what a statement that fails may leave
behind. Any statement may fail at any time.

## Main definitions

* `Hotpath.Statement` — the statements `write_batch` and `insert` execute.
* `Hotpath.Sqlite` — what is durable, and the open transaction.
* `Hotpath.Sqlite.Step` — what a statement may do, with whether it succeeds.
-/

namespace Hotpath

variable {F : Type}

/-- A statement: the three of `exec`, and the two prepared ones with what is bound to them, from
`sqlite3_reset` to `sqlite3_step`. The time stamp of a parent row is left out. -/
inductive Statement (F : Type) where
  | begin
  | insertCorrelation (correlationId : Bytes)
  | insertLatencyEvent (columns : LatencyColumns F)
  | commit
  | rollback

/-- Rows of the two tables, in the order they were inserted in. -/
structure Tables (F : Type) where
  correlations : List Bytes
  latencyEvents : List (LatencyColumns F)

namespace Tables

/-- The tables of a new database. -/
def empty : Tables F := ⟨[], []⟩

/-- The rows of the one, and then those of the other. -/
def append (t t' : Tables F) : Tables F :=
  ⟨t.correlations ++ t'.correlations, t.latencyEvents ++ t'.latencyEvents⟩

/-- `INSERT OR IGNORE` of a parent row, where other parent rows are visible besides. -/
def addCorrelation (t : Tables F) (visible : List Bytes) (correlationId : Bytes) : Tables F :=
  if correlationId ∈ visible ∨ correlationId ∈ t.correlations then t
  else { t with correlations := t.correlations ++ [correlationId] }

/-- A row more in `latency_events`. -/
def addLatencyEvent (t : Tables F) (columns : LatencyColumns F) : Tables F :=
  { t with latencyEvents := t.latencyEvents ++ [columns] }

/-- A parent row leaves the latency events, whether it is new or not. -/
@[simp]
lemma latencyEvents_addCorrelation (t : Tables F) (visible : List Bytes) (correlationId : Bytes) :
    (t.addCorrelation visible correlationId).latencyEvents = t.latencyEvents := by
  unfold addCorrelation
  split_ifs <;> rfl

end Tables

/-- The rows of the sink's connection: those that are durable, and those of the transaction that
is open, if one is. -/
structure Sqlite (F : Type) where
  durable : Tables F
  transaction : Option (Tables F)

namespace Sqlite

/-- A connection just opened, to a database whose two tables are empty. -/
def new : Sqlite F := ⟨Tables.empty, none⟩

/-- What a statement may do.

* `BEGIN` succeeds only while no transaction is open.
* An insert goes into the open transaction, or is durable at once if there is none. One that
  fails may roll the transaction back.
* A `COMMIT` that succeeds makes the rows of the open transaction durable. One that fails makes
  none durable, and leaves the transaction open or not.
* A `ROLLBACK` that fails leaves the transaction open. -/
inductive Step : Sqlite F → Statement F → Bool → Sqlite F → Prop
  | begin {durable : Tables F} : Step ⟨durable, none⟩ .begin true ⟨durable, some Tables.empty⟩
  | insertCorrelation {durable t : Tables F} (id : Bytes) :
      Step ⟨durable, some t⟩ (.insertCorrelation id) true
        ⟨durable, some (t.addCorrelation durable.correlations id)⟩
  | insertCorrelationAlone {durable : Tables F} (id : Bytes) :
      Step ⟨durable, none⟩ (.insertCorrelation id) true ⟨durable.addCorrelation [] id, none⟩
  | insertLatencyEvent {durable t : Tables F} (columns : LatencyColumns F) :
      Step ⟨durable, some t⟩ (.insertLatencyEvent columns) true
        ⟨durable, some (t.addLatencyEvent columns)⟩
  | insertLatencyEventAlone {durable : Tables F} (columns : LatencyColumns F) :
      Step ⟨durable, none⟩ (.insertLatencyEvent columns) true
        ⟨durable.addLatencyEvent columns, none⟩
  | insertRollsBack {s : Sqlite F} {statement : Statement F}
      (h : (∃ id, statement = .insertCorrelation id) ∨
        ∃ columns, statement = .insertLatencyEvent columns) :
      Step s statement false ⟨s.durable, none⟩
  | commit {durable t : Tables F} : Step ⟨durable, some t⟩ .commit true ⟨durable.append t, none⟩
  | commitRollsBack {s : Sqlite F} : Step s .commit false ⟨s.durable, none⟩
  | rollback {durable t : Tables F} : Step ⟨durable, some t⟩ .rollback true ⟨durable, none⟩
  | fails {s : Sqlite F} (statement : Statement F) : Step s statement false s

/-! ## What statements do to the latency events -/

variable {s s' : Sqlite F}

/-- The latency events that are durable, and those of the open transaction. -/
def Pending (s : Sqlite F) (durable pending : List (LatencyColumns F)) : Prop :=
  s.durable.latencyEvents = durable ∧
    ∃ t, s.transaction = some t ∧ t.latencyEvents = pending

/-- A statement that fails makes nothing durable. -/
lemma Step.durable_of_false {statement : Statement F} (h : Step s statement false s') :
    s'.durable = s.durable := by
  cases h <;> rfl

/-- A `BEGIN` that succeeds opens a transaction without rows. -/
lemma Step.begin_true (h : Step s .begin true s') : s'.Pending s.durable.latencyEvents [] := by
  cases h
  exact ⟨rfl, _, rfl, rfl⟩

/-- A parent row leaves the latency events of the open transaction. -/
lemma Step.insertCorrelation_true {id : Bytes} {durable pending : List (LatencyColumns F)}
    (h : Step s (.insertCorrelation id) true s') (hs : s.Pending durable pending) :
    s'.Pending durable pending := by
  obtain ⟨hdurable, t, ht, hpending⟩ := hs
  cases h with
  | insertCorrelation id =>
    cases ht
    exact ⟨hdurable, _, rfl, (Tables.latencyEvents_addCorrelation _ _ _).trans hpending⟩
  | insertCorrelationAlone id => cases ht

/-- A latency event goes into the open transaction. -/
lemma Step.insertLatencyEvent_true {columns : LatencyColumns F}
    {durable pending : List (LatencyColumns F)}
    (h : Step s (.insertLatencyEvent columns) true s') (hs : s.Pending durable pending) :
    s'.Pending durable (pending ++ [columns]) := by
  obtain ⟨hdurable, t, ht, hpending⟩ := hs
  cases h with
  | insertLatencyEvent columns =>
    cases ht
    exact ⟨hdurable, _, rfl, by rw [Tables.addLatencyEvent, hpending]⟩
  | insertLatencyEventAlone columns => cases ht

/-- A `COMMIT` that succeeds makes exactly those of the open transaction durable. -/
lemma Step.commit_true {durable pending : List (LatencyColumns F)} (h : Step s .commit true s')
    (hs : s.Pending durable pending) : s'.durable.latencyEvents = durable ++ pending := by
  obtain ⟨hdurable, t, ht, hpending⟩ := hs
  cases h
  cases ht
  rw [← hdurable, ← hpending, Tables.append]

/-- A `ROLLBACK` makes nothing durable, whether it succeeds or not. -/
lemma Step.durable_of_rollback {ok : Bool} (h : Step s .rollback ok s') :
    s'.durable = s.durable := by
  cases h <;> rfl

end Sqlite

end Hotpath
