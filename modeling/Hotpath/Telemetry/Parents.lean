import Hotpath.Telemetry.WriteBatch

set_option relaxedAutoImplicit false
set_option autoImplicit false

/-!
# Every event has its parent

The two constraints that the schema puts on the rows of the sink: a correlation id is stored once,
and the id of a latency event is stored. `write_batch` keeps both without their being checked, as
`insert` adds the parent row first: they hold of what is durable and of what the connection sees
whenever a statement is executed, whatever the statements before it did.

## Main definitions

* `Hotpath.Tables.Sound`, `Hotpath.Sqlite.Sound` — the constraints.
* `Hotpath.Written.Allowed` — a call that keeps them.

## Main results

* `Hotpath.Written.within_writeBatch` — `write_batch` makes allowed calls only.
-/

namespace Hotpath

variable {F : Type}

/-! ## The constraints -/

/-- A primary key of the parents, and a parent of every event. -/
structure Tables.Sound (t : Tables F) : Prop where
  unique : t.correlations.Nodup
  parent : ∀ columns ∈ t.latencyEvents, columns.correlationId ∈ t.correlations

namespace Tables

variable {t : Tables F}

/-- The empty tables are sound. -/
lemma sound_empty : (Tables.empty (F := F)).Sound := ⟨List.nodup_nil, by simp [Tables.empty]⟩

/-- Nothing is appended with the empty tables. -/
@[simp]
lemma append_empty (t : Tables F) : t.append Tables.empty = t := by
  simp [Tables.append, Tables.empty]

/-- A parent row that is ignored where it is visible, in a transaction. -/
lemma append_addCorrelation (d t : Tables F) (id : Bytes) :
    d.append (t.addCorrelation d.correlations id) = (d.append t).addCorrelation [] id := by
  simp only [addCorrelation, append, List.not_mem_nil, false_or, List.mem_append]
  split_ifs with h
  · rfl
  · simp

/-- The id of a parent row is visible after its insert. -/
lemma mem_addCorrelation (t : Tables F) (id : Bytes) :
    id ∈ (t.addCorrelation [] id).correlations := by
  unfold addCorrelation
  split_ifs with h
  · exact h.resolve_left (List.not_mem_nil)
  · simp

/-- A parent row keeps the constraints. -/
lemma Sound.addCorrelation (h : t.Sound) (id : Bytes) : (t.addCorrelation [] id).Sound := by
  unfold Tables.addCorrelation
  split_ifs with hid
  · exact h
  · rw [not_or] at hid
    constructor
    · exact List.nodup_append.mpr ⟨h.unique, List.nodup_singleton _, fun a ha b hb => by
        rw [List.mem_singleton.mp hb]
        rintro rfl
        exact hid.2 ha⟩
    · intro columns hc
      exact List.mem_append_left _ (h.parent columns hc)

/-- A latency event keeps the constraints if its parent is there. -/
lemma Sound.addLatencyEvent (h : t.Sound) {columns : LatencyColumns F}
    (hparent : columns.correlationId ∈ t.correlations) : (t.addLatencyEvent columns).Sound := by
  refine ⟨h.unique, fun columns' hc => ?_⟩
  rcases List.mem_append.mp hc with hc | hc
  · exact h.parent columns' hc
  · rw [List.mem_singleton.mp hc]
    exact hparent

end Tables

namespace Sqlite

variable {s s' : Sqlite F}

/-- All that the connection sees. -/
def visible (s : Sqlite F) : Tables F := s.durable.append (s.transaction.getD Tables.empty)

/-- The constraints hold of what is durable and of what the connection sees. -/
structure Sound (s : Sqlite F) : Prop where
  durable : s.durable.Sound
  visible : s.visible.Sound

/-- Without a transaction the connection sees what is durable. -/
lemma visible_none (durable : Tables F) : visible ⟨durable, none⟩ = durable :=
  Tables.append_empty durable

/-- Outside of a transaction a database is sound if its durable tables are. -/
lemma sound_of_none {durable : Tables F} (h : durable.Sound) : Sound ⟨durable, none⟩ :=
  ⟨h, by rwa [visible_none]⟩

/-- **A statement keeps the constraints**, an event insert if the connection sees its parent. -/
theorem Step.sound {statement : Statement F} {ok : Bool} (h : Step s statement ok s')
    (hs : s.Sound) (hparent : ∀ columns, statement = .insertLatencyEvent columns →
      columns.correlationId ∈ s.visible.correlations) : s'.Sound := by
  cases h with
  | begin => exact ⟨hs.durable, by simpa [visible] using hs.durable⟩
  | @insertCorrelation durable t id =>
    refine ⟨hs.durable, ?_⟩
    rw [visible, Option.getD_some, Tables.append_addCorrelation]
    exact hs.visible.addCorrelation id
  | insertCorrelationAlone id => exact sound_of_none (hs.durable.addCorrelation id)
  | @insertLatencyEvent durable t columns =>
    refine ⟨hs.durable, ?_⟩
    have hadd : visible ⟨durable, some (t.addLatencyEvent columns)⟩ =
        (visible ⟨durable, some t⟩).addLatencyEvent columns := by
      simp [visible, Tables.append, Tables.addLatencyEvent]
    rw [hadd]
    exact hs.visible.addLatencyEvent (hparent columns rfl)
  | @insertLatencyEventAlone durable columns =>
    have := hparent columns rfl
    rw [visible_none] at this
    exact sound_of_none (hs.durable.addLatencyEvent this)
  | insertRollsBack _ => exact sound_of_none hs.durable
  | commit => exact sound_of_none hs.visible
  | commitRollsBack => exact sound_of_none hs.durable
  | rollback => exact sound_of_none hs.durable
  | fails _ => exact hs

/-- A parent row that was inserted is seen. -/
lemma Step.mem_visible {id : Bytes} (h : Step s (.insertCorrelation id) true s') :
    id ∈ s'.visible.correlations := by
  cases h with
  | insertCorrelation id =>
    rw [visible, Option.getD_some, Tables.append_addCorrelation]
    exact Tables.mem_addCorrelation _ id
  | insertCorrelationAlone id =>
    rw [visible_none]
    exact Tables.mem_addCorrelation _ id

end Sqlite

/-! ## The calls of `write_batch` -/

namespace Written

open Program (Within within_bind)

variable {s : Written F}

/-- A call that is made where the constraints hold, and if it inserts an event, where the parent of
the event is seen. -/
def Allowed (s : Written F) (c : WriterCall F) : Prop :=
  s.db.Sound ∧ ∀ columns, c = .sql (.insertLatencyEvent columns) →
    columns.correlationId ∈ s.db.visible.correlations

/-- What an allowed call leaves behind. -/
lemma Step.sound {c : WriterCall F} {r : c.Answer} {s' : Written F} (h : Step s c r s')
    (hc : s.Allowed c) : s'.db.Sound := by
  cases c with
  | sql statement =>
    obtain ⟨db, hdb, rfl⟩ := h
    exact hdb.sound hc.1 fun columns hst => hc.2 columns (by rw [hst])
  | addRowsWritten rows =>
    obtain rfl := h
    exact hc.1
  | addDroppedWriteFailed row =>
    obtain rfl := h
    exact hc.1

/-- A program whose calls are allowed and that keeps the constraints. -/
private abbrev Keeps {α : Type} (p : WriterProgram F α) (s : Written F) : Prop :=
  Within Step Allowed (fun _ s' => s'.db.Sound) p s

/-- A call that inserts no event is allowed. -/
private lemma keeps_call {c : WriterCall F} (hs : s.db.Sound)
    (hc : ∀ columns, c ≠ .sql (.insertLatencyEvent columns)) : Keeps (Program.perform c) s := by
  have hallowed : s.Allowed c := ⟨hs, fun columns h => absurd h (hc columns)⟩
  exact ⟨hallowed, fun r s' hst => hst.sound hallowed⟩

/-- Programs that keep the tables sound keep them so one after the other. -/
private lemma keeps_bind {α β : Type} {p : WriterProgram F α} {f : α → WriterProgram F β}
    (hp : Keeps p s) (hf : ∀ a (s' : Written F), s'.db.Sound → Keeps (f a) s') :
    Keeps (p >>= f) s :=
  within_bind.mpr (hp.imp fun a s' hs' => hf a s' hs')

/-- A statement that inserts no event keeps the tables sound. -/
private lemma keeps_exec {statement : Statement F} (hs : s.db.Sound)
    (hst : ∀ columns, statement ≠ .insertLatencyEvent columns) : Keeps (exec statement) s :=
  keeps_call hs fun columns h => hst columns (WriterCall.sql.inj h)

/-- **`insert`**: the parent row goes first. -/
private lemma keeps_insert (hs : s.db.Sound) (row : Row F) : Keeps (insert row) s := by
  have hallowed : s.Allowed (.sql (.insertCorrelation row.id)) := ⟨hs, by simp⟩
  refine ⟨hallowed, fun ok s' hst => ?_⟩
  have hs' := hst.sound hallowed
  cases ok with
  | false => exact hs'
  | true =>
    obtain ⟨db, hdb, rfl⟩ := hst
    have hparent : Allowed { s with db := db } (.sql (.insertLatencyEvent row.columns)) := by
      refine ⟨hs', ?_⟩
      rintro columns h
      cases h
      exact hdb.mem_visible
    exact ⟨hparent, fun ok s'' hst => hst.sound hparent⟩

/-- The loop over a batch inserts rows of it, with their parents. -/
private lemma keeps_insertAll (hs : s.db.Sound) (rows : List (Row F)) :
    Keeps (insertAll rows) s := by
  induction rows generalizing s with
  | nil => exact hs
  | cons row rows ih =>
    refine keeps_bind (keeps_insert hs row) fun ok s' hs' => ?_
    cases ok with
    | false => exact hs'
    | true => exact ih hs'

/-- A step that is skipped where the one before it failed. -/
private lemma keeps_skip {α : Type} {b : Bool} {p : WriterProgram F Bool}
    {f : Bool → WriterProgram F α} (hs : s.db.Sound) (hp : Keeps p s)
    (hf : ∀ ok (s' : Written F), s'.db.Sound → Keeps (f ok) s') :
    Keeps (if b then p >>= f else pure false >>= f) s := by
  cases b with
  | false => exact hf false s hs
  | true => exact keeps_bind hp hf

/-- A transaction over a batch keeps the tables sound. -/
private lemma keeps_writeTransaction (hs : s.db.Sound) (batch : List (Row F)) :
    Keeps (writeTransaction batch) s := by
  refine keeps_bind (keeps_exec hs (by simp)) fun began s' hs' => ?_
  cases began with
  | false => exact hs'
  | true =>
    refine keeps_bind (keeps_insertAll hs' batch) fun allInserted s' hs' => ?_
    refine keeps_skip hs' (keeps_exec hs' ?_) fun committed s' hs' => ?_
    · simp
    · cases committed with
      | true => exact hs'
      | false => exact keeps_bind (keeps_exec hs' (by simp)) fun _ s' hs' => hs'

/-- A row of the fallback keeps the tables sound. -/
private lemma keeps_writeRow (hs : s.db.Sound) (row : Row F) : Keeps (writeRow row) s := by
  refine keeps_bind (keeps_exec hs (by simp)) fun began s' hs' => ?_
  refine keeps_skip hs' (keeps_insert hs' row) fun inserted s' hs' => ?_
  refine keeps_skip hs' (keeps_exec hs' ?_) fun committed s' hs' => ?_
  · simp
  · cases committed with
    | true => exact keeps_call hs' (by simp)
    | false => exact keeps_bind (keeps_exec hs' (by simp)) fun _ s' hs' => keeps_call hs' (by simp)

/-- **`write_batch` makes allowed calls only**, wherever the constraints hold before it. -/
theorem within_writeBatch (hs : s.db.Sound) (batch : List (Row F)) :
    Within Step Allowed (fun _ s' => s'.db.Sound) (writeBatch batch) s := by
  have hrows : ∀ (rows : List (Row F)) (s : Written F), s.db.Sound → Keeps (writeRows rows) s := by
    intro rows
    induction rows with
    | nil => exact fun s hs => hs
    | cons row rows ih => exact fun s hs => keeps_bind (keeps_writeRow hs row) fun _ => ih
  refine keeps_bind (keeps_writeTransaction hs batch) fun committed s' hs' => ?_
  cases committed with
  | true => exact keeps_call hs' (by simp)
  | false => exact hrows batch s' hs'

end Written

end Hotpath
