import Hotpath.Lib.System
import Hotpath.Telemetry.Open

set_option relaxedAutoImplicit false
set_option autoImplicit false

/-!
# Who stamps the schema version

What `TelemetrySink::open` leaves in a database file, attempt after attempt, when any of SQLite's
calls may fail. Every statement of `kSchemaSql` is a transaction of its own, so a failure leaves
the objects created before it; the version is stamped by an attempt that did not find the table
`latency_events`, and its query counts as finding none when it fails.

## Main definitions

* `Hotpath.DatabaseFile`, `Hotpath.Faults` — the file, and the calls of an attempt that fail.
* `Hotpath.Session` — a sink and its file, with the attempts to open it.
* `Hotpath.Faults.Orphans`, `Hotpath.Faults.Mistakes` — the two ways an attempt goes wrong.

## Main results

* `Hotpath.open_version`, `Hotpath.open_table`, `Hotpath.open_succeeds` — one attempt.
* `Hotpath.stamped_unless_orphaned` — a database that this process created ends up stamped unless
  an attempt leaves the table without the stamp.
* `Hotpath.version_kept_iff` — a database of another process keeps its version exactly as long as
  no attempt misses its table and gets as far as the stamp.
-/

namespace Hotpath

open System

/-! ## The file -/

/-- What `kSchemaSql` creates. -/
inductive SchemaObject where
  | correlations
  | latencyEvents
  | idxLatencyEventsStage
  | idxLatencyEventsCorrelationId
  | idxLatencyEventsStartedAt
  deriving DecidableEq, Repr

/-- The statements of `kSchemaSql`, each of which creates its object if it does not exist. -/
def kSchemaSql : List SchemaObject :=
  [.correlations, .latencyEvents, .idxLatencyEventsStage, .idxLatencyEventsCorrelationId,
    .idxLatencyEventsStartedAt]

/-- What a database file holds of the schema, and its `user_version`. -/
structure DatabaseFile where
  objects : List SchemaObject
  userVersion : ℤ

/-- Some statements of the schema, run on a file. -/
def DatabaseFile.create (f : DatabaseFile) (statements : List SchemaObject) : DatabaseFile :=
  { f with objects := statements.foldl (fun objects o => objects.insert o) f.objects }

/-- The calls of an attempt that fail, and how many statements of the schema took effect if that
call is one of them. -/
structure Faults where
  fails : OpenStep → Bool
  schemaDone : Fin kSchemaSql.length

/-- No call fails. -/
def Faults.none : Faults := ⟨fun _ => false, ⟨0, by decide⟩⟩

/-- Whether a call succeeds; the query for the table does so with a row. -/
def DatabaseFile.answer (faults : Faults) (f : DatabaseFile) : OpenStep → Bool
  | .stepTableQuery => !faults.fails .stepTableQuery && decide (.latencyEvents ∈ f.objects)
  | step => !faults.fails step

/-- The file after a call. -/
def DatabaseFile.after (faults : Faults) (f : DatabaseFile) : OpenStep → DatabaseFile
  | .schema =>
    f.create (if faults.fails .schema then kSchemaSql.take faults.schemaDone else kSchemaSql)
  | .pragmaUserVersion version =>
    if faults.fails (.pragmaUserVersion version) then f else { f with userVersion := version }
  | _ => f

/-- What calls return on a file and do to it. -/
def DatabaseFile.Step (faults : Faults) (f : DatabaseFile) :
    (c : OpenCall) → c.Answer → DatabaseFile → Prop
  | .attempt step, answer, f' => answer = f.answer faults step ∧ f' = f.after faults step
  | .errmsg, _, f' => f' = f

/-- A file answers every call. -/
lemma DatabaseFile.step_total (faults : Faults) (f : DatabaseFile) (c : OpenCall) :
    ∃ answer f', DatabaseFile.Step faults f c answer f' := by
  cases c with
  | attempt step => exact ⟨f.answer faults step, f.after faults step, rfl, rfl⟩
  | errmsg => exact ⟨[], f, rfl⟩

/-- The statements create their objects and drop none. -/
lemma DatabaseFile.mem_create {f : DatabaseFile} {statements : List SchemaObject}
    {o : SchemaObject} : o ∈ (f.create statements).objects ↔ o ∈ statements ∨ o ∈ f.objects := by
  have hfold : ∀ objects : List SchemaObject,
      o ∈ statements.foldl (fun objects o => objects.insert o) objects ↔
        o ∈ statements ∨ o ∈ objects := by
    induction statements with
    | nil => intro objects; simp
    | cons a statements ih =>
      intro objects
      rw [List.foldl_cons, ih, List.mem_insert_iff, List.mem_cons]
      tauto
  exact hfold f.objects

/-! ## One attempt -/

/-- The file after some calls in a row, up to the first that fails. -/
def DatabaseFile.afterSteps (faults : Faults) : DatabaseFile → List OpenStep → DatabaseFile
  | f, [] => f
  | f, step :: steps =>
    if faults.fails step then f.after faults step
    else (f.after faults step).afterSteps faults steps

/-- Calls that leave the file alone only decide whether the next ones are made. -/
lemma DatabaseFile.afterSteps_inert {faults : Faults} {f : DatabaseFile}
    {steps rest : List OpenStep} (h : ∀ step ∈ steps, f.after faults step = f) :
    f.afterSteps faults (steps ++ rest) =
      if ∀ step ∈ steps, faults.fails step = false then f.afterSteps faults rest else f := by
  induction steps with
  | nil => simp
  | cons step steps ih =>
    obtain ⟨hstep, hsteps⟩ := List.forall_mem_cons.mp h
    rw [List.cons_append, DatabaseFile.afterSteps, hstep, ih hsteps]
    cases hfails : faults.fails step with
    | true => simp [hfails]
    | false => simp [hfails]

/-- The rule of a call: it returns one answer and leaves one file. -/
private lemma after_run {α : Type} {faults : Faults} {Q : α → DatabaseFile → Prop}
    (step : OpenStep) (next : Bool → OpenProgram α) (f : DatabaseFile) :
    Program.After (DatabaseFile.Step faults) Q (step.run >>= next) f ↔
      Program.After (DatabaseFile.Step faults) Q (next (f.answer faults step))
        (f.after faults step) := by
  constructor
  · intro h
    exact h _ _ ⟨rfl, rfl⟩
  · rintro h answer f' ⟨rfl, rfl⟩
    exact h

/-- The rule of a failure: it names some text and leaves the file alone. -/
private lemma after_failure {faults : Faults} {Q : Option Bytes → DatabaseFile → Prop}
    (what : Bytes) (f : DatabaseFile) (hQ : ∀ text, Q (some text) f) :
    Program.After (DatabaseFile.Step faults) Q
      (sqliteFailure what >>= fun text => pure (some text)) f := by
  rintro text f' rfl
  exact hQ _

/-- The calls in a row return nothing exactly if none of them fails. -/
private lemma runSteps_spec (faults : Faults) (steps : List (OpenStep × Bytes))
    (hquery : ∀ p ∈ steps, p.1 ≠ .stepTableQuery) (f : DatabaseFile) :
    Program.After (DatabaseFile.Step faults)
      (fun failure f' => f' = f.afterSteps faults (steps.map Prod.fst) ∧
        (failure = none ↔ ∀ p ∈ steps, faults.fails p.1 = false)) (runSteps steps) f := by
  induction steps generalizing f with
  | nil => exact ⟨rfl, by simp⟩
  | cons p steps ih =>
    obtain ⟨step, what⟩ := p
    have hstep : f.answer faults step = !faults.fails step := by
      have hne : step ≠ .stepTableQuery := hquery (step, what) (by simp)
      cases step <;> first | rfl | exact absurd rfl hne
    rw [runSteps, after_run, hstep]
    cases hfails : faults.fails step with
    | true =>
      refine after_failure what _ fun text => ⟨?_, ?_⟩
      · simp [DatabaseFile.afterSteps, hfails]
      · simp [hfails]
    | false =>
      refine (ih (fun q hq => hquery q (by simp [hq])) _).imp ?_
      rintro failure f' ⟨rfl, hfailure⟩
      refine ⟨by simp [DatabaseFile.afterSteps, hfails], hfailure.trans ?_⟩
      simp [hfails]

/-- An attempt finds the table: it is there, and the query for it does not fail. -/
def Faults.Finds (faults : Faults) (f : DatabaseFile) : Prop :=
  faults.fails .prepareTableQuery = false ∧ faults.fails .stepTableQuery = false ∧
    .latencyEvents ∈ f.objects

/-- Whether the table is found is decided by looking for it. -/
instance (faults : Faults) (f : DatabaseFile) : Decidable (faults.Finds f) := by
  unfold Faults.Finds
  infer_instance

/-- The query leaves the file alone and finds the table, if it is there, unless it fails. -/
private lemma hasLatencyEvents_spec {faults : Faults} {α : Type} {Q : α → DatabaseFile → Prop}
    {next : Bool → OpenProgram α} {f : DatabaseFile}
    (h : Program.After (DatabaseFile.Step faults) Q (next (decide (faults.Finds f))) f) :
    Program.After (DatabaseFile.Step faults) Q (hasLatencyEvents >>= next) f := by
  rw [Program.after_bind, hasLatencyEvents, after_run]
  cases hprepare : faults.fails .prepareTableQuery with
  | true =>
    have hfinds : ¬ faults.Finds f := by
      rintro ⟨h, -⟩
      rw [hprepare] at h
      cases h
    rw [decide_eq_false hfinds] at h
    simp only [DatabaseFile.answer, hprepare, Bool.not_true, Bool.not_false, if_true]
    exact h
  | false =>
    have hfound : f.answer faults .stepTableQuery = decide (faults.Finds f) := by
      simp [DatabaseFile.answer, Faults.Finds, hprepare]
    rw [← hfound] at h
    simp only [DatabaseFile.answer, hprepare, Bool.not_false, Bool.not_true, Bool.false_eq_true,
      if_false]
    rintro answer f' ⟨rfl, rfl⟩
    exact h

/-- What an attempt does: the calls after the query depend on whether it found the table. -/
private lemma openDatabase_spec (faults : Faults) (f : DatabaseFile) :
    Program.After (DatabaseFile.Step faults)
      (fun failure f' =>
        f' = (if faults.fails .sqliteOpen then f
          else f.afterSteps faults ((openSteps (decide (faults.Finds f))).map Prod.fst)) ∧
        (failure = none ↔ faults.fails .sqliteOpen = false ∧
          ∀ p ∈ openSteps (decide (faults.Finds f)), faults.fails p.1 = false))
      openDatabase f := by
  have hquery : ∀ found, ∀ p ∈ openSteps found, p.1 ≠ .stepTableQuery := by
    intro found p hp
    cases found <;> simp [openSteps] at hp <;> grind
  rw [openDatabase, after_run]
  cases hopen : faults.fails .sqliteOpen with
  | true =>
    simp only [DatabaseFile.answer, hopen, Bool.not_true, Bool.not_false, if_true]
    exact after_failure _ _ fun text => ⟨rfl, by simp⟩
  | false =>
    simp only [DatabaseFile.answer, hopen, Bool.not_true, Bool.not_false, Bool.false_eq_true,
      if_false, true_and]
    exact hasLatencyEvents_spec (runSteps_spec faults _ (hquery _) f)

/-- The calls up to the schema succeed. -/
def Faults.ReachesSchema (faults : Faults) : Prop :=
  faults.fails .sqliteOpen = false ∧ faults.fails .pragmaJournalMode = false ∧
    faults.fails .pragmaForeignKeys = false ∧ faults.fails .pragmaSynchronous = false ∧
    faults.fails .busyTimeout = false

/-- Whether the schema is reached is decided by the faults before it. -/
instance (faults : Faults) : Decidable faults.ReachesSchema := by
  unfold Faults.ReachesSchema
  infer_instance

/-- The call that stamps the version. -/
def stamp : OpenStep := .pragmaUserVersion kTelemetrySchemaVersion

/-- The file after an attempt. -/
def DatabaseFile.opened (faults : Faults) (f : DatabaseFile) : DatabaseFile :=
  if faults.ReachesSchema then
    if faults.fails .schema then f.create (kSchemaSql.take faults.schemaDone)
    else if faults.Finds f ∨ faults.fails stamp then f.create kSchemaSql
    else { f.create kSchemaSql with userVersion := kTelemetrySchemaVersion }
  else f

/-- The calls up to the schema succeed if each of them does. -/
lemma Faults.reachesSchema_iff (faults : Faults) : faults.ReachesSchema ↔
    faults.fails .sqliteOpen = false ∧ ∀ step ∈
      [OpenStep.pragmaJournalMode, .pragmaForeignKeys, .pragmaSynchronous, .busyTimeout],
        faults.fails step = false := by
  simp [Faults.ReachesSchema]

/-- The calls of an attempt make of a file what it is after the attempt. -/
lemma DatabaseFile.after_attempt (faults : Faults) (f : DatabaseFile) :
    (if faults.fails .sqliteOpen then f
      else f.afterSteps faults ((openSteps (decide (faults.Finds f))).map Prod.fst)) =
      f.opened faults := by
  -- the pragmas and the prepared statements do not touch the file
  have hsteps : (openSteps (decide (faults.Finds f))).map Prod.fst =
      [.pragmaJournalMode, .pragmaForeignKeys, .pragmaSynchronous, .busyTimeout] ++
        .schema :: ((if faults.Finds f then [] else [stamp]) ++
          ([.prepareCorrelationInsert, .prepareEventInsert] ++ [])) := by
    by_cases hfinds : faults.Finds f
    · rw [decide_eq_true hfinds, if_pos hfinds]
      rfl
    · rw [decide_eq_false hfinds, if_neg hfinds]
      rfl
  have hprepared : ∀ g : DatabaseFile, g.afterSteps faults
      ([.prepareCorrelationInsert, .prepareEventInsert] ++ []) = g := by
    intro g
    rw [DatabaseFile.afterSteps_inert (by simp [DatabaseFile.after])]
    exact ite_self g
  rw [hsteps, DatabaseFile.afterSteps_inert (by simp [DatabaseFile.after]),
    DatabaseFile.opened]
  by_cases hreach : faults.ReachesSchema
  · obtain ⟨hopen, hpragmas⟩ := faults.reachesSchema_iff.mp hreach
    rw [if_pos hreach, hopen, if_neg Bool.false_ne_true, if_pos hpragmas,
      DatabaseFile.afterSteps, DatabaseFile.after]
    cases hschema : faults.fails .schema with
    | true => rfl
    | false =>
      simp only [Bool.false_eq_true, if_false]
      by_cases hfinds : faults.Finds f
      · rw [if_pos hfinds, if_pos (Or.inl hfinds), List.nil_append, hprepared]
      · have hafter : (f.create kSchemaSql).after faults stamp =
            if faults.fails stamp then f.create kSchemaSql
            else { f.create kSchemaSql with userVersion := kTelemetrySchemaVersion } := rfl
        rw [if_neg hfinds, List.singleton_append, DatabaseFile.afterSteps, hprepared, hafter,
          ite_self]
        simp only [hfinds, false_or]
  · rw [if_neg hreach]
    cases hopen : faults.fails .sqliteOpen with
    | true => rfl
    | false =>
      rw [if_neg Bool.false_ne_true, if_neg fun hpragmas =>
        hreach (faults.reachesSchema_iff.mpr ⟨hopen, hpragmas⟩)]

/-- **One attempt**: the file after it, and when it succeeds. -/
lemma attempt_eq {faults : Faults} {f f' : DatabaseFile} {failure : Option Bytes}
    (h : Program.Exec (DatabaseFile.Step faults) openDatabase f failure f') :
    f' = f.opened faults ∧ (failure = none → faults.ReachesSchema ∧
      faults.fails .schema = false ∧ (faults.Finds f ∨ faults.fails stamp = false)) ∧
    (faults = Faults.none → failure = none) := by
  obtain ⟨rfl, hfailure⟩ := (openDatabase_spec faults f).of_exec h
  refine ⟨?_, ?_, ?_⟩
  · exact DatabaseFile.after_attempt faults f
  · intro hnone
    obtain ⟨hopen, hsteps⟩ := hfailure.mp hnone
    have hpragma : ∀ p ∈ openSteps true, faults.fails p.1 = false := by
      intro p hp
      refine hsteps p ?_
      cases decide (faults.Finds f) <;> simp [openSteps] at hp ⊢ <;> grind
    simp only [openSteps, Bool.not_true, Bool.false_eq_true, if_false, List.append_nil,
      List.cons_append, List.nil_append, List.forall_mem_cons] at hpragma
    refine ⟨⟨hopen, hpragma.1, hpragma.2.1, hpragma.2.2.1, hpragma.2.2.2.1⟩,
      hpragma.2.2.2.2.1, ?_⟩
    by_cases hfinds : faults.Finds f
    · exact Or.inl hfinds
    · right
      refine hsteps (stamp, Utf8.bytes "PRAGMA user_version") ?_
      rw [decide_eq_false hfinds]
      simp only [openSteps, stamp, Bool.not_false, if_true]
      exact List.mem_append_left _ (List.mem_append_right _ (List.mem_singleton.mpr rfl))
  · rintro rfl
    exact hfailure.mpr ⟨rfl, fun _ _ => rfl⟩

/-- An attempt stamps the version: it does not find the table and gets as far as the stamp. -/
def Faults.Stamps (faults : Faults) (f : DatabaseFile) : Prop :=
  faults.ReachesSchema ∧ faults.fails .schema = false ∧ ¬ faults.Finds f ∧
    faults.fails stamp = false

/-- The version that a file has after an attempt. -/
lemma DatabaseFile.opened_userVersion (faults : Faults) (f : DatabaseFile) :
    (faults.Stamps f → (f.opened faults).userVersion = kTelemetrySchemaVersion) ∧
    (¬ faults.Stamps f → (f.opened faults).userVersion = f.userVersion) := by
  unfold Faults.Stamps opened
  constructor
  · rintro ⟨hreach, hschema, hfinds, hstamp⟩
    rw [if_pos hreach, if_neg (by simp [hschema]), if_neg (by simp [hfinds, hstamp])]
  · intro h
    split_ifs with hreach hschema hstamp
    · rfl
    · rfl
    · rw [not_or, Bool.not_eq_true] at hstamp
      rw [Bool.not_eq_true] at hschema
      exact absurd ⟨hreach, hschema, hstamp⟩ h
    · rfl

/-- An attempt gets as far as creating the table. -/
def Faults.Creates (faults : Faults) : Prop :=
  faults.ReachesSchema ∧ (faults.fails .schema = true → 2 ≤ faults.schemaDone.val)

/-- Creating the table is the second statement of the schema. -/
lemma latencyEvents_mem_take {k : Fin kSchemaSql.length} :
    .latencyEvents ∈ kSchemaSql.take k ↔ 2 ≤ k.val := by
  revert k
  decide

/-- The table is there after an attempt if it was before, or the attempt created it. -/
lemma DatabaseFile.mem_opened (faults : Faults) (f : DatabaseFile) :
    .latencyEvents ∈ (f.opened faults).objects ↔ .latencyEvents ∈ f.objects ∨ faults.Creates := by
  have hall : .latencyEvents ∈ (f.create kSchemaSql).objects :=
    DatabaseFile.mem_create.mpr (Or.inl (by decide))
  unfold Faults.Creates opened
  split_ifs with hreach hschema hstamp
  · simp only [DatabaseFile.mem_create, latencyEvents_mem_take, hreach, hschema, true_and,
      forall_const]
    exact or_comm
  · simp [hreach, hschema, hall]
  · simp [hreach, hschema, hall]
  · simp [hreach]

/-! ## Attempts in a row -/

/-- A sink and its file: whether its writer thread runs. -/
structure Session where
  file : DatabaseFile
  joinable : Bool

/-- A call of `open` with the failure it names, or the end of the sink, after which the next one
may be of a later process. -/
inductive SessionEvent where
  | opens (faults : Faults) (failure : Option Bytes)
  | closes

/-- The steps of a session. A sink whose writer runs is open already and makes no call. -/
inductive Session.Step : Session → SessionEvent → Session → Prop
  | already {s : Session} {faults : Faults} (h : s.joinable = true) : Step s (.opens faults none) s
  | attempt {s : Session} {faults : Faults} {failure : Option Bytes} {file : DatabaseFile}
      (h : s.joinable = false)
      (hx : Program.Exec (DatabaseFile.Step faults) openDatabase s.file failure file) :
      Step s (.opens faults failure) ⟨file, failure.isNone⟩
  | closes {s : Session} : Step s .closes { s with joinable := false }

/-- An attempt that finds no table leaves one without the stamp: the schema fails behind the
statement that creates it, or the stamp itself fails. -/
def Faults.Orphans (faults : Faults) : Prop :=
  faults.ReachesSchema ∧ (faults.fails .schema = true ∧ 2 ≤ faults.schemaDone.val ∨
    faults.fails .schema = false ∧ faults.fails stamp = true)

/-- A step of a session is an attempt on a file without the table that orphans it. -/
def Session.Orphans (p : Session × SessionEvent) : Prop :=
  p.1.joinable = false ∧ .latencyEvents ∉ p.1.file.objects ∧
    ∃ faults failure, p.2 = .opens faults failure ∧ faults.Orphans

/-- An attempt that misses a table that is there, and stamps. -/
def Faults.Mistakes (faults : Faults) : Prop :=
  (faults.fails .prepareTableQuery = true ∨ faults.fails .stepTableQuery = true) ∧
    faults.ReachesSchema ∧ faults.fails .schema = false ∧ faults.fails stamp = false

/-- A step of a session is an attempt that misses a table that is there, and stamps. -/
def Session.Mistakes (p : Session × SessionEvent) : Prop :=
  p.1.joinable = false ∧ ∃ faults failure, p.2 = .opens faults failure ∧ faults.Mistakes

/-- On a file with the table, the attempts that stamp are the mistaken ones. -/
lemma Faults.stamps_iff_mistakes {faults : Faults} {f : DatabaseFile}
    (hf : .latencyEvents ∈ f.objects) : faults.Stamps f ↔ faults.Mistakes := by
  have hfinds : ¬ faults.Finds f ↔
      faults.fails .prepareTableQuery = true ∨ faults.fails .stepTableQuery = true := by
    unfold Faults.Finds
    cases faults.fails .prepareTableQuery <;> cases faults.fails .stepTableQuery <;> simp [hf]
  unfold Faults.Stamps Faults.Mistakes
  rw [hfinds]
  tauto

/-- On a file without the table, an attempt that creates it stamps or orphans it. -/
lemma Faults.creates_cases {faults : Faults} {f : DatabaseFile} (hf : .latencyEvents ∉ f.objects)
    (h : faults.Creates) : faults.Stamps f ∨ faults.Orphans := by
  have hfinds : ¬ faults.Finds f := fun h => hf h.2.2
  obtain ⟨hreach, hdone⟩ := h
  cases hschema : faults.fails .schema with
  | true => exact Or.inr ⟨hreach, Or.inl ⟨hschema, hdone hschema⟩⟩
  | false =>
    cases hstamp : faults.fails stamp with
    | true => exact Or.inr ⟨hreach, Or.inr ⟨hschema, hstamp⟩⟩
    | false => exact Or.inl ⟨hreach, hschema, hfinds, hstamp⟩

/-! ## Whole sessions -/

/-- An attempt can be made with any faults. -/
private lemma exists_attempt (faults : Faults) (f : DatabaseFile) :
    ∃ failure,
      Program.Exec (DatabaseFile.Step faults) openDatabase f failure (f.opened faults) := by
  obtain ⟨failure, f', hx⟩ := Program.exec_total (DatabaseFile.step_total faults) openDatabase f
  obtain ⟨rfl, -⟩ := attempt_eq hx
  exact ⟨failure, hx⟩

/-- A successful attempt leaves the table. -/
private lemma mem_of_success {faults : Faults} {f f' : DatabaseFile}
    (hx : Program.Exec (DatabaseFile.Step faults) openDatabase f none f') :
    .latencyEvents ∈ f'.objects := by
  obtain ⟨rfl, hsuccess, -⟩ := attempt_eq hx
  obtain ⟨hreach, hschema, -⟩ := hsuccess rfl
  refine (DatabaseFile.mem_opened faults f).mpr (Or.inr ⟨hreach, ?_⟩)
  rw [hschema]
  rintro ⟨⟩

/-- While no attempt orphans it, the table comes with the stamp, and both with the first success. -/
private lemma stamped_invariant {f : DatabaseFile} (hf : .latencyEvents ∉ f.objects)
    {h : List (Session × SessionEvent)} {s : Session} (hr : Run Session.Step ⟨f, false⟩ h s)
    (hcond : ∀ p ∈ h, ¬ Session.Orphans p) :
    (.latencyEvents ∈ s.file.objects → s.file.userVersion = kTelemetrySchemaVersion) ∧
      ((s.joinable = true ∨ ∃ p ∈ h, ∃ faults, p.2 = .opens faults none) →
        .latencyEvents ∈ s.file.objects) := by
  revert hcond
  refine hr.history_invariant (I := fun h s => (∀ p ∈ h, ¬ Session.Orphans p) →
    (.latencyEvents ∈ s.file.objects → s.file.userVersion = kTelemetrySchemaVersion) ∧
      ((s.joinable = true ∨ ∃ p ∈ h, ∃ faults, p.2 = .opens faults none) →
        .latencyEvents ∈ s.file.objects)) ?_ ?_
  · exact fun _ => ⟨fun hmem => absurd hmem hf, by simp⟩
  · intro h s e s' _ ih hs hcond
    obtain ⟨hversion, hopened⟩ := ih fun p hp => hcond p (List.mem_append_left _ hp)
    have hlast := hcond (s, e) (by simp)
    cases hs with
    | already hjoinable => exact ⟨hversion, fun _ => hopened (Or.inl hjoinable)⟩
    | closes =>
      refine ⟨hversion, fun hsuccess => hopened ?_⟩
      rcases hsuccess with hjoinable | ⟨p, hp, faults, he⟩
      · cases hjoinable
      · rcases List.mem_append.mp hp with hp | hp
        · exact Or.inr ⟨p, hp, faults, he⟩
        · rw [List.mem_singleton.mp hp] at he
          cases he
    | @attempt faults failure file hjoinable hx =>
      obtain ⟨rfl, -, -⟩ := attempt_eq hx
      have hkeep : .latencyEvents ∈ s.file.objects →
          .latencyEvents ∈ (s.file.opened faults).objects :=
        fun hmem => (DatabaseFile.mem_opened _ _).mpr (Or.inl hmem)
      obtain ⟨hstamps, hkeeps⟩ := DatabaseFile.opened_userVersion faults s.file
      constructor
      · intro hmem
        by_cases hs : faults.Stamps s.file
        · exact hstamps hs
        · by_cases hbefore : .latencyEvents ∈ s.file.objects
          · rw [show _ = s.file.userVersion from hkeeps hs]
            exact hversion hbefore
          · rcases (DatabaseFile.mem_opened _ _).mp hmem with hmem | hcreates
            · exact absurd hmem hbefore
            · rcases Faults.creates_cases hbefore hcreates with hs' | horphans
              · exact absurd hs' hs
              · exact absurd ⟨hjoinable, hbefore, faults, failure, rfl, horphans⟩ hlast
      · rintro (hjoinable' | ⟨p, hp, faults', he⟩)
        · obtain rfl : failure = none := Option.isNone_iff_eq_none.mp hjoinable'
          exact mem_of_success hx
        · rcases List.mem_append.mp hp with hp | hp
          · exact hkeep (hopened (Or.inr ⟨p, hp, faults', he⟩))
          · rw [List.mem_singleton.mp hp] at he
            cases he
            exact mem_of_success hx

/-- An attempt whose last call fails, when the version may have been stamped already. -/
def failedPrepare : Faults where
  fails
    | .prepareEventInsert => true
    | _ => false
  schemaDone := ⟨0, by decide⟩

/-- An attempt whose query fails leaves any file closed, and the next one without a fault opens
it. -/
private lemma exists_retry (f : DatabaseFile) : ∃ failure s, Run Session.Step ⟨f, false⟩
    [(⟨f, false⟩, .opens failedPrepare (some failure)),
      (⟨f.opened failedPrepare, false⟩, .opens Faults.none none)] s := by
  obtain ⟨failure, hx⟩ := exists_attempt failedPrepare f
  obtain ⟨failure', hx'⟩ := exists_attempt Faults.none (f.opened failedPrepare)
  obtain ⟨-, -, hnone⟩ := attempt_eq hx'
  obtain rfl := hnone rfl
  cases failure with
  | none =>
    obtain ⟨-, hfailure⟩ := (openDatabase_spec failedPrepare f).of_exec hx
    have hprepare := (hfailure.mp rfl).2
      (.prepareEventInsert, Utf8.bytes "prepare latency_events insert") (by simp [openSteps])
    cases hprepare
  | some failure =>
    exact ⟨failure, _, Run.cons (.attempt rfl hx) (Run.cons (.attempt rfl hx') Run.nil)⟩

/-- After an attempt that orphans the table, the next one without a fault succeeds and stamps
nothing. -/
private lemma orphaned_run {f : DatabaseFile} (hf : .latencyEvents ∉ f.objects) {faults : Faults}
    (h : faults.Orphans) : ∃ failure s, Run Session.Step ⟨f, false⟩
      [(⟨f, false⟩, .opens faults (some failure)),
        (⟨f.opened faults, false⟩, .opens Faults.none none)] s ∧
      s.file.userVersion = f.userVersion := by
  have hcreates : faults.Creates := by
    refine ⟨h.1, fun hschema => ?_⟩
    rcases h.2 with ⟨-, hdone⟩ | ⟨hschema', -⟩
    · exact hdone
    · rw [hschema] at hschema'
      cases hschema'
  have hfails : faults.fails .schema = false → faults.fails stamp = true := by
    intro hschema
    rcases h.2 with ⟨hschema', -⟩ | ⟨-, hstamp⟩
    · rw [hschema] at hschema'
      cases hschema'
    · exact hstamp
  have hmem : .latencyEvents ∈ (f.opened faults).objects :=
    (DatabaseFile.mem_opened faults f).mpr (Or.inr hcreates)
  have hkept : (f.opened faults).userVersion = f.userVersion := by
    refine (DatabaseFile.opened_userVersion faults f).2 ?_
    rintro ⟨-, hschema, -, hstamp⟩
    rw [hfails hschema] at hstamp
    cases hstamp
  obtain ⟨failure, hx⟩ := exists_attempt faults f
  obtain ⟨failure', hx'⟩ := exists_attempt Faults.none (f.opened faults)
  obtain ⟨-, -, hnone⟩ := attempt_eq hx'
  obtain rfl := hnone rfl
  cases failure with
  | none =>
    obtain ⟨-, hsuccess, -⟩ := attempt_eq hx
    obtain ⟨-, hschema, hfinds | hstamp⟩ := hsuccess rfl
    · exact absurd hfinds.2.2 hf
    · rw [hfails hschema] at hstamp
      cases hstamp
  | some failure =>
    refine ⟨failure, _, Run.cons (.attempt rfl hx) (Run.cons (.attempt rfl hx') Run.nil), ?_⟩
    refine Eq.trans ((DatabaseFile.opened_userVersion _ _).2 ?_) hkept
    exact fun hstamps => hstamps.2.2.1 ⟨rfl, rfl, hmem⟩

/-- **A database that this process created ends up stamped, unless an attempt orphans its table.**
Whatever calls fail in whatever attempts to open a file that had no table `latency_events`, if none
of the attempts that find no table fails between creating it and the end of the stamp, the version
is stamped from the first success on. Such an attempt does leave the file for good without the
stamp: the next attempt without a fault succeeds and stamps nothing. -/
theorem stamped_unless_orphaned (f : DatabaseFile) (hf : .latencyEvents ∉ f.objects) :
    (∀ h s, Run Session.Step ⟨f, false⟩ h s → (∀ p ∈ h, ¬ Session.Orphans p) →
      (∃ p ∈ h, ∃ faults, p.2 = .opens faults none) →
      s.file.userVersion = kTelemetrySchemaVersion) ∧
    ∀ faults : Faults, faults.Orphans → ∃ failure s, Run Session.Step ⟨f, false⟩
      [(⟨f, false⟩, .opens faults (some failure)),
        (⟨f.opened faults, false⟩, .opens Faults.none none)] s ∧
      s.file.userVersion = f.userVersion := by
  refine ⟨?_, fun faults => orphaned_run hf⟩
  intro h s hr hcond hsuccess
  obtain ⟨hversion, hopened⟩ := stamped_invariant hf hr hcond
  exact hversion (hopened (Or.inr hsuccess))

/-- A fresh file whose first attempt fails with its last call is stamped all the same, and still is
after the next attempt, which finds the table. -/
theorem stamped_unless_orphaned_retried : ∃ failure s, Run Session.Step ⟨⟨[], 0⟩, false⟩
    [(⟨⟨[], 0⟩, false⟩, .opens failedPrepare (some failure)),
      (⟨DatabaseFile.opened failedPrepare ⟨[], 0⟩, false⟩, .opens Faults.none none)] s ∧
    s.file.userVersion = kTelemetrySchemaVersion := by
  obtain ⟨failure, s, hr⟩ := exists_retry ⟨[], 0⟩
  refine ⟨failure, s, hr, (stamped_unless_orphaned ⟨[], 0⟩ (by simp)).1 _ _ hr ?_
    ⟨_, List.mem_cons_of_mem _ (List.mem_singleton.mpr rfl), _, rfl⟩⟩
  rintro p hp ⟨-, -, faults, _, he, -, ⟨hschema, -⟩ | ⟨-, hstamp⟩⟩
  · rcases List.mem_pair.mp hp with rfl | rfl <;> cases he <;> cases hschema
  · rcases List.mem_pair.mp hp with rfl | rfl <;> cases he <;> cases hstamp

/-- An attempt whose stamp fails. -/
def failedStamp : Faults where
  fails
    | .pragmaUserVersion _ => true
    | _ => false
  schemaDone := ⟨0, by decide⟩

/-- **A fresh file can stay without its stamp**: the stamp of the first attempt fails, the second
attempt succeeds, and the version is still zero. -/
theorem fresh_database_unstamped : ∃ failure s, Run Session.Step ⟨⟨[], 0⟩, false⟩
    [(⟨⟨[], 0⟩, false⟩, .opens failedStamp (some failure)),
      (⟨DatabaseFile.opened failedStamp ⟨[], 0⟩, false⟩, .opens Faults.none none)] s ∧
    s.file.userVersion = 0 ∧ s.file.userVersion ≠ kTelemetrySchemaVersion := by
  have horphans : failedStamp.Orphans := ⟨⟨rfl, rfl, rfl, rfl, rfl⟩, Or.inr ⟨rfl, rfl⟩⟩
  obtain ⟨failure, s, hr, hversion⟩ := orphaned_run (f := ⟨[], 0⟩) (by simp) horphans
  exact ⟨failure, s, hr, hversion, by rw [hversion]; decide⟩

/-- On a file with the table, the version is the first one until an attempt is mistaken, and the
stamped one from then on. -/
private lemma version_invariant {f : DatabaseFile} (hf : .latencyEvents ∈ f.objects)
    {h : List (Session × SessionEvent)} {s : Session} (hr : Run Session.Step ⟨f, false⟩ h s) :
    .latencyEvents ∈ s.file.objects ∧
      ((∀ p ∈ h, ¬ Session.Mistakes p) → s.file.userVersion = f.userVersion) ∧
      ((∃ p ∈ h, Session.Mistakes p) → s.file.userVersion = kTelemetrySchemaVersion) := by
  refine hr.history_invariant (I := fun h s => .latencyEvents ∈ s.file.objects ∧
    ((∀ p ∈ h, ¬ Session.Mistakes p) → s.file.userVersion = f.userVersion) ∧
    ((∃ p ∈ h, Session.Mistakes p) → s.file.userVersion = kTelemetrySchemaVersion)) ?_ ?_
  · exact ⟨hf, fun _ => rfl, by simp⟩
  · rintro h s e s' - ⟨hmem, hkept, hstamped⟩ hs
    have hquiet : ¬ Session.Mistakes (s, e) → s'.file.userVersion = s.file.userVersion →
        ((∀ p ∈ h ++ [(s, e)], ¬ Session.Mistakes p) → s'.file.userVersion = f.userVersion) ∧
        ((∃ p ∈ h ++ [(s, e)], Session.Mistakes p) →
          s'.file.userVersion = kTelemetrySchemaVersion) := by
      intro hnot hversion
      rw [hversion]
      refine ⟨fun hall => hkept fun p hp => hall p (List.mem_append_left _ hp), ?_⟩
      rintro ⟨p, hp, hmistakes⟩
      rcases List.mem_append.mp hp with hp | hp
      · exact hstamped ⟨p, hp, hmistakes⟩
      · rw [List.mem_singleton.mp hp] at hmistakes
        exact absurd hmistakes hnot
    cases hs with
    | already hjoinable =>
      refine ⟨hmem, hquiet ?_ rfl⟩
      rintro ⟨hjoinable', -⟩
      simp only at hjoinable'
      rw [hjoinable] at hjoinable'
      cases hjoinable'
    | closes =>
      refine ⟨hmem, hquiet ?_ rfl⟩
      rintro ⟨-, faults, failure, he, -⟩
      cases he
    | @attempt faults failure file hjoinable hx =>
      obtain ⟨rfl, -, -⟩ := attempt_eq hx
      obtain ⟨hstamps, hkeeps⟩ := DatabaseFile.opened_userVersion faults s.file
      refine ⟨(DatabaseFile.mem_opened _ _).mpr (Or.inl hmem), ?_⟩
      by_cases hmistakes : faults.Mistakes
      · have hlast : Session.Mistakes (s, .opens faults failure) :=
          ⟨hjoinable, faults, failure, rfl, hmistakes⟩
        refine ⟨fun hall => absurd hlast (hall _ (by simp)), fun _ => ?_⟩
        exact hstamps ((Faults.stamps_iff_mistakes hmem).mpr hmistakes)
      · refine hquiet ?_ (hkeeps fun h => hmistakes ((Faults.stamps_iff_mistakes hmem).mp h))
        rintro ⟨-, faults', failure', he, hmistakes'⟩
        cases he
        exact hmistakes hmistakes'

/-- **A database of another process keeps its version exactly as long as no attempt is mistaken**:
after any sequence of attempts, whatever calls failed in them, the version of a file that had the
table `latency_events` is the first one iff that was the stamped one anyway or no attempt failed in
its query for the table and then got as far as the stamp. -/
theorem version_kept_iff (f : DatabaseFile) (hf : .latencyEvents ∈ f.objects)
    {h : List (Session × SessionEvent)} {s : Session} (hr : Run Session.Step ⟨f, false⟩ h s) :
    s.file.userVersion = f.userVersion ↔
      f.userVersion = kTelemetrySchemaVersion ∨ ∀ p ∈ h, ¬ Session.Mistakes p := by
  obtain ⟨-, hkept, hstamped⟩ := version_invariant hf hr
  constructor
  · intro hversion
    by_cases hmistaken : ∃ p ∈ h, Session.Mistakes p
    · left
      rw [← hversion]
      exact hstamped hmistaken
    · right
      intro p hp hmistakes
      exact hmistaken ⟨p, hp, hmistakes⟩
  · rintro (hversion | hall)
    · by_cases hmistaken : ∃ p ∈ h, Session.Mistakes p
      · rw [hstamped hmistaken, hversion]
      · exact hkept fun p hp hmistakes => hmistaken ⟨p, hp, hmistakes⟩
    · exact hkept hall

/-- An attempt during which the query for the table finds the database busy. -/
def busyQuery : Faults where
  fails
    | .prepareTableQuery => true
    | _ => false
  schemaDone := ⟨0, by decide⟩

/-- A database with the version of a later schema keeps it through an attempt that fails with its
last call and one that succeeds. -/
theorem version_kept_iff_retried : ∃ failure s, Run Session.Step ⟨⟨kSchemaSql, 9⟩, false⟩
    [(⟨⟨kSchemaSql, 9⟩, false⟩, .opens failedPrepare (some failure)),
      (⟨DatabaseFile.opened failedPrepare ⟨kSchemaSql, 9⟩, false⟩, .opens Faults.none none)] s ∧
    s.file.userVersion = 9 := by
  obtain ⟨failure, s, hr⟩ := exists_retry ⟨kSchemaSql, 9⟩
  refine ⟨failure, s, hr, (version_kept_iff ⟨kSchemaSql, 9⟩ (by decide) hr).mpr (Or.inr ?_)⟩
  rintro p hp ⟨-, faults, _, he, hquery | hquery, -⟩
  · rcases List.mem_pair.mp hp with rfl | rfl <;> cases he <;> cases hquery
  · rcases List.mem_pair.mp hp with rfl | rfl <;> cases he <;> cases hquery

/-- **A busy database loses its version**: its table is missed, and the attempt succeeds and stamps
the version of this program over that of the other one. -/
theorem other_database_restamped : ∃ s, Run Session.Step ⟨⟨kSchemaSql, 9⟩, false⟩
    [(⟨⟨kSchemaSql, 9⟩, false⟩, .opens busyQuery none)] s ∧
    s.file.userVersion = kTelemetrySchemaVersion ∧ s.file.userVersion ≠ 9 := by
  have hreach : busyQuery.ReachesSchema := ⟨rfl, rfl, rfl, rfl, rfl⟩
  have hstamps : busyQuery.Stamps ⟨kSchemaSql, 9⟩ :=
    ⟨hreach, rfl, fun h => Bool.noConfusion h.1, rfl⟩
  have hversion := (DatabaseFile.opened_userVersion busyQuery ⟨kSchemaSql, 9⟩).1 hstamps
  obtain ⟨failure, f', hx⟩ := Program.exec_total (DatabaseFile.step_total busyQuery) openDatabase
    ⟨kSchemaSql, 9⟩
  obtain ⟨rfl, hfailure⟩ := (openDatabase_spec busyQuery ⟨kSchemaSql, 9⟩).of_exec hx
  obtain rfl : failure = none := by
    refine hfailure.mpr ⟨rfl, ?_⟩
    rw [decide_eq_false hstamps.2.2.1]
    simp only [openSteps, Bool.not_false, if_true, List.cons_append, List.nil_append,
      List.forall_mem_cons]
    exact ⟨rfl, rfl, rfl, rfl, rfl, rfl, rfl, rfl, by simp⟩
  obtain ⟨heq, -, -⟩ := attempt_eq hx
  refine ⟨_, Run.cons (.attempt rfl hx) Run.nil, ?_, ?_⟩
  · exact (congrArg DatabaseFile.userVersion heq).trans hversion
  · rw [show _ = (kTelemetrySchemaVersion : ℤ) from
      (congrArg DatabaseFile.userVersion heq).trans hversion]
    decide

end Hotpath
