import Hotpath.Lib.Program
import Hotpath.Telemetry.Row

set_option relaxedAutoImplicit false
set_option autoImplicit false

/-!
# Opening the database

The part of `TelemetrySink::open` that sets a connection up, as a program over the calls of
SQLite's interface. The first call that fails ends it with a message. The directories that are
created for the file, and whose error is ignored, are left out.

## Main definitions

* `Hotpath.OpenStep`, `Hotpath.OpenCall` — the calls.
* `Hotpath.openDatabase` — the program.
-/

namespace Hotpath

open Utf8 (bytes)

/-- The version that a new database is stamped with. -/
def kTelemetrySchemaVersion : ℕ := 6

/-- A call on the new connection that succeeds or not. -/
inductive OpenStep where
  /-- `sqlite3_open`. -/
  | sqliteOpen
  /-- `sqlite3_prepare_v2` of the query for the table `latency_events`. -/
  | prepareTableQuery
  /-- `sqlite3_step` of it, which succeeds with a row. -/
  | stepTableQuery
  | pragmaJournalMode
  | pragmaForeignKeys
  | pragmaSynchronous
  /-- `sqlite3_busy_timeout`. -/
  | busyTimeout
  /-- `kSchemaSql`. -/
  | schema
  | pragmaUserVersion (version : ℕ)
  | prepareCorrelationInsert
  | prepareEventInsert

/-- A call of SQLite's interface: one that succeeds or not, or `sqlite3_errmsg`. -/
inductive OpenCall where
  | attempt (step : OpenStep)
  | errmsg

/-- What a call is answered with. -/
abbrev OpenCall.Answer : OpenCall → Type
  | .attempt _ => Bool
  | .errmsg => Bytes

/-- A program that sets a connection up. -/
abbrev OpenProgram : Type → Type := Program OpenCall OpenCall.Answer

/-- A call, with whether it succeeds. -/
def OpenStep.run (step : OpenStep) : OpenProgram Bool :=
  Program.perform (OpenCall.attempt step)

/-- `sqlite_failure`. -/
def sqliteFailure (what : Bytes) : OpenProgram Bytes := do
  let text ← Program.perform OpenCall.errmsg
  return what ++ bytes ": " ++ text

/-- `has_latency_events`, for which a query that fails finds no table. -/
def hasLatencyEvents : OpenProgram Bool := do
  if !(← OpenStep.prepareTableQuery.run) then
    return false
  OpenStep.stepTableQuery.run

/-- The calls after the table was looked for, each with what the message of its failure names. A
version is stamped only where the table was not there. -/
def openSteps (preexisting : Bool) : List (OpenStep × Bytes) :=
  [(.pragmaJournalMode, bytes "PRAGMA journal_mode"),
    (.pragmaForeignKeys, bytes "PRAGMA foreign_keys"),
    (.pragmaSynchronous, bytes "PRAGMA synchronous"),
    (.busyTimeout, bytes "sqlite3_busy_timeout"),
    (.schema, bytes "schema")] ++
  (if !preexisting then [(.pragmaUserVersion kTelemetrySchemaVersion, bytes "PRAGMA user_version")]
  else []) ++
  [(.prepareCorrelationInsert, bytes "prepare correlations insert"),
    (.prepareEventInsert, bytes "prepare latency_events insert")]

/-- One call after the other, up to the first that fails. -/
def runSteps : List (OpenStep × Bytes) → OpenProgram (Option Bytes)
  | [] => return none
  | (step, what) :: steps => do
    if !(← step.run) then
      return some (← sqliteFailure what)
    runSteps steps

/-- `open`, from `sqlite3_open` to the second prepared statement: the failure it names, or
nothing. -/
def openDatabase : OpenProgram (Option Bytes) := do
  if !(← OpenStep.sqliteOpen.run) then
    return some (← sqliteFailure (bytes "sqlite3_open"))
  let preexisting ← hasLatencyEvents
  runSteps (openSteps preexisting)

end Hotpath
