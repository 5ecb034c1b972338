import Hotpath.Lib.Utf8
import Hotpath.Protocol.Message

set_option relaxedAutoImplicit false
set_option autoImplicit false

/-!
# Latency events and their rows

`LatencyEvent`, the fixed-size `Row` it is packed into for the ring, and the columns of
`latency_events` that are bound from a row.

## Main definitions

* `Hotpath.LatencyEvent`, `Hotpath.Row`, `Hotpath.LatencyColumns`.
* `Hotpath.Row.ofEvent`, `Hotpath.Row.columns`.

## Main results

* `Hotpath.Row.event_ofEvent` — a row holds the event it was packed from.
-/

namespace Hotpath

open Utf8 (bytes)

variable {F : Type}

/-- The stages of a wake whose latency is recorded. -/
inductive LatencyStage where
  | detectFire
  | ingestFetch
  | decision
  | wakeSend
  | wakeRecv
  | orderBuild
  | sign
  | dispatchSend
  | dispatchAck
  | telemetryWrite
  deriving DecidableEq, Repr

/-- `stage_name`. -/
def stageName : LatencyStage → Bytes
  | .detectFire => bytes "detect_fire"
  | .ingestFetch => bytes "ingest_fetch"
  | .decision => bytes "decision"
  | .wakeSend => bytes "wake_send"
  | .wakeRecv => bytes "wake_recv"
  | .orderBuild => bytes "order_build"
  | .sign => bytes "sign"
  | .dispatchSend => bytes "dispatch_send"
  | .dispatchAck => bytes "dispatch_ack"
  | .telemetryWrite => bytes "telemetry_write"

/-- `LatencyEvent`. -/
structure LatencyEvent (F : Type) where
  correlationId : Bytes
  stage : LatencyStage
  startedAtMs : Int64
  endedAtMs : Int64
  durationMs : F
  dryRun : Bool

/-- How much of a correlation id a row holds. -/
def kMaxCorrelationIdBytes : ℕ := 128

/-- `TelemetrySink::Row`. -/
structure Row (F : Type) where
  startedAtMs : Int64
  endedAtMs : Int64
  durationMs : F
  correlationIdLen : UInt8
  stage : LatencyStage
  dryRun : Bool
  correlationId : Bytes
  /-- The array has its size. -/
  sized : correlationId.length = kMaxCorrelationIdBytes

/-- `Row{}`, as which the slots of the ring start. -/
instance [OfScientific F] : Inhabited (Row F) where
  default :=
    { startedAtMs := 0
      endedAtMs := 0
      durationMs := 0.0
      correlationIdLen := 0
      stage := .detectFire
      dryRun := false
      correlationId := List.replicate kMaxCorrelationIdBytes 0
      sized := List.length_replicate .. }

/-- `kDryRunMetadata`. -/
def kDryRunMetadata : Bool → Bytes
  | false => bytes "\x7b\"dry_run\": false\x7d"
  | true => bytes "\x7b\"dry_run\": true\x7d"

/-- What `insert` binds to the statement on `latency_events`. -/
structure LatencyColumns (F : Type) where
  correlationId : Bytes
  stage : Bytes
  startedAtMs : Int64
  endedAtMs : Int64
  durationMs : F
  metadataJson : Bytes

namespace Row

/-- The row `record` makes of an event whose id fits. -/
def ofEvent (event : LatencyEvent F) (h : event.correlationId.length ≤ kMaxCorrelationIdBytes) :
    Row F where
  startedAtMs := event.startedAtMs
  endedAtMs := event.endedAtMs
  durationMs := event.durationMs
  correlationIdLen := UInt8.ofNat event.correlationId.length
  stage := event.stage
  dryRun := event.dryRun
  correlationId := event.correlationId ++
    List.replicate (kMaxCorrelationIdBytes - event.correlationId.length) 0
  sized := by
    rw [List.length_append, List.length_replicate]
    omega

/-- The correlation id, as `insert` takes it from a row. -/
def id (row : Row F) : Bytes := row.correlationId.take row.correlationIdLen.toNat

/-- The event a row holds. -/
def event (row : Row F) : LatencyEvent F where
  correlationId := row.id
  stage := row.stage
  startedAtMs := row.startedAtMs
  endedAtMs := row.endedAtMs
  durationMs := row.durationMs
  dryRun := row.dryRun

/-- The columns of a row. -/
def columns (row : Row F) : LatencyColumns F where
  correlationId := row.id
  stage := stageName row.stage
  startedAtMs := row.startedAtMs
  endedAtMs := row.endedAtMs
  durationMs := row.durationMs
  metadataJson := kDryRunMetadata row.dryRun

/-- **A row holds its event**: the length of an id that fits fits its byte, and so nothing is
lost. -/
theorem event_ofEvent (event : LatencyEvent F)
    (h : event.correlationId.length ≤ kMaxCorrelationIdBytes) :
    (ofEvent event h).event = event := by
  have hlen : (UInt8.ofNat event.correlationId.length).toNat = event.correlationId.length := by
    rw [UInt8.toNat_ofNat', Nat.mod_eq_of_lt]
    exact lt_of_le_of_lt h (by decide)
  have hid : (ofEvent event h).id = event.correlationId := by
    rw [Row.id, ofEvent, hlen, List.take_left]
  rw [Row.event, hid]
  rfl

end Row

end Hotpath
