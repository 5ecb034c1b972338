import Hotpath.Lib.Loop
import Hotpath.Lib.Program
import Hotpath.Lib.Utf8
import Hotpath.Lib.JsonText
import Hotpath.Lib.Decimal
import Hotpath.Lib.Rounding
import Hotpath.Double
import Hotpath.Protocol.Message
import Hotpath.Json.Reader
import Hotpath.Json.Writer
import Hotpath.Json.WriterSpec
import Hotpath.Json.Cursor
import Hotpath.Json.ScanNumber
import Hotpath.Json.LongestMatch
import Hotpath.Json.ScanString
import Hotpath.Json.Levels
import Hotpath.Json.ItemLoop
import Hotpath.Json.ErrorCodes
import Hotpath.Protocol.Codec
import Hotpath.Protocol.Fields
import Hotpath.Protocol.Schema
import Hotpath.Protocol.Records
import Hotpath.Protocol.FirstError
import Hotpath.Protocol.RoundTrip
import Hotpath.Lib.Brackets
import Hotpath.Protocol.Exact
import Hotpath.Json.Method
import Hotpath.Json.MethodRules
import Hotpath.Json.InBounds
import Hotpath.Protocol.InBounds
import Hotpath.Executor.Ack
import Hotpath.Executor.AckSize
import Hotpath.Lib.System
import Hotpath.Lib.Progress
import Hotpath.Lib.Fifo
import Hotpath.Executor.Pricing
import Hotpath.Executor.Ladder
import Hotpath.Executor.KillSwitch
import Hotpath.Executor.Fire
import Hotpath.Executor.FireRuns
import Hotpath.Executor.LegacyWake
import Hotpath.Executor.Connection
import Hotpath.Executor.ConnectionSpec
import Hotpath.Executor.WakeStream
import Hotpath.Executor.Server
import Hotpath.Executor.ServingRuns
import Hotpath.Executor.ServerSteps
import Hotpath.Executor.StopSpec
import Hotpath.Executor.KeepsServing
import Hotpath.Executor.Counters
import Hotpath.Executor.StopBound
import Hotpath.Telemetry.SpscRing
import Hotpath.Telemetry.SpscRingSpec
import Hotpath.Telemetry.Row
import Hotpath.Telemetry.Sqlite
import Hotpath.Telemetry.WriteBatch
import Hotpath.Telemetry.RefusedRows
import Hotpath.Telemetry.Open
import Hotpath.Telemetry.SchemaVersion
import Hotpath.Telemetry.Sink
import Hotpath.Telemetry.SinkSpec
import Hotpath.Telemetry.Parents
import Hotpath.Telemetry.Store
import Hotpath.Telemetry.Progress
import Hotpath.Process.CommandLine
import Hotpath.Process.Main
import Hotpath.Process.Accounting
import Hotpath.Process.Acknowledged
import Hotpath.Lib.Framing
import Hotpath.Bench.PollerClient
import Hotpath.Bench.PollerClientServed
import Hotpath.Bench.PollerClientRuns
import Hotpath.Bench.PollerClientSpec
import Hotpath.Bench.AckedFires
import Hotpath.Bench.RoundTrips
import Hotpath.Lib.Handles
import Hotpath.Lib.Base64
import Hotpath.Signer.OpenSSL
import Hotpath.Signer.RequestSigner
import Hotpath.Signer.RequestSignerSpec
import Hotpath.Signer.SignerRuns
import Hotpath.Lib.Interpolation
import Hotpath.Bench.Percentile
import Hotpath.Bench.CallReturns
