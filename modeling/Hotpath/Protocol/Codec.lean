import Hotpath.Json.Reader
import Hotpath.Json.Writer

set_option relaxedAutoImplicit false
set_option autoImplicit false

/-!
# The wire protocol's codec

`src/protocol.cpp`: the frame encoders, the length prefix, and the two decoders with their
field readers. A field reader returns the reader, the message and the `seen` mask it leaves.

## Main definitions

* `Hotpath.encodeWakeMessageInto`, `Hotpath.encodeWakeAckInto` — the two `encode_frame_into`.
* `Hotpath.decodeFrameLength`.
* `Hotpath.decodeWakeMessage`, `Hotpath.decodeWakeAck`.
-/

namespace Hotpath

open Json
open Utf8 (bytes)

variable {F : Type}

/-! ## Field bits -/

/-- The bit of `schema_version` among those of the required keys that were seen. -/
def kSchemaVersionBit : UInt32 := (1 : UInt32) <<< 0

/-- The bit of `correlation_id` among those of the required keys that were seen. -/
def kCorrelationIdBit : UInt32 := (1 : UInt32) <<< 1

/-- The bit of `market_ticker` among those of the required keys that were seen. -/
def kMarketTickerBit : UInt32 := (1 : UInt32) <<< 2

/-- The bit of `asset` among those of the required keys that were seen. -/
def kAssetBit : UInt32 := (1 : UInt32) <<< 3

/-- The bit of `direction` among those of the required keys that were seen. -/
def kDirectionBit : UInt32 := (1 : UInt32) <<< 4

/-- The bit of `kalshi_price` among those of the required keys that were seen. -/
def kKalshiPriceBit : UInt32 := (1 : UInt32) <<< 5

/-- The bit of `model_probability` among those of the required keys that were seen. -/
def kModelProbabilityBit : UInt32 := (1 : UInt32) <<< 6

/-- The bit of `fee` among those of the required keys that were seen. -/
def kFeeBit : UInt32 := (1 : UInt32) <<< 7

/-- The bit of `edge` among those of the required keys that were seen. -/
def kEdgeBit : UInt32 := (1 : UInt32) <<< 8

/-- The bit of `decision_ts_ms` among those of the required keys that were seen. -/
def kDecisionTsMsBit : UInt32 := (1 : UInt32) <<< 9

/-- The bit of `sent_at_ms` among those of the required keys that were seen. -/
def kSentAtMsBit : UInt32 := (1 : UInt32) <<< 10

/-- The bit of `sent_at_ns` among those of the required keys that were seen. -/
def kSentAtNsBit : UInt32 := (1 : UInt32) <<< 11

/-- The bit of `received_at_ms` among those of the required keys that were seen. -/
def kReceivedAtMsBit : UInt32 := (1 : UInt32) <<< 12

/-- The bit of `status` among those of the required keys that were seen. -/
def kStatusBit : UInt32 := (1 : UInt32) <<< 13

/-- The required keys of a wake message with their bits, in the order in which a missing one is
named. -/
def kWakeMessageRequired : List (UInt32 × Bytes) :=
  [(kSchemaVersionBit, bytes "schema_version"), (kCorrelationIdBit, bytes "correlation_id"),
    (kMarketTickerBit, bytes "market_ticker"), (kAssetBit, bytes "asset"),
    (kDirectionBit, bytes "direction"), (kKalshiPriceBit, bytes "kalshi_price"),
    (kModelProbabilityBit, bytes "model_probability"), (kFeeBit, bytes "fee"),
    (kEdgeBit, bytes "edge"), (kDecisionTsMsBit, bytes "decision_ts_ms"),
    (kSentAtMsBit, bytes "sent_at_ms"), (kSentAtNsBit, bytes "sent_at_ns")]

/-- The required keys of an ack with their bits. -/
def kWakeAckRequired : List (UInt32 × Bytes) :=
  [(kSchemaVersionBit, bytes "schema_version"), (kCorrelationIdBit, bytes "correlation_id"),
    (kReceivedAtMsBit, bytes "received_at_ms"), (kStatusBit, bytes "status")]

/-- All bits of the required keys of a wake message. -/
def kWakeMessageRequiredMask : UInt32 :=
  kSchemaVersionBit ||| kCorrelationIdBit ||| kMarketTickerBit ||| kAssetBit ||| kDirectionBit |||
    kKalshiPriceBit ||| kModelProbabilityBit ||| kFeeBit ||| kEdgeBit ||| kDecisionTsMsBit |||
    kSentAtMsBit ||| kSentAtNsBit

/-- All bits of the required keys of an ack. -/
def kWakeAckRequiredMask : UInt32 :=
  kSchemaVersionBit ||| kCorrelationIdBit ||| kReceivedAtMsBit ||| kStatusBit

/-- The error of `missing_field`: the first required field whose bit is clear. -/
def missingField (seen : UInt32) : List (UInt32 × Bytes) → DecodeError
  | [] => ⟨.missingField, bytes "missing required field"⟩
  | (bit, name) :: required =>
    if seen &&& bit = 0 then ⟨.missingField, bytes "missing required field: " ++ name⟩
    else missingField seen required

/-! ## Encoding -/

/-- `write_length_prefix`: the body length over the first four bytes, most significant first. -/
def writeLengthPrefix (out : Bytes) : Bytes :=
  let length := UInt32.ofNat (out.length - kFrameLengthBytes)
  [(length >>> 24).toUInt8, (length >>> 16).toUInt8, (length >>> 8).toUInt8, length.toUInt8] ++
    out.drop kFrameLengthBytes

/-- The loop over `price_ranges` in `encode_frame_into`. -/
def appendPriceRanges [CharConv F] (out : Bytes) (first : Bool) : List (PriceRange F) → Bytes
  | [] => out
  | range :: ranges =>
    let out := if first then out else out ++ [0x2C]
    let out := out ++ [0x5B]
    let out := appendDouble out range.start
    let out := out ++ [0x2C]
    let out := appendDouble out range.end_
    let out := out ++ [0x2C]
    let out := appendDouble out range.step
    let out := out ++ [0x5D]
    appendPriceRanges out false ranges

/-- `encode_frame_into(const WakeMessage&, ...)`, which overwrites `out`. -/
def encodeWakeMessageInto [CharConv F] (message : WakeMessage F) (_out : Bytes) : Bytes :=
  let out := List.replicate kFrameLengthBytes 0
  let out := append out (bytes "\x7b\"schema_version\":")
  let out := appendInt out message.schemaVersion
  let out := append out (bytes ",\"correlation_id\":")
  let out := appendString out message.correlationId
  let out := append out (bytes ",\"market_ticker\":")
  let out := appendString out message.marketTicker
  let out := append out (bytes ",\"asset\":")
  let out := appendString out message.asset
  let out := append out (bytes ",\"direction\":")
  let out := appendString out message.direction.nameOf
  let out := append out (bytes ",\"kalshi_price\":")
  let out := appendDouble out message.kalshiPrice
  let out := append out (bytes ",\"model_probability\":")
  let out := appendDouble out message.modelProbability
  let out := append out (bytes ",\"fee\":")
  let out := appendDouble out message.fee
  let out := append out (bytes ",\"edge\":")
  let out := appendDouble out message.edge
  let out := append out (bytes ",\"decision_ts_ms\":")
  let out := appendInt out message.decisionTsMs
  let out := append out (bytes ",\"sent_at_ms\":")
  let out := appendInt out message.sentAtMs
  let out := append out (bytes ",\"sent_at_ns\":")
  let out := appendInt out message.sentAtNs
  let out := append out (bytes ",\"recv_ns\":")
  let out := appendInt out message.recvNs
  let out := append out (bytes ",\"clock_domain\":")
  let out := appendString out message.clockDomain
  let out := append out (bytes ",\"dry_run\":")
  let out := append out (if message.dryRun then bytes "true" else bytes "false")
  let out := append out (bytes ",\"wire_price_yes_dollars\":")
  let out := appendDouble out message.wirePriceYesDollars
  let out := append out (bytes ",\"exchange_index\":")
  let out := appendInt out message.exchangeIndex
  let out := append out (bytes ",\"available_size_contracts\":")
  let out := appendDouble out message.availableSizeContracts
  let out := append out (bytes ",\"price_ranges\":[")
  let out := appendPriceRanges out true message.priceRanges
  let out := out ++ [0x5D]
  let out := append out (bytes ",\"correlation_group\":")
  let out := appendString out message.correlationGroup
  let out := out ++ [0x7D]
  writeLengthPrefix out

/-- `encode_frame_into(const WakeAck&, ...)`, which overwrites `out`. -/
def encodeWakeAckInto (ack : WakeAck) (_out : Bytes) : Bytes :=
  let out := List.replicate kFrameLengthBytes 0
  let out := append out (bytes "\x7b\"schema_version\":")
  let out := appendInt out ack.schemaVersion
  let out := append out (bytes ",\"correlation_id\":")
  let out := appendString out ack.correlationId
  let out := append out (bytes ",\"received_at_ms\":")
  let out := appendInt out ack.receivedAtMs
  let out := append out (bytes ",\"status\":")
  let out := appendString out ack.status.nameOf
  let out := append out (bytes ",\"reason\":")
  let out :=
    match ack.reason with
    | some reason => appendString out reason
    | none => append out (bytes "null")
  let out := out ++ [0x7D]
  writeLengthPrefix out

/-! ## The length prefix -/

/-- The loop of `decode_frame_length`. -/
def frameLength (header : Bytes) : UInt32 :=
  header.foldl (fun length byte => length <<< 8 ||| byte.toUInt32) 0

/-- `decode_frame_length`: the length that a prefix announces, if it is whole and within the cap. -/
def decodeFrameLength (header : Bytes) : Decoded UInt32 :=
  if header.length ≠ kFrameLengthBytes then
    .error ⟨.malformedFrame, bytes "length prefix must be 4 bytes"⟩
  else if (frameLength header).toNat > kMaxFrameBytes then
    .error ⟨.frameTooLarge, bytes "frame length " ++ JsonText.decimal (frameLength header).toNat ++
      bytes " exceeds max " ++ JsonText.decimal kMaxFrameBytes⟩
  else .ok (frameLength header)

/-! ## Field readers -/

/-- `price_range_arity_error`. -/
def priceRangeArityError : DecodeError :=
  ⟨.malformedPriceRange, bytes "price_ranges entry is not [start, end, step]"⟩

/-- One bound of an entry: the body of the loop over `bounds` in `read_price_ranges`. -/
def readBound [CharConv F] (r : Reader) : Parse (F × Reader) := do
  let (hasBound, r) ← r.nextElement
  if ¬ hasBound then .error (.error priceRangeArityError) else r.readDouble

/-- One entry of `read_price_ranges`, from its opening bracket. -/
def readEntry [CharConv F] (r : Reader) : Parse (PriceRange F × Reader) := do
  let r ← r.beginArray
  let (start, r) ← readBound r
  let (end_, r) ← readBound r
  let (step, r) ← readBound r
  let (extra, r) ← r.nextElement
  if extra then .error (.error priceRangeArityError) else .ok (⟨start, end_, step⟩, r)

/-- One iteration of the loop of `read_price_ranges`. -/
def rangesBody [CharConv F] (s : Reader × List (PriceRange F)) :
    Loop.Step (Reader × List (PriceRange F)) (Parse (List (PriceRange F) × Reader)) :=
  match s.1.nextElement with
  | .error e => .done (.error e)
  | .ok (false, r) => .done (.ok (s.2, r))
  | .ok (true, r) =>
    match readEntry r with
    | .error e => .done (.error e)
    | .ok (range, r) => .more (r, s.2 ++ [range])

/-- `read_price_ranges`: an array of arrays of three numbers. -/
def readPriceRanges [CharConv F] (r : Reader) : Parse (List (PriceRange F) × Reader) := do
  let r ← r.beginArray
  (Loop.run rangesBody (r.text.length + 1) (r, [])).getD (.error .fault)

/-- `read_direction`, which knows two names. -/
def readDirection (r : Reader) : Parse (Direction × Reader) := do
  let (text, r) ← r.readString
  if text = bytes "yes" then .ok (.yes, r)
  else if text = bytes "no" then .ok (.no, r)
  else
    .error (.error ⟨.unknownEnumValue, bytes "direction must be yes or no, got " ++ text⟩)

/-- `read_status`, which knows two names. -/
def readStatus (r : Reader) : Parse (WakeAckStatus × Reader) := do
  let (text, r) ← r.readString
  if text = bytes "accepted" then .ok (.accepted, r)
  else if text = bytes "rejected" then .ok (.rejected, r)
  else
    .error (.error ⟨.unknownEnumValue, bytes "status must be accepted or rejected, got " ++ text⟩)

/-- The member of a wake message with a key: the record and the bits seen with it. An unknown key
is an error. -/
def readWakeField [CharConv F] (r : Reader) (key : Bytes) (m : WakeMessage F) (seen : UInt32) :
    Parse (Reader × WakeMessage F × UInt32) :=
  if key = bytes "schema_version" then do
    let (v, r) ← r.readInt
    .ok (r, { m with schemaVersion := v }, seen ||| kSchemaVersionBit)
  else if key = bytes "correlation_id" then do
    let (v, r) ← r.readString
    .ok (r, { m with correlationId := v }, seen ||| kCorrelationIdBit)
  else if key = bytes "market_ticker" then do
    let (v, r) ← r.readString
    .ok (r, { m with marketTicker := v }, seen ||| kMarketTickerBit)
  else if key = bytes "asset" then do
    let (v, r) ← r.readString
    .ok (r, { m with asset := v }, seen ||| kAssetBit)
  else if key = bytes "direction" then do
    let (v, r) ← readDirection r
    .ok (r, { m with direction := v }, seen ||| kDirectionBit)
  else if key = bytes "kalshi_price" then do
    let (v, r) ← r.readDouble
    .ok (r, { m with kalshiPrice := v }, seen ||| kKalshiPriceBit)
  else if key = bytes "model_probability" then do
    let (v, r) ← r.readDouble
    .ok (r, { m with modelProbability := v }, seen ||| kModelProbabilityBit)
  else if key = bytes "fee" then do
    let (v, r) ← r.readDouble
    .ok (r, { m with fee := v }, seen ||| kFeeBit)
  else if key = bytes "edge" then do
    let (v, r) ← r.readDouble
    .ok (r, { m with edge := v }, seen ||| kEdgeBit)
  else if key = bytes "decision_ts_ms" then do
    let (v, r) ← r.readInt
    .ok (r, { m with decisionTsMs := v }, seen ||| kDecisionTsMsBit)
  else if key = bytes "sent_at_ms" then do
    let (v, r) ← r.readInt
    .ok (r, { m with sentAtMs := v }, seen ||| kSentAtMsBit)
  else if key = bytes "sent_at_ns" then do
    let (v, r) ← r.readInt
    .ok (r, { m with sentAtNs := v }, seen ||| kSentAtNsBit)
  else if key = bytes "recv_ns" then do
    let (v, r) ← r.readInt
    .ok (r, { m with recvNs := v }, seen)
  else if key = bytes "clock_domain" then do
    let (v, r) ← r.readString
    .ok (r, { m with clockDomain := v }, seen)
  else if key = bytes "dry_run" then do
    let (v, r) ← r.readBool
    .ok (r, { m with dryRun := v }, seen)
  else if key = bytes "wire_price_yes_dollars" then do
    let (v, r) ← r.readDouble
    .ok (r, { m with wirePriceYesDollars := v }, seen)
  else if key = bytes "exchange_index" then do
    let (v, r) ← r.readInt
    .ok (r, { m with exchangeIndex := v }, seen)
  else if key = bytes "available_size_contracts" then do
    let (v, r) ← r.readDouble
    .ok (r, { m with availableSizeContracts := v }, seen)
  else if key = bytes "price_ranges" then do
    let (v, r) ← readPriceRanges r
    .ok (r, { m with priceRanges := v }, seen)
  else if key = bytes "correlation_group" then do
    let (v, r) ← r.readString
    .ok (r, { m with correlationGroup := v }, seen)
  else .error (.error ⟨.unknownField, bytes "unexpected field: " ++ key⟩)

/-- The `reason` branch of `read_ack_field`. -/
def readReason (r : Reader) : Parse (Option Bytes × Reader) :=
  if r.atNull.1 then do
    let r ← r.atNull.2.readNull
    .ok (none, r)
  else do
    let (reason, r) ← r.atNull.2.readString
    .ok (some reason, r)

/-- The member of an ack with a key: the record and the bits seen with it. An unknown key is an
error. -/
def readAckField (r : Reader) (key : Bytes) (ack : WakeAck) (seen : UInt32) :
    Parse (Reader × WakeAck × UInt32) :=
  if key = bytes "schema_version" then do
    let (v, r) ← r.readInt
    .ok (r, { ack with schemaVersion := v }, seen ||| kSchemaVersionBit)
  else if key = bytes "correlation_id" then do
    let (v, r) ← r.readString
    .ok (r, { ack with correlationId := v }, seen ||| kCorrelationIdBit)
  else if key = bytes "received_at_ms" then do
    let (v, r) ← r.readInt
    .ok (r, { ack with receivedAtMs := v }, seen ||| kReceivedAtMsBit)
  else if key = bytes "status" then do
    let (v, r) ← readStatus r
    .ok (r, { ack with status := v }, seen ||| kStatusBit)
  else if key = bytes "reason" then do
    let (v, r) ← readReason r
    .ok (r, { ack with reason := v }, seen)
  else .error (.error ⟨.unknownField, bytes "unexpected field: " ++ key⟩)

/-! ## Decoding -/

/-- One iteration of the member loop that both decoders run, with the field reader a
parameter: the next member's key, then its value. -/
def memberBody {M : Type} (readField : Reader → Bytes → M → UInt32 → Parse (Reader × M × UInt32))
    (s : Reader × M × UInt32) : Loop.Step (Reader × M × UInt32) (Parse (Reader × M × UInt32)) :=
  match s.1.nextMember with
  | .error e => .done (.error e)
  | .ok (none, r) => .done (.ok (r, s.2))
  | .ok (some key, r) =>
    match readField r key s.2.1 s.2.2 with
    | .error e => .done (.error e)
    | .ok s => .more s

/-- The common part of the two decoders: the object, its members, the end of the document and
the required mask. -/
def decodeObject {M : Type} (readField : Reader → Bytes → M → UInt32 → Parse (Reader × M × UInt32))
    (initial : M) (mask : UInt32) (required : List (UInt32 × Bytes)) (body : Bytes) : Parse M := do
  let r ← (Reader.ofText body).beginObject
  let (r, m, seen) ← (Loop.run (memberBody readField) (body.length + 1) (r, initial, 0)).getD
    (.error .fault)
  let _ ← r.atDocumentEnd
  if seen &&& mask ≠ mask then .error (.error (missingField seen required)) else .ok m

/-- A reader's outcome as `Decoded`. A fault has no counterpart in the source; it reports the
error a reader holds that never failed. -/
def toDecoded {T : Type} : Parse T → Decoded T
  | .ok v => .ok v
  | .error (.error e) => .error e
  | .error .fault => .error DecodeError.default

/-- `decode_wake_message`. -/
def decodeWakeMessage [OfScientific F] [CharConv F] (body : Bytes) : Decoded (WakeMessage F) :=
  toDecoded (decodeObject readWakeField WakeMessage.default kWakeMessageRequiredMask
    kWakeMessageRequired body)

/-- `decode_wake_ack`. -/
def decodeWakeAck (body : Bytes) : Decoded WakeAck :=
  toDecoded (decodeObject readAckField WakeAck.default kWakeAckRequiredMask kWakeAckRequired body)

end Hotpath
