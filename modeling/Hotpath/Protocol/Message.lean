import Hotpath.Double

set_option relaxedAutoImplicit false
set_option autoImplicit false

/-!
# The wake protocol's messages

The data of `include/hotpath/protocol.hpp`: the constants, the two messages with the defaults
of their members, and the error a decoder reports. Strings and frames are byte lists.

## Main definitions

* `Hotpath.WakeMessage`, `Hotpath.WakeAck`, `Hotpath.PriceRange`.
* `Hotpath.DecodeError`, `Hotpath.Decoded`.
-/

namespace Hotpath

open Utf8 (bytes)

/-- `std::string`, `std::vector<std::byte>`. -/
abbrev Bytes := List UInt8

/-- `std::vector::resize` on bytes. -/
def resize (body : Bytes) (n : ℕ) : Bytes := body.take n ++ List.replicate (n - body.length) 0

/-- The length of a resized vector. -/
lemma length_resize (body : Bytes) (n : ℕ) : (resize body n).length = n := by
  simp only [resize, List.length_append, List.length_take, List.length_replicate]
  omega

/-- The version of the wire format. -/
def kSchemaVersion : Int64 := 4

/-- The size of the length prefix of a frame. -/
def kFrameLengthBytes : ℕ := 4

/-- The cap of the length of a body. -/
def kMaxFrameBytes : ℕ := 64 * 1024

/-- The side of the market that is bought. -/
inductive Direction where
  | yes
  | no
  deriving DecidableEq, Repr

/-- Whether a wake message was accepted. -/
inductive WakeAckStatus where
  | accepted
  | rejected
  deriving DecidableEq, Repr

/-- One `[start, end, step]` triple of the market's price grid. -/
structure PriceRange (F : Type) where
  start : F
  end_ : F
  step : F
  deriving DecidableEq, Repr

/-- `kDefaultPriceRange`. -/
def kDefaultPriceRange {F : Type} [OfScientific F] : PriceRange F where
  start := 0.0
  end_ := 1.0
  step := 0.01

/-- `WakeMessage`, members in wire order. -/
structure WakeMessage (F : Type) where
  schemaVersion : Int64
  correlationId : Bytes
  marketTicker : Bytes
  asset : Bytes
  direction : Direction
  kalshiPrice : F
  modelProbability : F
  fee : F
  edge : F
  decisionTsMs : Int64
  sentAtMs : Int64
  sentAtNs : Int64
  recvNs : Int64
  clockDomain : Bytes
  dryRun : Bool
  wirePriceYesDollars : F
  exchangeIndex : Int64
  availableSizeContracts : F
  priceRanges : List (PriceRange F)
  correlationGroup : Bytes
  deriving DecidableEq, Repr

/-- A default-initialized `WakeMessage`. -/
def WakeMessage.default {F : Type} [OfScientific F] : WakeMessage F where
  schemaVersion := kSchemaVersion
  correlationId := []
  marketTicker := []
  asset := []
  direction := .yes
  kalshiPrice := 0.0
  modelProbability := 0.0
  fee := 0.0
  edge := 0.0
  decisionTsMs := 0
  sentAtMs := 0
  sentAtNs := 0
  recvNs := 0
  clockDomain := []
  dryRun := false
  wirePriceYesDollars := 0.0
  exchangeIndex := -1
  availableSizeContracts := 0.0
  priceRanges := [kDefaultPriceRange]
  correlationGroup := []

/-- `WakeAck`, members in wire order. -/
structure WakeAck where
  schemaVersion : Int64
  correlationId : Bytes
  receivedAtMs : Int64
  status : WakeAckStatus
  reason : Option Bytes
  deriving DecidableEq, Repr

/-- A default-initialized `WakeAck`. -/
def WakeAck.default : WakeAck where
  schemaVersion := kSchemaVersion
  correlationId := []
  receivedAtMs := 0
  status := .accepted
  reason := none

/-- What kind of error a decoder reports. -/
inductive DecodeErrorCode where
  | malformedJson
  | unknownField
  | missingField
  | wrongType
  | outOfRange
  | unknownEnumValue
  | malformedPriceRange
  | malformedFrame
  | frameTooLarge
  deriving DecidableEq, Repr

/-- An error of a decoder, with a text that names what it is about. -/
structure DecodeError where
  code : DecodeErrorCode
  message : Bytes
  deriving DecidableEq, Repr

/-- A default-initialized `DecodeError`. -/
def DecodeError.default : DecodeError where
  code := .malformedJson
  message := []

/-- A decoded value or the reason there is not one. -/
abbrev Decoded (T : Type) := Except DecodeError T

/-- `name_of(Direction)`. -/
def Direction.nameOf : Direction → Bytes
  | .yes => bytes "yes"
  | .no => bytes "no"

/-- `name_of(WakeAckStatus)`. -/
def WakeAckStatus.nameOf : WakeAckStatus → Bytes
  | .accepted => bytes "accepted"
  | .rejected => bytes "rejected"

end Hotpath
