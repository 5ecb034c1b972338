import Hotpath.Double
import Hotpath.Json.InBounds
import Hotpath.Protocol.Records

set_option relaxedAutoImplicit false
set_option autoImplicit false

/-!
# The decoders keep within bounds

The two decoders of `src/protocol.cpp` and their field readers, access by access. Whatever bytes
the frame holds, every execution returns, with what the decoder of whole values returns, and
makes no access out of bounds on the way.

## Main definitions

* `Json.Method.decodeWakeMessage`, `Json.Method.decodeWakeAck` — the decoders.

## Main results

* `Json.Method.iterates_rangesBody`, `Json.Method.iterates_memberBody` — an iteration of the
  loops over entries and members returns or goes forward.
-/

namespace Hotpath.Json.Method

open Utf8 (bytes)

/-! ## Field readers -/

section FieldReaders

variable (fuel : ℕ)

/-- One bound of an entry: the body of the loop over `bounds` in `read_price_ranges`. -/
def readBound {F : Type} [CharConv F] : Method F := do
  if ¬ (← nextElement fuel) then throw (.error priceRangeArityError)
  else readDouble fuel

/-- One entry of `read_price_ranges`, from its opening bracket. -/
def readEntry {F : Type} [CharConv F] : Method (PriceRange F) := do
  beginArray fuel
  let start ← readBound fuel
  let end_ ← readBound fuel
  let step ← readBound fuel
  if ← nextElement fuel then throw (.error priceRangeArityError)
  else pure ⟨start, end_, step⟩

/-- One iteration of the loop of `read_price_ranges`. -/
def rangesBody {F : Type} [CharConv F] (ranges : List (PriceRange F)) :
    Method (Loop.Step (List (PriceRange F)) (List (PriceRange F))) := do
  if ← nextElement fuel then
    let range ← readEntry fuel
    pure (.more (ranges ++ [range]))
  else pure (.done ranges)

/-- `read_price_ranges`. -/
def readPriceRanges {F : Type} [CharConv F] : Method (List (PriceRange F)) := do
  beginArray fuel
  loop (rangesBody fuel) fuel []

/-- `read_direction`. -/
def readDirection : Method Direction := do
  let text ← readString fuel
  if text = bytes "yes" then pure .yes
  else if text = bytes "no" then pure .no
  else
    throw (.error ⟨.unknownEnumValue, bytes "direction must be yes or no, got " ++ text⟩)

/-- `read_status`. -/
def readStatus : Method WakeAckStatus := do
  let text ← readString fuel
  if text = bytes "accepted" then pure .accepted
  else if text = bytes "rejected" then pure .rejected
  else
    throw (.error ⟨.unknownEnumValue, bytes "status must be accepted or rejected, got " ++ text⟩)

/-- The member of a wake message with a key. -/
def readWakeField {F : Type} [CharConv F] (key : Bytes) (m : WakeMessage F) (seen : UInt32) :
    Method (WakeMessage F × UInt32) := do
  if key = bytes "schema_version" then
    let v ← readInt fuel
    pure ({ m with schemaVersion := v }, seen ||| kSchemaVersionBit)
  else if key = bytes "correlation_id" then
    let v ← readString fuel
    pure ({ m with correlationId := v }, seen ||| kCorrelationIdBit)
  else if key = bytes "market_ticker" then
    let v ← readString fuel
    pure ({ m with marketTicker := v }, seen ||| kMarketTickerBit)
  else if key = bytes "asset" then
    let v ← readString fuel
    pure ({ m with asset := v }, seen ||| kAssetBit)
  else if key = bytes "direction" then
    let v ← readDirection fuel
    pure ({ m with direction := v }, seen ||| kDirectionBit)
  else if key = bytes "kalshi_price" then
    let v ← readDouble fuel
    pure ({ m with kalshiPrice := v }, seen ||| kKalshiPriceBit)
  else if key = bytes "model_probability" then
    let v ← readDouble fuel
    pure ({ m with modelProbability := v }, seen ||| kModelProbabilityBit)
  else if key = bytes "fee" then
    let v ← readDouble fuel
    pure ({ m with fee := v }, seen ||| kFeeBit)
  else if key = bytes "edge" then
    let v ← readDouble fuel
    pure ({ m with edge := v }, seen ||| kEdgeBit)
  else if key = bytes "decision_ts_ms" then
    let v ← readInt fuel
    pure ({ m with decisionTsMs := v }, seen ||| kDecisionTsMsBit)
  else if key = bytes "sent_at_ms" then
    let v ← readInt fuel
    pure ({ m with sentAtMs := v }, seen ||| kSentAtMsBit)
  else if key = bytes "sent_at_ns" then
    let v ← readInt fuel
    pure ({ m with sentAtNs := v }, seen ||| kSentAtNsBit)
  else if key = bytes "recv_ns" then
    let v ← readInt fuel
    pure ({ m with recvNs := v }, seen)
  else if key = bytes "clock_domain" then
    let v ← readString fuel
    pure ({ m with clockDomain := v }, seen)
  else if key = bytes "dry_run" then
    let v ← readBool fuel
    pure ({ m with dryRun := v }, seen)
  else if key = bytes "wire_price_yes_dollars" then
    let v ← readDouble fuel
    pure ({ m with wirePriceYesDollars := v }, seen)
  else if key = bytes "exchange_index" then
    let v ← readInt fuel
    pure ({ m with exchangeIndex := v }, seen)
  else if key = bytes "available_size_contracts" then
    let v ← readDouble fuel
    pure ({ m with availableSizeContracts := v }, seen)
  else if key = bytes "price_ranges" then
    let v ← readPriceRanges fuel
    pure ({ m with priceRanges := v }, seen)
  else if key = bytes "correlation_group" then
    let v ← readString fuel
    pure ({ m with correlationGroup := v }, seen)
  else throw (.error ⟨.unknownField, bytes "unexpected field: " ++ key⟩)

/-- The `reason` branch of `read_ack_field`. -/
def readReason : Method (Option Bytes) := do
  if ← atNull fuel then
    readNull fuel
    pure none
  else
    let reason ← readString fuel
    pure (some reason)

/-- The member of an ack with a key. -/
def readAckField (key : Bytes) (ack : WakeAck) (seen : UInt32) : Method (WakeAck × UInt32) := do
  if key = bytes "schema_version" then
    let v ← readInt fuel
    pure ({ ack with schemaVersion := v }, seen ||| kSchemaVersionBit)
  else if key = bytes "correlation_id" then
    let v ← readString fuel
    pure ({ ack with correlationId := v }, seen ||| kCorrelationIdBit)
  else if key = bytes "received_at_ms" then
    let v ← readInt fuel
    pure ({ ack with receivedAtMs := v }, seen ||| kReceivedAtMsBit)
  else if key = bytes "status" then
    let v ← readStatus fuel
    pure ({ ack with status := v }, seen ||| kStatusBit)
  else if key = bytes "reason" then
    let v ← readReason fuel
    pure ({ ack with reason := v }, seen)
  else throw (.error ⟨.unknownField, bytes "unexpected field: " ++ key⟩)

/-! ## Decoders -/

/-- One iteration of the member loop that both decoders run, with the field reader a
parameter. -/
def memberBody {M : Type} (readField : Bytes → M → UInt32 → Method (M × UInt32))
    (s : M × UInt32) : Method (Loop.Step (M × UInt32) (M × UInt32)) := do
  match ← nextMember fuel with
  | none => pure (.done s)
  | some key =>
    let s ← readField key s.1 s.2
    pure (.more s)

/-- The common part of the two decoders, from the start of the text. -/
def decodeObject {M : Type} (readField : Bytes → M → UInt32 → Method (M × UInt32)) (initial : M)
    (mask : UInt32) (required : List (UInt32 × Bytes)) : Method M := do
  beginObject fuel
  let s ← loop (memberBody fuel readField) fuel (initial, 0)
  atDocumentEnd fuel
  if s.2 &&& mask ≠ mask then throw (.error (missingField s.2 required)) else pure s.1

/-- `decode_wake_message`, as far as the reader is used. -/
def decodeWakeMessage {F : Type} [OfScientific F] [CharConv F] : Method (WakeMessage F) :=
  decodeObject fuel (readWakeField fuel) WakeMessage.default kWakeMessageRequiredMask
    kWakeMessageRequired

/-- `decode_wake_ack`, as far as the reader is used. -/
def decodeWakeAck : Method WakeAck :=
  decodeObject fuel (readAckField fuel) WakeAck.default kWakeAckRequiredMask kWakeAckRequired

end FieldReaders

/-! ## Price ranges -/

section Fields

variable {F : Type} [CharConv F] {cap fuel : ℕ} {r r' : Reader}

/-- A value that is read leaves the levels as they are. -/
lemma depth_of_reads {α : Type} {room : ℕ} {read : Reader → Parse (α × Reader)}
    {Token : Bytes → α → Prop} {Quoted : Bytes → DecodeError → Prop} {a : α}
    (h : Reader.Reads room read Token Quoted) (hd : r.depth + room ≤ kMaxDepth)
    (hok : read r = .ok (a, r')) : r'.depth = r.depth := by
  obtain ⟨w, tok, -, -, hg⟩ := h.accepted hd hok
  exact hg.depth

/-- A bound of a price range is read alike, inside of its array. -/
lemma refines_readBound (hr : r.pos ≤ r.text.length) (hf : r.text.length < fuel)
    (hd : 1 ≤ r.depth) (hk : r.depth ≤ kMaxDepth) :
    Refines cap (readBound fuel) r (Hotpath.readBound (F := F) r) := by
  refine (refines_nextElement hr hf hd hk).bind hr fun b r₁ _ ho => ?_
  cases b with
  | false => rfl
  | true => exact refines_readDouble ho.le_length (ho.length_lt hf)

/-- A bound of a price range opens and closes nothing. -/
lemma depth_of_readBound {x : F} (hk : r.depth ≤ kMaxDepth)
    (h : Hotpath.readBound r = .ok (x, r')) : r'.depth = r.depth := by
  obtain ⟨⟨b, r₁⟩, h₁, h⟩ := bind_eq_ok.mp h
  cases b with
  | false => cases h
  | true =>
    have hd₁ := depth_of_nextElement h₁
    have hk₁ : r₁.depth + 0 ≤ kMaxDepth := by omega
    rw [depth_of_reads (reads_number (F := F)) hk₁ h, hd₁]

/-- An entry of the price ranges is read alike, inside of their array. -/
lemma refines_readEntry (hr : r.pos ≤ r.text.length) (hf : r.text.length < fuel)
    (hcap : cap ≤ kMaxDepth) (hd : r.depth < cap) :
    Refines cap (readEntry fuel) r (Hotpath.readEntry (F := F) r) := by
  have hlevel : ∀ r₁ : Reader, r₁.depth = r.depth + 1 → 1 ≤ r₁.depth ∧ r₁.depth ≤ kMaxDepth := by
    intro r₁ h
    omega
  refine (refines_beginArray hr hf hcap hd).bind_told hr fun r₁ h₁ ho₁ => ?_
  have hf₁ := ho₁.length_lt hf
  have hd₁ := depth_of_beginArray h₁
  have hl₁ := hlevel r₁ hd₁
  refine (refines_readBound ho₁.le_length hf₁ hl₁.1 hl₁.2).bind ho₁.le_length
    fun start r₂ h₂ ho₂ => ?_
  have hf₂ := ho₂.length_lt hf₁
  have hd₂ := (depth_of_readBound hl₁.2 h₂).trans hd₁
  have hl₂ := hlevel r₂ hd₂
  refine (refines_readBound ho₂.le_length hf₂ hl₂.1 hl₂.2).bind ho₂.le_length
    fun end_ r₃ h₃ ho₃ => ?_
  have hf₃ := ho₃.length_lt hf₂
  have hd₃ := (depth_of_readBound hl₂.2 h₃).trans hd₂
  have hl₃ := hlevel r₃ hd₃
  refine (refines_readBound ho₃.le_length hf₃ hl₃.1 hl₃.2).bind ho₃.le_length
    fun step r₄ h₄ ho₄ => ?_
  have hd₄ := (depth_of_readBound hl₃.2 h₄).trans hd₃
  have hl₄ := hlevel r₄ hd₄
  refine (refines_nextElement ho₄.le_length (ho₄.length_lt hf₃) hl₄.1 hl₄.2).bind ho₄.le_length
    fun extra r₅ _ _ => ?_
  cases extra with
  | false => rfl
  | true => rfl

/-- An entry that is read is passed. -/
lemma pos_lt_of_readEntry {range : PriceRange F} (hk : r.depth + 1 ≤ kMaxDepth)
    (h : Hotpath.readEntry r = .ok (range, r')) : r.pos < r'.pos := by
  obtain ⟨w, tok, -, ⟨c, w', -, -, rfl⟩, hg⟩ := reads_range.accepted hk h
  rw [hg.pos]
  simp

/-- **One iteration of the loop over entries** is safe, and returns or goes forward. -/
theorem iterates_rangesBody {d : ℕ} (hd : 1 ≤ d) (hdcap : d < cap) (hcap : cap ≤ kMaxDepth)
    (ranges : List (PriceRange F)) (r : Reader) (hI : r.depth = d ∧ r.text.length < fuel)
    (hr : r.pos ≤ r.text.length) :
    Iterates cap (fun _ r => r.depth = d ∧ r.text.length < fuel) (fun ranges r => (r, ranges))
      Prod.mk (rangesBody fuel) Hotpath.rangesBody ranges r := by
  obtain ⟨hdr, hf⟩ := hI
  rw [Iterates, rangesBody, ends_bind]
  refine (refines_nextElement hr hf (by omega) (by omega)).ends hr ?_ ?_
  · intro b r₁ h₁ ho₁
    cases b with
    | false =>
      simp only [Hotpath.rangesBody, h₁]
      exact ⟨rfl, fun _ h => by cases h⟩
    | true =>
      have hd₁ := (depth_of_nextElement h₁).trans hdr
      have hf₁ := ho₁.length_lt hf
      rw [onto_ok, if_pos rfl, ends_bind]
      refine (refines_readEntry ho₁.le_length hf₁ hcap (by omega)).ends ho₁.le_length ?_ ?_
      · intro range r₂ h₂ ho₂
        have hd₂ : r₂.depth = r₁.depth := depth_of_reads reads_range (by omega) h₂
        simp only [Hotpath.rangesBody, h₁, h₂]
        refine ⟨rfl, fun s' hs' => ?_⟩
        cases hs'
        exact ⟨⟨hd₂.trans hd₁, ho₂.length_lt hf₁⟩,
          ho₁.pos_le.trans_lt (pos_lt_of_readEntry (by omega) h₂)⟩
      · intro e r₂ h₂
        simp only [Hotpath.rangesBody, h₁, h₂]
        exact ⟨rfl, fun _ h => by cases h⟩
  · intro e r₁ h₁
    simp only [Hotpath.rangesBody, h₁]
    exact ⟨rfl, fun _ h => by cases h⟩

/-- The price ranges are read alike where two more levels may be opened. -/
lemma refines_readPriceRanges (hr : r.pos ≤ r.text.length) (hf : r.text.length < fuel)
    (hcap : cap ≤ kMaxDepth) (hd : r.depth + 1 < cap) :
    Refines cap (readPriceRanges fuel) r (Hotpath.readPriceRanges (F := F) r) := by
  refine (refines_beginArray hr hf hcap (by omega)).bind_told hr fun r₁ h₁ ho₁ => ?_
  have hf₁ := ho₁.length_lt hf
  have hd₁ := depth_of_beginArray h₁
  exact ends_loop (iterates_rangesBody (by omega) hd hcap) fuel _ [] r₁ ⟨hd₁, hf₁⟩ ho₁.le_length
    ((Nat.sub_le _ _).trans_lt hf₁) (Nat.lt_succ_of_le (Nat.sub_le _ _))

/-! ## Fields -/

/-- A direction is read alike. -/
lemma refines_readDirection (hr : r.pos ≤ r.text.length) (hf : r.text.length < fuel) :
    Refines cap (readDirection fuel) r (Hotpath.readDirection r) := by
  refine (refines_scanString hr hf).bind hr fun text r₁ _ _ => ?_
  simp only
  split_ifs <;> rfl

/-- A status is read alike. -/
lemma refines_readStatus (hr : r.pos ≤ r.text.length) (hf : r.text.length < fuel) :
    Refines cap (readStatus fuel) r (Hotpath.readStatus r) := by
  refine (refines_scanString hr hf).bind hr fun text r₁ _ _ => ?_
  simp only
  split_ifs <;> rfl

/-- A reason is read alike. -/
lemma refines_readReason (hr : r.pos ≤ r.text.length) (hf : r.text.length < fuel) :
    Refines cap (readReason fuel) r (Hotpath.readReason r) := by
  rw [Refines, readReason, Hotpath.readReason, ends_bind]
  refine (refines_atNull hr hf).ends_answer hr fun b r₁ hp ho => ?_
  rw [hp]
  cases b with
  | false =>
    exact (refines_scanString ho.le_length (ho.length_lt hf)).bind ho.le_length
      fun _ _ _ _ => rfl
  | true =>
    exact (refines_readNull ho.le_length (ho.length_lt hf)).bind_told ho.le_length
      fun _ _ _ => rfl

/-- A value is read and put into a record. -/
lemma refines_put {V M : Type} {m : Method V} {x : Parse (V × Reader)} {f : V → M × UInt32}
    (h : Refines cap m r x) (hr : r.pos ≤ r.text.length) :
    Refines cap (m >>= fun v => pure (f v)) r
      (told (fun p => (p.2, p.1)) (x >>= fun p => .ok (p.2, f p.1))) := by
  rw [told_bind]
  exact h.bind hr fun _ _ _ _ => rfl

/-- A test is made alike in a method and in the reader of values. -/
lemma refines_ite {α γ : Type} {c : Prop} [Decidable c] {m m' : Method α} {φ : γ → α × Reader}
    {x x' : Parse γ} (h : Refines cap m r (told φ x)) (h' : Refines cap m' r (told φ x')) :
    Refines cap (if c then m else m') r (told φ (if c then x else x')) := by
  by_cases hc : c
  · rw [if_pos hc, if_pos hc]
    exact h
  · rw [if_neg hc, if_neg hc]
    exact h'

/-- The field reader of a wake message. -/
lemma refines_readWakeField {key : Bytes} {m : WakeMessage F} {seen : UInt32}
    (hr : r.pos ≤ r.text.length) (hf : r.text.length < fuel) (hcap : cap ≤ kMaxDepth)
    (hd : r.depth + 1 < cap) :
    Refines cap (readWakeField fuel key m seen) r
      (told (fun p => (p.2, p.1)) (Hotpath.readWakeField r key m seen)) := by
  unfold readWakeField Hotpath.readWakeField
  refine refines_ite (refines_put (refines_readInt hr hf) hr) ?_
  refine refines_ite (refines_put (refines_scanString hr hf) hr) ?_
  refine refines_ite (refines_put (refines_scanString hr hf) hr) ?_
  refine refines_ite (refines_put (refines_scanString hr hf) hr) ?_
  refine refines_ite (refines_put (refines_readDirection hr hf) hr) ?_
  refine refines_ite (refines_put (refines_readDouble hr hf) hr) ?_
  refine refines_ite (refines_put (refines_readDouble hr hf) hr) ?_
  refine refines_ite (refines_put (refines_readDouble hr hf) hr) ?_
  refine refines_ite (refines_put (refines_readDouble hr hf) hr) ?_
  refine refines_ite (refines_put (refines_readInt hr hf) hr) ?_
  refine refines_ite (refines_put (refines_readInt hr hf) hr) ?_
  refine refines_ite (refines_put (refines_readInt hr hf) hr) ?_
  refine refines_ite (refines_put (refines_readInt hr hf) hr) ?_
  refine refines_ite (refines_put (refines_scanString hr hf) hr) ?_
  refine refines_ite (refines_put (refines_readBool hr hf) hr) ?_
  refine refines_ite (refines_put (refines_readDouble hr hf) hr) ?_
  refine refines_ite (refines_put (refines_readInt hr hf) hr) ?_
  refine refines_ite (refines_put (refines_readDouble hr hf) hr) ?_
  refine refines_ite (refines_put (refines_readPriceRanges hr hf hcap hd) hr) ?_
  exact refines_ite (refines_put (refines_scanString hr hf) hr) rfl

/-- The field reader of an ack, which opens no level. -/
lemma refines_readAckField {key : Bytes} {ack : WakeAck} {seen : UInt32}
    (hr : r.pos ≤ r.text.length) (hf : r.text.length < fuel) :
    Refines cap (readAckField fuel key ack seen) r
      (told (fun p => (p.2, p.1)) (Hotpath.readAckField r key ack seen)) := by
  unfold readAckField Hotpath.readAckField
  refine refines_ite (refines_put (refines_readInt hr hf) hr) ?_
  refine refines_ite (refines_put (refines_scanString hr hf) hr) ?_
  refine refines_ite (refines_put (refines_readInt hr hf) hr) ?_
  refine refines_ite (refines_put (refines_readStatus hr hf) hr) ?_
  exact refines_ite (refines_put (refines_readReason hr hf) hr) rfl

end Fields

/-! ## Members and documents -/

section Documents

variable {M : Type} {S : Schema M} {cap fuel : ℕ}
  {readField : Bytes → M → UInt32 → Method (M × UInt32)}

/-- Within a document, a method reads the fields of a schema. -/
def ReadsFields (cap fuel : ℕ) (S : Schema M)
    (readField : Bytes → M → UInt32 → Method (M × UInt32)) : Prop :=
  ∀ key m seen (r : Reader), r.pos ≤ r.text.length → r.text.length < fuel → r.depth = 1 →
    Refines cap (readField key m seen) r
      (told (fun p => (p.2, p.1)) (S.readField r key m seen))

/-- A field that is read leaves the levels as they are. -/
lemma depth_of_readField {r r' : Reader} {key : Bytes} {m m' : M} {seen seen' : UInt32}
    (hd : r.depth + 2 ≤ kMaxDepth) (h : S.readField r key m seen = .ok (r', m', seen')) :
    r'.depth = r.depth := by
  by_cases hname : ∃ f, key = S.name f
  · obtain ⟨f, rfl⟩ := hname
    rw [S.readField_name] at h
    obtain ⟨⟨v, r₁⟩, h₁, h⟩ := bind_eq_ok.mp h
    cases h
    exact depth_of_reads (S.reads f) hd h₁
  · rw [S.readField_other key fun f hf => hname ⟨f, hf⟩] at h
    cases h

/-- **One iteration of the member loop** is safe, and returns or goes forward. -/
theorem iterates_memberBody (hfield : ReadsFields cap fuel S readField) (s : M × UInt32)
    (r : Reader) (hI : r.depth = 1 ∧ r.text.length < fuel) (hr : r.pos ≤ r.text.length) :
    Iterates cap (fun _ r => r.depth = 1 ∧ r.text.length < fuel) (fun s r => (r, s))
      (fun s r => (r, s)) (memberBody fuel readField) (Hotpath.memberBody S.readField) s r := by
  obtain ⟨hdr, hf⟩ := hI
  rw [Iterates, memberBody, ends_bind]
  refine (refines_nextMember hr hf (by omega) (by rw [hdr]; decide)).ends hr ?_ ?_
  · intro key r₁ h₁ ho₁
    cases key with
    | none =>
      simp only [Hotpath.memberBody, h₁]
      exact ⟨rfl, fun _ h => by cases h⟩
    | some key =>
      have hd₁ := (depth_of_nextMember h₁).trans hdr
      have hf₁ := ho₁.length_lt hf
      rw [onto_ok, ends_bind]
      refine (hfield key s.1 s.2 r₁ ho₁.le_length hf₁ hd₁).ends ho₁.le_length ?_ ?_
      · intro s' r₂ h₂ ho₂
        obtain ⟨⟨r₃, s₃⟩, h₃, heq⟩ := told_eq_ok.mp h₂
        cases heq
        have hd₂ := (depth_of_readField (by rw [hd₁]; decide) h₃).trans hd₁
        simp only [Hotpath.memberBody, h₁, h₃]
        refine ⟨rfl, fun s' hs' => ?_⟩
        cases hs'
        exact ⟨⟨hd₂, ho₂.length_lt hf₁⟩, (pos_lt_of_nextMember h₁).trans_le ho₂.pos_le⟩
      · intro e r₂ h₂
        rw [told_eq_error] at h₂
        simp only [Hotpath.memberBody, h₁, h₂]
        exact ⟨rfl, fun _ h => by cases h⟩
  · intro e r₁ h₁
    simp only [Hotpath.memberBody, h₁]
    exact ⟨rfl, fun _ h => by cases h⟩

/-- **A decoder** makes safe accesses only, and comes to what the decoder of whole values comes
to. -/
theorem ends_decodeObject (hfield : ReadsFields cap fuel S readField) (hcap : cap ≤ kMaxDepth)
    (hpos : 0 < cap) {body : Bytes} (hf : body.length < fuel) :
    Ends cap (fun res _ => res = S.decode body)
      (decodeObject fuel readField S.initial S.mask S.required) (Reader.ofText body) := by
  rw [decodeObject, Schema.decode, Hotpath.decodeObject, ends_bind]
  refine (refines_beginObject (r := Reader.ofText body) (Nat.zero_le _) hf hcap hpos).ends
    (Nat.zero_le _) ?_ ?_
  · intro _ r₁ h₁ ho₁
    rw [silent_eq_ok] at h₁
    have hd₁ := depth_of_beginObject h₁
    have hf₁ := ho₁.length_lt hf
    rw [h₁, onto_ok, ok_bind, ends_bind]
    refine ((ends_loop (iterates_memberBody hfield) fuel (body.length + 1) (S.initial, 0) r₁
      ⟨hd₁, hf₁⟩ ho₁.le_length ((Nat.sub_le _ _).trans_lt hf₁) ?_).onward ho₁.le_length).imp ?_
    · rw [ho₁.text]
      exact Nat.lt_succ_of_le (Nat.sub_le _ _)
    rintro (e | ⟨m, seen⟩) r₂ ⟨h₂, ho₂⟩
    · rw [h₂]
      rfl
    · rw [h₂, onto_ok, ends_bind]
      refine (refines_atDocumentEnd ho₂.le_length (ho₂.length_lt hf₁)).ends ho₂.le_length ?_ ?_
      · intro _ r₃ h₃ _
        rw [silent_eq_ok] at h₃
        simp only [outcomeBy_ok, ok_bind, h₃, onto_ok]
        by_cases hmask : seen &&& S.mask ≠ S.mask
        · rw [if_pos hmask, if_pos hmask]
          rfl
        · rw [if_neg hmask, if_neg hmask]
          rfl
      · intro e r₃ h₃
        rw [told_eq_error] at h₃
        simp only [outcomeBy_ok, ok_bind, h₃]
        rfl
  · intro e r₁ h₁
    rw [told_eq_error] at h₁
    rw [h₁]
    rfl

end Documents

end Hotpath.Json.Method

namespace Hotpath

open Json

/-! ## Every execution -/

/-- Every access is answered. -/
lemma Json.Reader.exists_does (r : Reader) (a : Access) : ∃ v r', r.Does a v r' := by
  cases a with
  | size => exact ⟨_, _, rfl, rfl⟩
  | text i =>
    by_cases h : i < r.text.length
    · exact ⟨r.text[i], r, fun _ => ⟨List.getElem?_eq_getElem h, rfl⟩⟩
    · exact ⟨(0 : UInt8), r, fun hi => absurd hi h⟩
  | slice start stop => exact ⟨_, _, fun _ => ⟨rfl, rfl⟩⟩
  | pos => exact ⟨_, _, rfl, rfl⟩
  | setPos p => exact ⟨(), _, rfl⟩
  | depth => exact ⟨_, _, rfl, rfl⟩
  | incDepth => exact ⟨(), _, rfl⟩
  | decDepth => exact ⟨(), _, fun _ => rfl⟩
  | raiseFirst =>
    by_cases h : r.depth < kMaxDepth
    · exact ⟨(), { r with first := Function.update r.first ⟨r.depth, h⟩ true }, fun _ => rfl⟩
    · exact ⟨(), r, fun hd => absurd hd h⟩
  | first =>
    by_cases h : r.depth - 1 < kMaxDepth
    · exact ⟨r.first ⟨r.depth - 1, h⟩, r, fun _ _ => ⟨rfl, rfl⟩⟩
    · exact ⟨false, r, fun _ hd => absurd hd h⟩
  | clearFirst =>
    by_cases h : r.depth - 1 < kMaxDepth
    · exact ⟨(), { r with first := Function.update r.first ⟨r.depth - 1, h⟩ false },
        fun _ _ => rfl⟩
    · exact ⟨(), r, fun _ hd => absurd hd h⟩
  | capped => exact ⟨(), _, rfl⟩
  | round p => exact ⟨(), _, rfl⟩

/-- What all executions of a decoder over a text have in common. There is one, and each that
ends answers `x`, never for want of iterations. Each access is safe, and is made of a reader
within the text with no more than `cap` levels open; it leaves one that is, not further back. -/
structure RunsWithin {α : Type} (cap : ℕ) (m : Method α) (body : Bytes) (x : Decoded α) :
    Prop where
  returns : ∃ res r, Program.Exec Reader.Does m.run (Reader.ofText body) res r
  answers : ∀ res r, Program.Exec Reader.Does m.run (Reader.ofText body) res r →
    res ≠ .error .fault ∧ toDecoded res = x
  safe : ∀ r a, Program.Calls Reader.Does m.run (Reader.ofText body) r a → Safe cap r a
  inside : ∀ r a, Program.Calls Reader.Does m.run (Reader.ofText body) r a →
    r.text = body ∧ r.pos ≤ body.length ∧ r.depth ≤ cap
  forward : ∀ r a v r', Program.Calls Reader.Does m.run (Reader.ofText body) r a →
    r.Does a v r' → r.pos ≤ r'.pos ∧ r'.pos ≤ body.length ∧ r'.depth ≤ cap

/-- From one judgement about a decoder, all about its executions. -/
lemma runsWithin_of_ends {M : Type} {S : Schema M} {cap : ℕ} {m : Method M} {body : Bytes}
    (h : Method.Ends cap (fun res _ => res = S.decode body) m (Reader.ofText body)) :
    RunsWithin cap m body (toDecoded (S.decode body)) := by
  have hinside : ∀ r a, Program.Calls Reader.Does m.run (Reader.ofText body) r a →
      r.text = body ∧ r.pos ≤ body.length ∧ r.depth ≤ cap := by
    intro r a hc
    refine h.invariant_of_calls (I := fun r => r.text = body ∧ r.pos ≤ body.length ∧
      r.depth ≤ cap) ?_ ⟨rfl, Nat.zero_le _, Nat.zero_le _⟩ hc
    rintro r₁ a v r₂ hsafe hd ⟨rfl, hpos, hdepth⟩
    have hk := hd.keeps hsafe
    exact ⟨hk.text, hk.le_length hpos, hk.depth_le hdepth⟩
  refine ⟨Program.exec_total Reader.exists_does _ _, ?_, fun r a hc => h.of_calls hc, hinside, ?_⟩
  · intro res r hr
    obtain rfl : res = S.decode body := h.of_exec hr
    exact ⟨S.decode_ne_fault body, rfl⟩
  · intro r a v r' hc hd
    obtain ⟨rfl, hpos, hdepth⟩ := hinside r a hc
    have hk := hd.keeps (h.of_calls hc)
    exact ⟨hk.pos_le, hk.le_length hpos, hk.depth_le hdepth⟩

/-- **The decoders are total and in bounds**, whatever the body: given more iterations than the
body has bytes, every execution returns what the decoder returns, and makes no access outside the
text or the flags, with no more than three levels open in a wake message and one in an ack. The
cap on the levels never rejects the body, and every iteration of every loop returns or goes
forward in the text. -/
theorem decode_in_bounds {F : Type} [OfScientific F] [CharConv F] (body : Bytes) (fuel : ℕ)
    (hfuel : body.length < fuel) :
    RunsWithin 3 (Method.decodeWakeMessage (F := F) fuel) body (decodeWakeMessage body) ∧
      RunsWithin 1 (Method.decodeWakeAck fuel) body (decodeWakeAck body) := by
  constructor
  · refine runsWithin_of_ends (S := wakeSchema F)
      (Method.ends_decodeObject (S := wakeSchema F) ?_ (by decide) (by decide) hfuel)
    intro key m seen r hr hf hd
    exact Method.refines_readWakeField hr hf (by decide) (by omega)
  · refine runsWithin_of_ends (S := ackSchema F)
      (Method.ends_decodeObject (S := ackSchema F) ?_ (by decide) (by decide) hfuel)
    intro key ack seen r hr hf _
    exact Method.refines_readAckField hr hf

/-- A key cut off within a character of four bytes. -/
theorem decode_in_bounds_truncated :
    RunsWithin 3 (Method.decodeWakeMessage (F := ℚ) 4) [0x7B, 0x22, 0xF0]
        (decodeWakeMessage [0x7B, 0x22, 0xF0]) ∧
      RunsWithin 1 (Method.decodeWakeAck 4) [0x7B, 0x22, 0xF0]
        (decodeWakeAck [0x7B, 0x22, 0xF0]) :=
  decode_in_bounds [0x7B, 0x22, 0xF0] 4 (by decide)

end Hotpath
