import Hotpath.Json.WriterSpec
import Hotpath.Protocol.Records

set_option relaxedAutoImplicit false
set_option autoImplicit false

/-!
# Decoding undoes encoding

The two encoders write a document of the decoders' language whose members are the fields of the
record in wire order, so that decoding it gives the record back; and the length prefix they
write is read back as the length of the body.

## Main definitions

* `Value.written`, `objectText`, `documentText` — what the encoders write.
* `WakeMessage.Encodable`, `WakeAck.Encodable` — valid strings and finite numbers.

## Main results

* `decodeWakeMessage_body`, `decodeWakeAck_body` — decoding what is written.
* `decodeFrameLength_writeLengthPrefix` — the length prefix.
* `round_trip` — the wire format as a whole.
-/

namespace Hotpath

open Json Json.Reader JsonText
open Utf8 (bytes encode)

variable {F : Type}

/-! ## The texts of values -/

/-- The text of one price range. -/
def rangeText [CharConv F] (range : PriceRange F) : Bytes :=
  0x5B :: (formatDouble range.start ++ 0x2C :: (formatDouble range.end_ ++
    0x2C :: (formatDouble range.step ++ [0x5D])))

/-- The texts of price ranges, with commas between them. -/
def rangesText [CharConv F] (first : Bool) : List (PriceRange F) → Bytes
  | [] => []
  | range :: ranges =>
    (if first then [] else [0x2C]) ++ (rangeText range ++ rangesText false ranges)

/-- The text of a value. -/
def Value.written [CharConv F] : Value F → Bytes
  | .int v => intText v.toInt
  | .text v => stringText v
  | .number x => formatDouble x
  | .flag b => flagText b
  | .direction d => stringText d.nameOf
  | .ranges rs => 0x5B :: (rangesText true rs ++ [0x5D])
  | .status s => stringText s.nameOf
  | .reason none => bytes "null"
  | .reason (some r) => stringText r

/-- The strings of a value are valid UTF-8 and its numbers are finite. -/
def Value.Encodable [CharConv F] : Value F → Prop
  | .text v => Utf8.Valid v
  | .number x => CharConv.isFinite x = true
  | .ranges rs => ∀ range ∈ rs, CharConv.isFinite range.start = true ∧
      CharConv.isFinite range.end_ = true ∧ CharConv.isFinite range.step = true
  | .reason (some r) => Utf8.Valid r
  | _ => True

/-- A number token is valid UTF-8. -/
lemma valid_render (n : Number) : Utf8.Valid n.render :=
  Utf8.valid_of_ascii fun b hb => n.lt_of_mem_render b hb

/-- The text of a finite number is a token of it. -/
private lemma numberToken_formatDouble [CharConv F] {x : F} (h : CharConv.isFinite x = true) :
    NumberToken (formatDouble x) x := by
  obtain ⟨n, hn, hx⟩ := formatDouble_spec h
  exact ⟨n, hn, hx⟩

/-- The lead of a later item, without blanks. -/
lemma lead_comma : Lead false [0x2C] := ⟨[], [], blank_nil, blank_nil, rfl⟩

/-- The text of a range of finite numbers is a token of it. -/
private lemma rangeToken_rangeText [CharConv F] {range : PriceRange F}
    (h : CharConv.isFinite range.start = true ∧ CharConv.isFinite range.end_ = true ∧
      CharConv.isFinite range.step = true) : RangeToken (rangeText range) range := by
  have hl := ((Listing.nil.snoc (s := []) blank_nil (numberToken_formatDouble h.1)).snoc lead_comma
    (numberToken_formatDouble h.2.1)).snoc lead_comma (numberToken_formatDouble h.2.2)
  exact ⟨_, [], hl, blank_nil, by simp [rangeText]⟩

/-- The texts of ranges list them. -/
private lemma listing_rangesText [CharConv F] {ranges : List (PriceRange F)}
    (h : ∀ range ∈ ranges, CharConv.isFinite range.start = true ∧
      CharConv.isFinite range.end_ = true ∧ CharConv.isFinite range.step = true) :
    ∀ {done : List (PriceRange F)} {c : Bytes}, Listing RangeToken done c →
      Listing RangeToken (done ++ ranges) (c ++ rangesText done.isEmpty ranges) := by
  induction ranges with
  | nil =>
    intro done c hc
    simpa [rangesText] using hc
  | cons range ranges ih =>
    intro done c hc
    have hlead : Lead done.isEmpty (if done.isEmpty then [] else [0x2C]) := by
      cases done with
      | nil => exact blank_nil
      | cons _ _ => exact lead_comma
    have hnext := hc.snoc hlead (rangeToken_rangeText (h range (by simp)))
    have hrest := ih (fun r hr => h r (by simp [hr])) hnext
    have hne : (done ++ [range]).isEmpty = false := by simp
    rw [hne] at hrest
    simpa [rangesText, List.append_assoc] using hrest

/-- A name is a string token of itself. -/
lemma stringToken_name {s : Bytes}
    (h : ∀ b ∈ s, (0x20 ≤ b ∧ b < 0x80) ∧ b ≠ 0x22 ∧ b ≠ 0x5C) :
    ∃ cs, StringToken (0x22 :: (s ++ [0x22])) cs ∧ encode cs = s :=
  ⟨s.map Utf8.ascii, ⟨s, items_plain h, rfl⟩, Utf8.encode_map_ascii fun b hb => (h b hb).1.2⟩

/-- The text of a valid string is a token of it. -/
private lemma stringToken_of_valid {s : Bytes} (h : Utf8.Valid s) :
    ∃ cs, StringToken (stringText s) cs ∧ encode cs = s := by
  obtain ⟨cs, rfl⟩ := h
  exact ⟨cs, stringToken_stringText cs, rfl⟩

/-- **The text of a value is a token of it.** -/
lemma Value.token_written [CharConv F] {v : Value F} (h : v.Encodable) :
    v.kind.Token v.written v := by
  cases v with
  | int v =>
    refine ⟨v, ⟨intNumber v.toInt, rfl, ?_, ?_, (render_intNumber _).symm, ?_⟩, rfl⟩
    · rw [intValue_intNumber]
      exact Int64.le_toInt v
    · rw [intValue_intNumber]
      have := Int64.toInt_lt v
      omega
    · rw [intValue_intNumber, Int64.ofInt_toInt]
  | text v =>
    obtain ⟨cs, hs, hcs⟩ := stringToken_of_valid h
    exact ⟨v, ⟨cs, hs, hcs.symm⟩, rfl⟩
  | number x => exact ⟨x, numberToken_formatDouble h, rfl⟩
  | flag b => exact ⟨b, rfl, rfl⟩
  | direction d =>
    obtain ⟨cs, hs, hcs⟩ := stringToken_of_valid (s := d.nameOf)
      (Utf8.valid_of_ascii (by cases d <;> decide))
    exact ⟨d, ⟨cs, hs, hcs⟩, rfl⟩
  | ranges ranges =>
    have hl := listing_rangesText h Listing.nil
    exact ⟨ranges, ⟨_, [], hl, blank_nil, by simp [Value.written]⟩, rfl⟩
  | status s =>
    obtain ⟨cs, hs, hcs⟩ := stringToken_of_valid (s := s.nameOf)
      (Utf8.valid_of_ascii (by cases s <;> decide))
    exact ⟨s, ⟨cs, hs, hcs⟩, rfl⟩
  | reason r =>
    cases r with
    | none => exact ⟨none, Or.inl ⟨rfl, rfl⟩, rfl⟩
    | some r =>
      obtain ⟨cs, hs, hcs⟩ := stringToken_of_valid h
      exact ⟨some r, Or.inr ⟨cs, hs, by rw [hcs]⟩, rfl⟩

/-! ## The texts of documents -/

/-- The members of an object, keys and value texts, with commas between them. -/
def objectText (first : Bool) : List (Bytes × Bytes) → Bytes
  | [] => []
  | (name, value) :: members => (if first then [] else [0x2C]) ++
      (0x22 :: (name ++ 0x22 :: 0x3A :: value) ++ objectText false members)

/-- One object, without blanks. -/
def documentText (members : List (Bytes × Bytes)) : Bytes :=
  0x7B :: (objectText true members ++ [0x7D])

/-- Field names need no escape. -/
def PlainName (name : Bytes) : Prop :=
  ∀ b ∈ name, (0x20 ≤ b ∧ b < 0x80) ∧ b ≠ 0x22 ∧ b ≠ 0x5C

/-- Whether a name is plain is decided by going through its bytes. -/
instance (name : Bytes) : Decidable (PlainName name) := by
  unfold PlainName
  infer_instance

/-- The members of an object list the fields they are written for. -/
lemma listing_objectText {M : Type} {S : Schema M} {text : S.Value → Bytes}
    (hname : ∀ f, PlainName (S.name f)) {ms : List (S.Field × S.Value)}
    (h : ∀ p ∈ ms, S.Token p.1 (text p.2) p.2) :
    ∀ {done : List (S.Field × S.Value)} {c : Bytes}, Listing S.Member done c →
      Listing S.Member (done ++ ms)
        (c ++ objectText done.isEmpty (ms.map fun p => (S.name p.1, text p.2))) := by
  induction ms with
  | nil =>
    intro done c hc
    simpa [objectText] using hc
  | cons p ms ih =>
    intro done c hc
    have hlead : Lead done.isEmpty (if done.isEmpty then [] else [0x2C]) := by
      cases done with
      | nil => exact blank_nil
      | cons _ _ => exact lead_comma
    obtain ⟨cs, hs, hcs⟩ := stringToken_name (hname p.1)
    have hmember : S.Member (0x22 :: (S.name p.1 ++ 0x22 :: 0x3A :: text p.2)) p :=
      ⟨_, cs, [], [], _, hs, hcs, blank_nil, blank_nil, h p (by simp), by simp⟩
    have hrest := ih (fun q hq => h q (by simp [hq])) (hc.snoc hlead hmember)
    have hne : (done ++ [p]).isEmpty = false := by simp
    rw [hne] at hrest
    simpa [objectText, List.append_assoc] using hrest

/-- What is written for some fields is a document of them. -/
lemma document_documentText {M : Type} {S : Schema M} {text : S.Value → Bytes}
    (hname : ∀ f, PlainName (S.name f)) {ms : List (S.Field × S.Value)}
    (h : ∀ p ∈ ms, S.Token p.1 (text p.2) p.2) :
    S.Document (documentText (ms.map fun p => (S.name p.1, text p.2))) ms := by
  have hl := listing_objectText hname h Listing.nil
  exact ⟨[], _, [], [], blank_nil, hl, blank_nil, blank_nil, by simp [documentText]⟩

/-! ## The length prefix -/

/-- A length written over the first four bytes is read back from them. -/
lemma frameLength_bytes (length : UInt32) :
    frameLength [(length >>> 24).toUInt8, (length >>> 16).toUInt8, (length >>> 8).toUInt8,
      length.toUInt8] = length := by
  have hstep : ∀ a b : ℕ, a < 2 ^ 24 → b < 2 ^ 8 →
      a <<< 8 % 2 ^ 32 ||| b = a * 2 ^ 8 + b := by
    intro a b ha hb
    rw [Nat.shiftLeft_eq, Nat.mod_eq_of_lt (by omega), ← Nat.shiftLeft_eq,
      ← Nat.shiftLeft_add_eq_or_of_lt hb, Nat.shiftLeft_eq]
  have hlt := length.toNat_lt
  rw [← UInt32.toNat_inj]
  simp only [frameLength, List.foldl_cons, List.foldl_nil, UInt32.toNat_or, UInt32.toNat_shiftLeft,
    UInt8.toNat_toUInt32, UInt32.toNat_toUInt8, UInt32.toNat_shiftRight, UInt32.reduceToNat,
    Nat.reduceMod, Nat.shiftRight_eq_div_pow]
  generalize length.toNat = n at hlt
  have h₁ : 0 <<< 8 % 2 ^ 32 ||| n / 2 ^ 24 % 2 ^ 8 = n / 2 ^ 24 := by
    rw [hstep _ _ (by decide) (by omega)]
    omega
  have h₂ : (n / 2 ^ 24) <<< 8 % 2 ^ 32 ||| n / 2 ^ 16 % 2 ^ 8 = n / 2 ^ 16 := by
    rw [hstep _ _ (by omega) (by omega)]
    omega
  have h₃ : (n / 2 ^ 16) <<< 8 % 2 ^ 32 ||| n / 2 ^ 8 % 2 ^ 8 = n / 2 ^ 8 := by
    rw [hstep _ _ (by omega) (by omega)]
    omega
  have h₄ : (n / 2 ^ 8) <<< 8 % 2 ^ 32 ||| n % 2 ^ 8 = n := by
    rw [hstep _ _ (by omega) (by omega)]
    omega
  rw [h₁, h₂, h₃, h₄]

/-- What `write_length_prefix` makes of an empty prefix and a body. -/
lemma writeLengthPrefix_eq (body : Bytes) :
    ∃ header : Bytes, writeLengthPrefix (List.replicate kFrameLengthBytes 0 ++ body) =
      header ++ body ∧ header.length = kFrameLengthBytes ∧
      frameLength header = UInt32.ofNat body.length := by
  refine ⟨_, ?_, ?_, frameLength_bytes (UInt32.ofNat body.length)⟩
  · have hlen : (List.replicate kFrameLengthBytes (0 : UInt8) ++ body).length - kFrameLengthBytes =
        body.length := by simp
    have hdrop : (List.replicate kFrameLengthBytes (0 : UInt8) ++ body).drop kFrameLengthBytes =
        body := by
      rw [List.drop_left' (by simp)]
    rw [writeLengthPrefix, hlen, hdrop]
  · rfl

/-- **The length prefix.** The prefix of a frame is read back as the length of its body if
that is at most the cap, and is refused if it is more and below `2^32`. -/
lemma decodeFrameLength_writeLengthPrefix (body : Bytes) (hlt : body.length < 2 ^ 32) :
    decodeFrameLength ((writeLengthPrefix (List.replicate kFrameLengthBytes 0 ++ body)).take
      kFrameLengthBytes) =
      if body.length > kMaxFrameBytes then
        .error ⟨.frameTooLarge, bytes "frame length " ++ decimal body.length ++
          bytes " exceeds max " ++ decimal kMaxFrameBytes⟩
      else .ok (UInt32.ofNat body.length) := by
  obtain ⟨header, h, hlen, hval⟩ := writeLengthPrefix_eq body
  have hnat : (UInt32.ofNat body.length).toNat = body.length := by
    rw [UInt32.toNat_ofNat']
    exact Nat.mod_eq_of_lt hlt
  rw [h, ← hlen, List.take_left, decodeFrameLength, if_neg (by simp [hlen]), hval, hnat]

/-- The body of a frame is what follows its prefix. -/
lemma drop_writeLengthPrefix (body : Bytes) :
    (writeLengthPrefix (List.replicate kFrameLengthBytes 0 ++ body)).drop kFrameLengthBytes =
      body := by
  obtain ⟨header, h, hlen, -⟩ := writeLengthPrefix_eq body
  rw [h, ← hlen, List.drop_left]

/-! ## The encoders -/

/-- The fields of a wake message, in wire order. -/
def WakeField.all : List WakeField :=
  [schemaVersion, correlationId, marketTicker, asset, direction, kalshiPrice, modelProbability,
    fee, edge, decisionTsMs, sentAtMs, sentAtNs, recvNs, clockDomain, dryRun, wirePriceYesDollars,
    exchangeIndex, availableSizeContracts, priceRanges, correlationGroup]

/-- The fields of an ack, in wire order. -/
def AckField.all : List AckField := [schemaVersion, correlationId, receivedAtMs, status, reason]

/-- The body of a message's frame. -/
def WakeMessage.body [CharConv F] (m : WakeMessage F) : Bytes :=
  documentText (WakeField.all.map fun f => (f.name, (m.get f).written))

/-- The body of an ack's frame. An ack has no number, so any type of numbers will do. -/
def WakeAck.body (F : Type) [CharConv F] (ack : WakeAck) : Bytes :=
  documentText (AckField.all.map fun f => (f.name, (ack.get (F := F) f).written))

/-- The loop over the ranges appends their texts. -/
private lemma appendPriceRanges_eq [CharConv F] (out : Bytes) (first : Bool)
    (ranges : List (PriceRange F)) :
    appendPriceRanges out first ranges = out ++ rangesText first ranges := by
  induction ranges generalizing out first with
  | nil => simp [appendPriceRanges, rangesText]
  | cons range ranges ih =>
    rw [appendPriceRanges, ih]
    cases first <;> simp [rangesText, rangeText, appendDouble, append]

/-- The text between two values: a comma, the key and the colon. -/
private lemma key_append {k n : Bytes} (h : k = 0x2C :: 0x22 :: (n ++ [0x22, 0x3A])) (t : Bytes) :
    k ++ t = 0x2C :: 0x22 :: (n ++ 0x22 :: 0x3A :: t) := by
  simp [h]

/-- The text before the first value: the opening brace, the key and the colon. -/
private lemma key_append_first (t : Bytes) : bytes "\x7b\"schema_version\":" ++ t =
    0x7B :: 0x22 :: (bytes "schema_version" ++ 0x22 :: 0x3A :: t) := by
  have h : bytes "\x7b\"schema_version\":" =
      0x7B :: 0x22 :: (bytes "schema_version" ++ [0x22, 0x3A]) := by decide
  simp [h]

/-- The text before the price ranges ends with the opening bracket. -/
private lemma key_append_ranges (t : Bytes) : bytes ",\"price_ranges\":[" ++ t =
    0x2C :: 0x22 :: (bytes "price_ranges" ++ 0x22 :: 0x3A :: 0x5B :: t) := by
  have h : bytes ",\"price_ranges\":[" =
      0x2C :: 0x22 :: (bytes "price_ranges" ++ [0x22, 0x3A, 0x5B]) := by decide
  simp [h]

/-- **The message encoder** writes the prefix and the document of the message's fields. -/
lemma encodeWakeMessageInto_eq [CharConv F] (m : WakeMessage F) (out : Bytes) :
    encodeWakeMessageInto m out =
      writeLengthPrefix (List.replicate kFrameLengthBytes 0 ++ m.body) := by
  have hbool : (if m.dryRun then bytes "true" else bytes "false") = flagText m.dryRun := rfl
  simp only [encodeWakeMessageInto, append, appendInt, appendDouble, appendString_eq,
    appendPriceRanges_eq, hbool, WakeMessage.body, documentText, WakeField.all, List.map_cons,
    List.map_nil, objectText, WakeMessage.get, Value.written, WakeField.name, if_true,
    Bool.false_eq_true, if_false, List.append_assoc, List.nil_append, List.cons_append,
    key_append_first, key_append_ranges,
    key_append (k := bytes ",\"correlation_id\":") (n := bytes "correlation_id") (by decide),
    key_append (k := bytes ",\"market_ticker\":") (n := bytes "market_ticker") (by decide),
    key_append (k := bytes ",\"asset\":") (n := bytes "asset") (by decide),
    key_append (k := bytes ",\"direction\":") (n := bytes "direction") (by decide),
    key_append (k := bytes ",\"kalshi_price\":") (n := bytes "kalshi_price") (by decide),
    key_append (k := bytes ",\"model_probability\":") (n := bytes "model_probability") (by decide),
    key_append (k := bytes ",\"fee\":") (n := bytes "fee") (by decide),
    key_append (k := bytes ",\"edge\":") (n := bytes "edge") (by decide),
    key_append (k := bytes ",\"decision_ts_ms\":") (n := bytes "decision_ts_ms") (by decide),
    key_append (k := bytes ",\"sent_at_ms\":") (n := bytes "sent_at_ms") (by decide),
    key_append (k := bytes ",\"sent_at_ns\":") (n := bytes "sent_at_ns") (by decide),
    key_append (k := bytes ",\"recv_ns\":") (n := bytes "recv_ns") (by decide),
    key_append (k := bytes ",\"clock_domain\":") (n := bytes "clock_domain") (by decide),
    key_append (k := bytes ",\"dry_run\":") (n := bytes "dry_run") (by decide),
    key_append (k := bytes ",\"wire_price_yes_dollars\":")
      (n := bytes "wire_price_yes_dollars") (by decide),
    key_append (k := bytes ",\"exchange_index\":") (n := bytes "exchange_index") (by decide),
    key_append (k := bytes ",\"available_size_contracts\":")
      (n := bytes "available_size_contracts") (by decide),
    key_append (k := bytes ",\"correlation_group\":") (n := bytes "correlation_group") (by decide)
    ]

/-- **The ack encoder** writes the prefix and the document of the ack's fields. -/
lemma encodeWakeAckInto_eq (F : Type) [CharConv F] (ack : WakeAck) (out : Bytes) :
    encodeWakeAckInto ack out =
      writeLengthPrefix (List.replicate kFrameLengthBytes 0 ++ ack.body F) := by
  cases hr : ack.reason <;>
    simp only [encodeWakeAckInto, append, appendInt, appendString_eq, WakeAck.body, documentText,
      AckField.all, List.map_cons, List.map_nil, objectText, WakeAck.get, Value.written,
      AckField.name, if_true, Bool.false_eq_true, if_false, List.append_assoc, List.nil_append,
      List.cons_append, hr, key_append_first,
      key_append (k := bytes ",\"correlation_id\":") (n := bytes "correlation_id") (by decide),
      key_append (k := bytes ",\"received_at_ms\":") (n := bytes "received_at_ms") (by decide),
      key_append (k := bytes ",\"status\":") (n := bytes "status") (by decide),
      key_append (k := bytes ",\"reason\":") (n := bytes "reason") (by decide)
      ]

/-! ## The round trips -/

/-- The strings of a message are valid UTF-8 and its doubles are finite. -/
structure WakeMessage.Encodable [CharConv F] (m : WakeMessage F) : Prop where
  correlationId : Utf8.Valid m.correlationId
  marketTicker : Utf8.Valid m.marketTicker
  asset : Utf8.Valid m.asset
  clockDomain : Utf8.Valid m.clockDomain
  correlationGroup : Utf8.Valid m.correlationGroup
  kalshiPrice : CharConv.isFinite m.kalshiPrice = true
  modelProbability : CharConv.isFinite m.modelProbability = true
  fee : CharConv.isFinite m.fee = true
  edge : CharConv.isFinite m.edge = true
  wirePriceYesDollars : CharConv.isFinite m.wirePriceYesDollars = true
  availableSizeContracts : CharConv.isFinite m.availableSizeContracts = true
  priceRanges : ∀ range ∈ m.priceRanges, CharConv.isFinite range.start = true ∧
    CharConv.isFinite range.end_ = true ∧ CharConv.isFinite range.step = true

/-- The strings of an ack are valid UTF-8. -/
structure WakeAck.Encodable (ack : WakeAck) : Prop where
  correlationId : Utf8.Valid ack.correlationId
  reason : ∀ reason, ack.reason = some reason → Utf8.Valid reason

/-- Every field of an encodable message is. -/
lemma WakeMessage.Encodable.get [CharConv F] {m : WakeMessage F} (h : m.Encodable)
    (f : WakeField) : (m.get f).Encodable := by
  cases f with
  | correlationId => exact h.correlationId
  | marketTicker => exact h.marketTicker
  | asset => exact h.asset
  | clockDomain => exact h.clockDomain
  | correlationGroup => exact h.correlationGroup
  | kalshiPrice => exact h.kalshiPrice
  | modelProbability => exact h.modelProbability
  | fee => exact h.fee
  | edge => exact h.edge
  | wirePriceYesDollars => exact h.wirePriceYesDollars
  | availableSizeContracts => exact h.availableSizeContracts
  | priceRanges => exact h.priceRanges
  | _ => trivial

/-- Every field of an encodable ack is. -/
private lemma WakeAck.Encodable.get [CharConv F] {ack : WakeAck} (h : ack.Encodable)
    (f : AckField) : (ack.get (F := F) f).Encodable := by
  cases f with
  | correlationId => exact h.correlationId
  | reason =>
    cases hr : ack.reason with
    | none => simp [WakeAck.get, hr, Value.Encodable]
    | some reason =>
      rw [WakeAck.get, hr]
      exact h.reason reason hr
  | _ => trivial

/-- The value of an ack's field is of the field's kind. -/
private lemma WakeAck.kind_get (ack : WakeAck) (f : AckField) :
    (ack.get (F := F) f).kind = f.kind := by
  cases f <;> rfl

/-- The last value among the fields of a record is the record's. -/
lemma lastValue_map {ι V : Type} [DecidableEq ι] (v : ι → V) (f : ι) (fs : List ι)
    (hf : f ∈ fs) : lastValue f (fs.map fun g => (g, v g)) = some (v f) := by
  induction fs using List.reverseRecOn with
  | nil => simp at hf
  | append_singleton fs g ih =>
    rw [List.map_append, List.map_singleton, lastValue_snoc]
    split_ifs with h
    · rw [h]
    · refine ih ?_
      rcases List.mem_append.mp hf with hf | hf
      · exact hf
      · exact absurd (List.mem_singleton.mp hf).symm h

/-- The body of a message decodes to it. -/
lemma decodeWakeMessage_body [OfScientific F] [CharConv F] {m : WakeMessage F}
    (h : m.Encodable) : decodeWakeMessage m.body = .ok m := by
  have hall : ∀ f, f ∈ WakeField.all := by
    intro f
    cases f <;> decide
  have hname : ∀ f : WakeField, PlainName f.name := by
    intro f
    cases f <;> decide
  have hdoc : WakeDocument m.body (WakeField.all.map fun f => (f, m.get f)) := by
    have hbody : m.body = documentText ((WakeField.all.map fun f => (f, m.get f)).map
        fun p => ((wakeSchema F).name p.1, p.2.written)) := by
      rw [List.map_map]
      rfl
    rw [hbody]
    refine document_documentText (S := wakeSchema F) hname ?_
    intro p hp
    obtain ⟨f, -, rfl⟩ := List.mem_map.mp hp
    have htoken := Value.token_written (h.get f)
    rw [WakeMessage.kind_get m f] at htoken
    exact htoken
  refine decodeWakeMessage_eq_build.mpr ⟨_, hdoc, ?_, WakeMessage.ext_get fun f => ?_⟩
  · intro f _
    exact ⟨m.get f, List.mem_map.mpr ⟨f, hall f, rfl⟩⟩
  · rw [get_wake_build hdoc, lastValue_map _ f _ (hall f), Option.getD_some]

/-- The body of an ack decodes to it. -/
lemma decodeWakeAck_body (F : Type) [CharConv F] {ack : WakeAck} (h : ack.Encodable) :
    decodeWakeAck (ack.body F) = .ok ack := by
  have hall : ∀ f, f ∈ AckField.all := by
    intro f
    cases f <;> decide
  have hname : ∀ f : AckField, PlainName f.name := by
    intro f
    cases f <;> decide
  rw [decodeWakeAck_eq_ok F]
  refine ⟨AckField.all.map fun f => (f, ack.get f), ?_, ?_, ?_⟩
  · have hbody : ack.body F = documentText ((AckField.all.map fun f => (f, ack.get (F := F) f)).map
        fun p => ((ackSchema F).name p.1, p.2.written)) := by
      rw [List.map_map]
      rfl
    rw [hbody]
    refine document_documentText (S := ackSchema F) hname ?_
    intro p hp
    obtain ⟨f, -, rfl⟩ := List.mem_map.mp hp
    have htoken := Value.token_written (h.get (F := F) f)
    rw [WakeAck.kind_get ack f] at htoken
    exact htoken
  · intro f _
    exact ⟨ack.get f, List.mem_map.mpr ⟨f, hall f, rfl⟩⟩
  · intro f
    rw [lastValue_map _ f _ (hall f), Option.getD_some]

/-! ## A first message -/

/-- A message for a dry run that has only an id. -/
def wake (id : Bytes) : WakeMessage SignedZero :=
  { WakeMessage.default with correlationId := id, dryRun := true }

/-- The message with an id is encodable if the id is. -/
lemma encodable_wake {id : Bytes} (hid : Utf8.Valid id) : (wake id).Encodable :=
  ⟨hid, Utf8.valid_nil, Utf8.valid_nil, Utf8.valid_nil, Utf8.valid_nil, rfl, rfl, rfl, rfl, rfl,
    rfl, fun _ _ => ⟨rfl, rfl, rfl⟩⟩

/-- The message with the id 1. -/
def firstWake : WakeMessage SignedZero := wake (bytes "1")

/-- The first message decodes to itself. -/
lemma decode_firstWake : decodeWakeMessage firstWake.body = .ok firstWake :=
  decodeWakeMessage_body (encodable_wake (Utf8.valid_of_ascii (by decide)))

/-! ## Round trips -/

/-- The first four bytes of a frame announce the length of the rest: they are read back as
exactly that length if it is at most the cap, and refused if it is more and below `2^32`. -/
def PrefixReads (frame : Bytes) : Prop :=
  ((frame.drop kFrameLengthBytes).length ≤ kMaxFrameBytes →
    ∃ length, decodeFrameLength (frame.take kFrameLengthBytes) = .ok length ∧
      length.toNat = (frame.drop kFrameLengthBytes).length) ∧
  (kMaxFrameBytes < (frame.drop kFrameLengthBytes).length →
    (frame.drop kFrameLengthBytes).length < 2 ^ 32 →
    ∃ e, decodeFrameLength (frame.take kFrameLengthBytes) = .error e)

/-- The prefix the encoders write announces the length of the body. -/
lemma prefixReads_writeLengthPrefix (body : Bytes) :
    PrefixReads (writeLengthPrefix (List.replicate kFrameLengthBytes 0 ++ body)) := by
  unfold PrefixReads
  rw [drop_writeLengthPrefix]
  constructor
  · intro hle
    have hlt : body.length < 2 ^ 32 := lt_of_le_of_lt hle (by decide)
    refine ⟨UInt32.ofNat body.length, ?_, ?_⟩
    · rw [decodeFrameLength_writeLengthPrefix body hlt, if_neg (by omega)]
    · rw [UInt32.toNat_ofNat']
      exact Nat.mod_eq_of_lt hlt
  · intro hgt hlt
    exact ⟨_, by rw [decodeFrameLength_writeLengthPrefix body hlt, if_pos hgt]⟩

/-- **Decoding undoes encoding**, over the whole format and whatever the output buffer held
before, and the length prefix announces the body.

**Proof sketch.** What an encoder writes is the prefix and a document whose members are the
fields of the record; the decoder's language contains that document, and its meaning, field by
field, is the record. -/
theorem round_trip [OfScientific F] [CharConv F] :
    (∀ (m : WakeMessage F) (out : Bytes), m.Encodable →
      decodeWakeMessage ((encodeWakeMessageInto m out).drop kFrameLengthBytes) = .ok m ∧
        PrefixReads (encodeWakeMessageInto m out)) ∧
    (∀ (ack : WakeAck) (out : Bytes), ack.Encodable →
      decodeWakeAck ((encodeWakeAckInto ack out).drop kFrameLengthBytes) = .ok ack ∧
        PrefixReads (encodeWakeAckInto ack out)) := by
  constructor
  · intro m out h
    rw [encodeWakeMessageInto_eq, drop_writeLengthPrefix]
    exact ⟨decodeWakeMessage_body h, prefixReads_writeLengthPrefix _⟩
  · intro ack out h
    rw [encodeWakeAckInto_eq F, drop_writeLengthPrefix]
    exact ⟨decodeWakeAck_body F h, prefixReads_writeLengthPrefix _⟩

/-- The round trip of a message with both zeros, all of whose strings are ASCII, and of an ack
without a reason. -/
theorem round_trip_zeros :
    ∃ (m : WakeMessage SignedZero) (ack : WakeAck),
      m.kalshiPrice = .minus ∧ m.fee = .plus ∧ m.priceRanges.length = 2 ∧
      m.decisionTsMs = Int64.minValue ∧ m.sentAtNs = Int64.maxValue ∧
      decodeWakeMessage ((encodeWakeMessageInto m []).drop kFrameLengthBytes) = .ok m ∧
      decodeWakeAck ((encodeWakeAckInto ack []).drop kFrameLengthBytes) = .ok ack := by
  obtain ⟨m, hm⟩ : ∃ m : WakeMessage SignedZero, m =
      { WakeMessage.default with
        correlationId := bytes "c\n1", kalshiPrice := .minus, decisionTsMs := Int64.minValue,
        sentAtNs := Int64.maxValue,
        priceRanges := [⟨.plus, .minus, .plus⟩, ⟨.minus, .plus, .minus⟩] } := ⟨_, rfl⟩
  obtain ⟨ack, hack⟩ : ∃ ack : WakeAck, ack =
      { WakeAck.default with correlationId := bytes "c\n1" } := ⟨_, rfl⟩
  have hid : Utf8.Valid (bytes "c\n1") := Utf8.valid_of_ascii (by decide)
  have hm' : m.Encodable := by
    subst hm
    exact ⟨hid, Utf8.valid_nil, Utf8.valid_nil, Utf8.valid_nil, Utf8.valid_nil, rfl, rfl, rfl, rfl,
      rfl, rfl, fun _ _ => ⟨rfl, rfl, rfl⟩⟩
  have hack' : ack.Encodable := by
    subst hack
    exact ⟨hid, by rintro _ ⟨⟩⟩
  exact ⟨m, ack, by subst hm; rfl, by subst hm; rfl, by subst hm; rfl, by subst hm; rfl,
    by subst hm; rfl, (round_trip.1 m [] hm').1, ((round_trip (F := SignedZero)).2 ack [] hack').1⟩

end Hotpath
