import Hotpath.Protocol.Schema

set_option relaxedAutoImplicit false
set_option autoImplicit false

/-!
# The two records of the wire

The fields of a wake message and of an ack as schemas, and with them the languages of the two
decoders.

## Main definitions

* `Kind`, `Value` — the kinds of field values and the values of each kind.
* `WakeField`, `WakeMessage.get`, `wakeSchema` — the fields of a wake message.
* `AckField`, `WakeAck.get`, `ackSchema` — the fields of an ack.

## Main results

* `decodeWakeMessage_eq_ok`, `decodeWakeAck_eq_ok` — the language of each decoder and the
  meaning of a document.
-/

namespace Hotpath

open Json Json.Reader JsonText
open Utf8 (bytes encode)

variable {F : Type}

/-! ## Kinds and values -/

/-- The kinds of values a member can have. -/
inductive Kind where
  | int
  | text
  | number
  | flag
  | direction
  | ranges
  | status
  | reason
  deriving DecidableEq, Repr

/-- A value of some kind. -/
inductive Value (F : Type) where
  | int (v : Int64)
  | text (v : Bytes)
  | number (v : F)
  | flag (v : Bool)
  | direction (v : Direction)
  | ranges (v : List (PriceRange F))
  | status (v : WakeAckStatus)
  | reason (v : Option Bytes)

/-- The kind of a value. -/
def Value.kind : Value F → Kind
  | .int _ => .int
  | .text _ => .text
  | .number _ => .number
  | .flag _ => .flag
  | .direction _ => .direction
  | .ranges _ => .ranges
  | .status _ => .status
  | .reason _ => .reason

namespace Kind

/-- The language of a kind. -/
def Token [CharConv F] : Kind → Bytes → Value F → Prop
  | int, tok, v => ∃ a, IntToken tok a ∧ v = .int a
  | text, tok, v => ∃ a, TextToken tok a ∧ v = .text a
  | number, tok, v => ∃ a, NumberToken tok a ∧ v = .number a
  | flag, tok, v => ∃ a, FlagToken tok a ∧ v = .flag a
  | direction, tok, v => ∃ a, DirectionToken tok a ∧ v = .direction a
  | ranges, tok, v => ∃ a, RangesToken tok a ∧ v = .ranges a
  | status, tok, v => ∃ a, StatusToken tok a ∧ v = .status a
  | reason, tok, v => ∃ a, ReasonToken tok a ∧ v = .reason a

/-- The texts a kind's reader refuses with a quotation. -/
def Quoted (F : Type) [CharConv F] : Kind → Bytes → DecodeError → Prop
  | int => IntQuoted
  | number => NumberQuoted F
  | direction => DirectionQuoted
  | ranges => RangesQuoted F
  | status => StatusQuoted
  | _ => NotQuoted

/-- The reader of a kind. -/
def read [CharConv F] : Kind → Reader → Parse (Value F × Reader)
  | int, r => r.readInt >>= fun p => .ok (.int p.1, p.2)
  | text, r => r.readString >>= fun p => .ok (.text p.1, p.2)
  | number, r => r.readDouble >>= fun p => .ok (.number p.1, p.2)
  | flag, r => r.readBool >>= fun p => .ok (.flag p.1, p.2)
  | direction, r => readDirection r >>= fun p => .ok (.direction p.1, p.2)
  | ranges, r => readPriceRanges r >>= fun p => .ok (.ranges p.1, p.2)
  | status, r => readStatus r >>= fun p => .ok (.status p.1, p.2)
  | reason, r => readReason r >>= fun p => .ok (.reason p.1, p.2)

/-- The reader of each kind reads its language. -/
lemma reads [CharConv F] (k : Kind) : Reads 2 (k.read (F := F)) k.Token (k.Quoted F) := by
  cases k with
  | int => exact (reads_int.mono (by decide)).map _ fun _ _ => Iff.rfl
  | text => exact (reads_text.mono (by decide)).map _ fun _ _ => Iff.rfl
  | number => exact (reads_number.mono (by decide)).map _ fun _ _ => Iff.rfl
  | flag => exact (reads_flag.mono (by decide)).map _ fun _ _ => Iff.rfl
  | direction => exact (reads_direction.mono (by decide)).map _ fun _ _ => Iff.rfl
  | ranges => exact reads_ranges.map _ fun _ _ => Iff.rfl
  | status => exact (reads_status.mono (by decide)).map _ fun _ _ => Iff.rfl
  | reason => exact (reads_reason.mono (by decide)).map _ fun _ _ => Iff.rfl

/-- A token of a kind denotes a value of that kind. -/
lemma kind_of_token [CharConv F] {k : Kind} {tok : Bytes} {v : Value F} (h : k.Token tok v) :
    v.kind = k := by
  cases k <;> obtain ⟨a, -, rfl⟩ := h <;> rfl

/-- A string token is at least its quotes. -/
private lemma length_stringToken {tok : Bytes} {cs : List Char} (h : StringToken tok cs) :
    0 < tok.length := by
  obtain ⟨s, -, rfl⟩ := h
  simp

/-- A number token is at least one byte. -/
private lemma length_render (n : Number) : 0 < n.render.length := by
  obtain ⟨b, t, h, -⟩ := n.head_render
  simp [h]

/-- No token is empty. -/
lemma token_pos [CharConv F] {k : Kind} {tok : Bytes} {v : Value F} (h : k.Token tok v) :
    0 < tok.length := by
  cases k with
  | int => obtain ⟨a, ⟨n, -, -, -, rfl, -⟩, -⟩ := h; exact length_render n
  | text => obtain ⟨a, ⟨cs, hs, -⟩, -⟩ := h; exact length_stringToken hs
  | number => obtain ⟨a, ⟨n, rfl, -⟩, -⟩ := h; exact length_render n
  | flag => obtain ⟨a, rfl, -⟩ := h; cases a <;> decide
  | direction => obtain ⟨a, ⟨cs, hs, -⟩, -⟩ := h; exact length_stringToken hs
  | ranges => obtain ⟨a, ⟨c, w, -, -, rfl⟩, -⟩ := h; simp
  | status => obtain ⟨a, ⟨cs, hs, -⟩, -⟩ := h; exact length_stringToken hs
  | reason =>
    obtain ⟨a, ⟨rfl, -⟩ | ⟨cs, hs, -⟩, -⟩ := h
    · decide
    · exact length_stringToken hs

end Kind

/-! ## The wake message -/

/-- The fields of a wake message, in wire order. -/
inductive WakeField where
  | schemaVersion
  | correlationId
  | marketTicker
  | asset
  | direction
  | kalshiPrice
  | modelProbability
  | fee
  | edge
  | decisionTsMs
  | sentAtMs
  | sentAtNs
  | recvNs
  | clockDomain
  | dryRun
  | wirePriceYesDollars
  | exchangeIndex
  | availableSizeContracts
  | priceRanges
  | correlationGroup
  deriving DecidableEq, Repr

namespace WakeField

/-- The key of a field. -/
def name : WakeField → Bytes
  | schemaVersion => bytes "schema_version"
  | correlationId => bytes "correlation_id"
  | marketTicker => bytes "market_ticker"
  | asset => bytes "asset"
  | direction => bytes "direction"
  | kalshiPrice => bytes "kalshi_price"
  | modelProbability => bytes "model_probability"
  | fee => bytes "fee"
  | edge => bytes "edge"
  | decisionTsMs => bytes "decision_ts_ms"
  | sentAtMs => bytes "sent_at_ms"
  | sentAtNs => bytes "sent_at_ns"
  | recvNs => bytes "recv_ns"
  | clockDomain => bytes "clock_domain"
  | dryRun => bytes "dry_run"
  | wirePriceYesDollars => bytes "wire_price_yes_dollars"
  | exchangeIndex => bytes "exchange_index"
  | availableSizeContracts => bytes "available_size_contracts"
  | priceRanges => bytes "price_ranges"
  | correlationGroup => bytes "correlation_group"

/-- The kind of a field's values. -/
def kind : WakeField → Kind
  | schemaVersion | decisionTsMs | sentAtMs | sentAtNs | recvNs | exchangeIndex => .int
  | correlationId | marketTicker | asset | clockDomain | correlationGroup => .text
  | kalshiPrice | modelProbability | fee | edge | wirePriceYesDollars
  | availableSizeContracts => .number
  | dryRun => .flag
  | direction => .direction
  | priceRanges => .ranges

/-- The fields a message must have. -/
def required : List WakeField :=
  [schemaVersion, correlationId, marketTicker, asset, direction, kalshiPrice, modelProbability,
    fee, edge, decisionTsMs, sentAtMs, sentAtNs]

/-- The position of a required field's bit. -/
def index : WakeField → Option ℕ
  | schemaVersion => some 0
  | correlationId => some 1
  | marketTicker => some 2
  | asset => some 3
  | direction => some 4
  | kalshiPrice => some 5
  | modelProbability => some 6
  | fee => some 7
  | edge => some 8
  | decisionTsMs => some 9
  | sentAtMs => some 10
  | sentAtNs => some 11
  | _ => none

/-- The required fields are those with a bit. -/
lemma mem_required (f : WakeField) : f ∈ required ↔ f.index ≠ none := by
  cases f <;> decide

/-- The message with one field set. -/
def put : WakeField → Value F → WakeMessage F → WakeMessage F
  | schemaVersion, .int v, m => { m with schemaVersion := v }
  | correlationId, .text v, m => { m with correlationId := v }
  | marketTicker, .text v, m => { m with marketTicker := v }
  | asset, .text v, m => { m with asset := v }
  | direction, .direction v, m => { m with direction := v }
  | kalshiPrice, .number v, m => { m with kalshiPrice := v }
  | modelProbability, .number v, m => { m with modelProbability := v }
  | fee, .number v, m => { m with fee := v }
  | edge, .number v, m => { m with edge := v }
  | decisionTsMs, .int v, m => { m with decisionTsMs := v }
  | sentAtMs, .int v, m => { m with sentAtMs := v }
  | sentAtNs, .int v, m => { m with sentAtNs := v }
  | recvNs, .int v, m => { m with recvNs := v }
  | clockDomain, .text v, m => { m with clockDomain := v }
  | dryRun, .flag v, m => { m with dryRun := v }
  | wirePriceYesDollars, .number v, m => { m with wirePriceYesDollars := v }
  | exchangeIndex, .int v, m => { m with exchangeIndex := v }
  | availableSizeContracts, .number v, m => { m with availableSizeContracts := v }
  | priceRanges, .ranges v, m => { m with priceRanges := v }
  | correlationGroup, .text v, m => { m with correlationGroup := v }
  | _, _, m => m

end WakeField

/-- The value of a field in a message. -/
def WakeMessage.get (m : WakeMessage F) : WakeField → Value F
  | .schemaVersion => .int m.schemaVersion
  | .correlationId => .text m.correlationId
  | .marketTicker => .text m.marketTicker
  | .asset => .text m.asset
  | .direction => .direction m.direction
  | .kalshiPrice => .number m.kalshiPrice
  | .modelProbability => .number m.modelProbability
  | .fee => .number m.fee
  | .edge => .number m.edge
  | .decisionTsMs => .int m.decisionTsMs
  | .sentAtMs => .int m.sentAtMs
  | .sentAtNs => .int m.sentAtNs
  | .recvNs => .int m.recvNs
  | .clockDomain => .text m.clockDomain
  | .dryRun => .flag m.dryRun
  | .wirePriceYesDollars => .number m.wirePriceYesDollars
  | .exchangeIndex => .int m.exchangeIndex
  | .availableSizeContracts => .number m.availableSizeContracts
  | .priceRanges => .ranges m.priceRanges
  | .correlationGroup => .text m.correlationGroup

/-- A message is its fields. -/
lemma WakeMessage.ext_get {m m' : WakeMessage F} (h : ∀ f, m.get f = m'.get f) : m = m' := by
  cases m
  cases m'
  simp only [WakeMessage.mk.injEq]
  refine ⟨?_, ?_, ?_, ?_, ?_, ?_, ?_, ?_, ?_, ?_, ?_, ?_, ?_, ?_, ?_, ?_, ?_, ?_, ?_, ?_⟩
  · exact Value.int.inj (h .schemaVersion)
  · exact Value.text.inj (h .correlationId)
  · exact Value.text.inj (h .marketTicker)
  · exact Value.text.inj (h .asset)
  · exact Value.direction.inj (h .direction)
  · exact Value.number.inj (h .kalshiPrice)
  · exact Value.number.inj (h .modelProbability)
  · exact Value.number.inj (h .fee)
  · exact Value.number.inj (h .edge)
  · exact Value.int.inj (h .decisionTsMs)
  · exact Value.int.inj (h .sentAtMs)
  · exact Value.int.inj (h .sentAtNs)
  · exact Value.int.inj (h .recvNs)
  · exact Value.text.inj (h .clockDomain)
  · exact Value.flag.inj (h .dryRun)
  · exact Value.number.inj (h .wirePriceYesDollars)
  · exact Value.int.inj (h .exchangeIndex)
  · exact Value.number.inj (h .availableSizeContracts)
  · exact Value.ranges.inj (h .priceRanges)
  · exact Value.text.inj (h .correlationGroup)

/-- Setting a field, seen field by field. -/
lemma WakeField.get_put {f : WakeField} {v : Value F} (hv : v.kind = f.kind) (m : WakeMessage F)
    (g : WakeField) : (f.put v m).get g = if f = g then v else m.get g := by
  cases f <;> cases v <;> first | (cases g <;> rfl) | nomatch hv

/-- The value of a field is of the field's kind. -/
lemma WakeMessage.kind_get (m : WakeMessage F) (f : WakeField) : (m.get f).kind = f.kind := by
  cases f <;> rfl

/-- Distinct fields have distinct names. -/
lemma WakeField.name_inj (f g : WakeField) (h : f.name = g.name) : f = g := by
  cases f <;> cases g <;> first | rfl | exact absurd h (by decide)

/-- The field reader reads a field's kind, sets the field and, if it is required, its bit. -/
private lemma readWakeField_name [CharConv F] (f : WakeField) (r : Reader) (m : WakeMessage F)
    (seen : UInt32) : readWakeField r f.name m seen = f.kind.read r >>= fun p =>
      .ok (p.2, f.put p.1 m, seen ||| UInt32.ofNat (f.index.elim 0 (2 ^ ·))) := by
  have hbit : readWakeField r f.name m seen = f.kind.read r >>= fun p =>
      .ok (p.2, f.put p.1 m, f.index.elim seen fun k => seen ||| UInt32.ofNat (2 ^ k)) := by
    cases f <;> (simp only [WakeField.kind, Kind.read, bind_assoc, ok_bind]; rfl)
  rw [hbit]
  cases f.index with
  | none => simp
  | some k => rfl

/-- The field reader refuses every other key. -/
private lemma readWakeField_other [CharConv F] (key : Bytes) (h : ∀ f, key ≠ WakeField.name f)
    (r : Reader) (m : WakeMessage F) (seen : UInt32) : readWakeField r key m seen =
      .error (.error ⟨.unknownField, bytes "unexpected field: " ++ key⟩) := by
  unfold readWakeField
  refine (if_neg (h .schemaVersion)).trans ?_
  refine (if_neg (h .correlationId)).trans ?_
  refine (if_neg (h .marketTicker)).trans ?_
  refine (if_neg (h .asset)).trans ?_
  refine (if_neg (h .direction)).trans ?_
  refine (if_neg (h .kalshiPrice)).trans ?_
  refine (if_neg (h .modelProbability)).trans ?_
  refine (if_neg (h .fee)).trans ?_
  refine (if_neg (h .edge)).trans ?_
  refine (if_neg (h .decisionTsMs)).trans ?_
  refine (if_neg (h .sentAtMs)).trans ?_
  refine (if_neg (h .sentAtNs)).trans ?_
  refine (if_neg (h .recvNs)).trans ?_
  refine (if_neg (h .clockDomain)).trans ?_
  refine (if_neg (h .dryRun)).trans ?_
  refine (if_neg (h .wirePriceYesDollars)).trans ?_
  refine (if_neg (h .exchangeIndex)).trans ?_
  refine (if_neg (h .availableSizeContracts)).trans ?_
  refine (if_neg (h .priceRanges)).trans ?_
  exact if_neg (h .correlationGroup)

/-- The fields with a bit, by position. -/
private lemma wake_mask_testBit (k : ℕ) :
    kWakeMessageRequiredMask.toNat.testBit k = true ↔ ∃ f, WakeField.index f = some k := by
  have hmask : kWakeMessageRequiredMask.toNat = 2 ^ 12 - 1 := by decide
  rw [hmask, Nat.testBit_two_pow_sub_one, decide_eq_true_eq]
  constructor
  · intro h
    have hall : ∀ k < 12, ∃ f ∈ WakeField.required, f.index = some k := by decide
    obtain ⟨f, -, hf⟩ := hall k h
    exact ⟨f, hf⟩
  · rintro ⟨f, hf⟩
    cases f <;> simp only [WakeField.index, Option.some.injEq, reduceCtorEq] at hf <;> omega

/-- The schema of a wake message. -/
def wakeSchema (F : Type) [OfScientific F] [CharConv F] : Schema (WakeMessage F) where
  Field := WakeField
  Value := Value F
  name := WakeField.name
  Token f := f.kind.Token
  Quoted f := f.kind.Quoted F
  read f := f.kind.read
  put := WakeField.put
  index := WakeField.index
  readField := readWakeField
  initial := WakeMessage.default
  mask := kWakeMessageRequiredMask
  required := kWakeMessageRequired
  reads f := f.kind.reads
  token_pos _ _ _ h := Kind.token_pos h
  name_inj := WakeField.name_inj
  readField_name := readWakeField_name
  readField_other := readWakeField_other
  index_lt f k h := by
    cases f <;> simp only [WakeField.index, Option.some.injEq, reduceCtorEq] at h <;> omega
  index_inj f g k hf hg := by
    have hall : ∀ f ∈ WakeField.required, ∀ g ∈ WakeField.required, f.index = g.index → f = g := by
      decide
    exact hall f ((WakeField.mem_required f).mpr (by simp [hf])) g
      ((WakeField.mem_required g).mpr (by simp [hg])) (hf.trans hg.symm)
  mask_testBit := wake_mask_testBit
  required_legible := by decide

/-- The fields of a wake message are told apart. -/
instance [OfScientific F] [CharConv F] : DecidableEq (wakeSchema F).Field :=
  inferInstanceAs (DecidableEq WakeField)

/-- The language of the wake messages: the documents over their fields. -/
def WakeDocument [OfScientific F] [CharConv F] (body : Bytes) (ms : List (WakeField × Value F)) :
    Prop :=
  (wakeSchema F).Document body ms

/-- `toDecoded` keeps values. -/
lemma toDecoded_eq_ok {T : Type} {p : Parse T} {v : T} :
    toDecoded p = .ok v ↔ p = .ok v := by
  rcases p with (_ | _) | _ <;> simp [toDecoded]

/-- A field of the record that the members of a document make up is the last value of its key, or
its default. -/
lemma get_wake_build [OfScientific F] [CharConv F] {body : Bytes} {ms : List (WakeField × Value F)}
    (h : WakeDocument body ms) (f : WakeField) :
    ((wakeSchema F).build ms).get f = (lastValue f ms).getD (WakeMessage.default.get f) :=
  (wakeSchema F).get_build WakeMessage.get
    (fun _ _ _ m g hv => WakeField.get_put (Kind.kind_of_token hv) m g) h f

/-- The wake decoder returns the record that the members of a complete document make up. -/
lemma decodeWakeMessage_eq_build [OfScientific F] [CharConv F] {body : Bytes} {m : WakeMessage F} :
    decodeWakeMessage body = .ok m ↔ ∃ ms, WakeDocument body ms ∧
      (∀ f ∈ WakeField.required, ∃ v, (f, v) ∈ ms) ∧ (wakeSchema F).build ms = m := by
  have hcomplete : ∀ ms : List (WakeField × Value F), (wakeSchema F).Complete ms ↔
      ∀ f ∈ WakeField.required, ∃ v, (f, v) ∈ ms :=
    fun ms => ⟨fun h f hf => h f ((WakeField.mem_required f).mp hf),
      fun h f hf => h f ((WakeField.mem_required f).mpr hf)⟩
  rw [decodeWakeMessage, toDecoded_eq_ok]
  refine (wakeSchema F).decode_eq_ok.trans ⟨?_, ?_⟩
  · rintro ⟨ms, hd, hc, hm⟩
    exact ⟨ms, hd, (hcomplete ms).mp hc, hm.symm⟩
  · rintro ⟨ms, hd, hc, hm⟩
    exact ⟨ms, hd, (hcomplete ms).mpr hc, hm.symm⟩

/-- Each field of an accepted message is the last value of its key in any reading of the body as a
document, or its default. -/
lemma get_of_decodeWakeMessage [OfScientific F] [CharConv F] {body : Bytes} {m : WakeMessage F}
    {ms : List (WakeField × Value F)} (hok : decodeWakeMessage body = .ok m)
    (h : WakeDocument body ms) (f : WakeField) :
    m.get f = (lastValue f ms).getD (WakeMessage.default.get f) := by
  rw [decodeWakeMessage, toDecoded_eq_ok] at hok
  rw [(wakeSchema F).eq_build_of_decode h hok]
  exact get_wake_build h f

/-- **The wake decoder accepts exactly its language and computes exactly its meaning.** A byte
string is accepted iff it is a document in which every required key occurs, and each field of
the message is then the value of the last member with its key, or its default.

**Proof sketch.** The schema's decoder accepts the complete documents with the record their
members make up; that record, field by field, is as stated, and a message is its fields. -/
theorem decodeWakeMessage_eq_ok [OfScientific F] [CharConv F] (body : Bytes) (m : WakeMessage F) :
    decodeWakeMessage body = .ok m ↔
      ∃ ms, WakeDocument body ms ∧ (∀ f ∈ WakeField.required, ∃ v, (f, v) ∈ ms) ∧
        ∀ f, m.get f = (lastValue f ms).getD (WakeMessage.default.get f) := by
  rw [decodeWakeMessage_eq_build]
  constructor
  · rintro ⟨ms, hd, hc, rfl⟩
    exact ⟨ms, hd, hc, get_wake_build hd⟩
  · rintro ⟨ms, hd, hc, hm⟩
    refine ⟨ms, hd, hc, WakeMessage.ext_get fun f => ?_⟩
    rw [hm f, get_wake_build hd]

/-- The error of a decoder that never stops with a fault is the one its reader holds. -/
private lemma toDecoded_eq_error {T : Type} {p : Parse T} {e : DecodeError}
    (hfault : p ≠ .error .fault) : toDecoded p = .error e ↔ p = .error (.error e) := by
  rcases p with (_ | _) | _
  · simp [toDecoded]
  · exact absurd rfl hfault
  · simp [toDecoded]

/-- The wake decoder's error is that of its schema. -/
lemma decodeWakeMessage_eq_error [OfScientific F] [CharConv F] {body : Bytes} {e : DecodeError} :
    decodeWakeMessage (F := F) body = .error e ↔ (wakeSchema F).decode body = .error (.error e) :=
  toDecoded_eq_error ((wakeSchema F).decode_ne_fault body)

/-- A body that is well formed up to an offending member is refused with its quotation. -/
theorem decodeWakeMessage_quoted [OfScientific F] [CharConv F] {body : Bytes} {e : DecodeError}
    (h : (wakeSchema F).DocumentQuoted body e) : decodeWakeMessage (F := F) body = .error e :=
  decodeWakeMessage_eq_error.mpr ((wakeSchema F).decode_quoted h)

/-- A refusal either quotes the offending member or uses the reader's own words. -/
theorem decodeWakeMessage_error [OfScientific F] [CharConv F] {body : Bytes} {e : DecodeError}
    (h : decodeWakeMessage (F := F) body = .error e) :
    Legible e.message ∨ (wakeSchema F).DocumentQuoted body e := by
  rcases (wakeSchema F).decode_error (decodeWakeMessage_eq_error.mp h) with
    ⟨e', he, hplain⟩ | ⟨e', hquoted, he⟩
  · cases he
    exact Or.inl hplain
  · cases he
    exact Or.inr hquoted

/-! ## The ack -/

/-- The fields of an ack, in wire order. -/
inductive AckField where
  | schemaVersion
  | correlationId
  | receivedAtMs
  | status
  | reason
  deriving DecidableEq, Repr

namespace AckField

/-- The key of a field. -/
def name : AckField → Bytes
  | schemaVersion => bytes "schema_version"
  | correlationId => bytes "correlation_id"
  | receivedAtMs => bytes "received_at_ms"
  | status => bytes "status"
  | reason => bytes "reason"

/-- The kind of a field's values. -/
def kind : AckField → Kind
  | schemaVersion | receivedAtMs => .int
  | correlationId => .text
  | status => .status
  | reason => .reason

/-- The fields an ack must have. -/
def required : List AckField := [schemaVersion, correlationId, receivedAtMs, status]

/-- The position of a required field's bit. -/
def index : AckField → Option ℕ
  | schemaVersion => some 0
  | correlationId => some 1
  | receivedAtMs => some 12
  | status => some 13
  | reason => none

/-- The required fields are those with a bit. -/
lemma mem_required (f : AckField) : f ∈ required ↔ f.index ≠ none := by
  cases f <;> decide

/-- The ack with one field set. -/
def put : AckField → Value F → WakeAck → WakeAck
  | schemaVersion, .int v, m => { m with schemaVersion := v }
  | correlationId, .text v, m => { m with correlationId := v }
  | receivedAtMs, .int v, m => { m with receivedAtMs := v }
  | status, .status v, m => { m with status := v }
  | reason, .reason v, m => { m with reason := v }
  | _, _, m => m

/-- Distinct fields have distinct names. -/
lemma name_inj (f g : AckField) (h : f.name = g.name) : f = g := by
  cases f <;> cases g <;> first | rfl | exact absurd h (by decide)

end AckField

/-- The value of a field in an ack. -/
def WakeAck.get (ack : WakeAck) : AckField → Value F
  | .schemaVersion => .int ack.schemaVersion
  | .correlationId => .text ack.correlationId
  | .receivedAtMs => .int ack.receivedAtMs
  | .status => .status ack.status
  | .reason => .reason ack.reason

/-- An ack is its fields. -/
lemma WakeAck.ext_get {ack ack' : WakeAck} (h : ∀ f, ack.get (F := F) f = ack'.get f) :
    ack = ack' := by
  cases ack
  cases ack'
  simp only [WakeAck.mk.injEq]
  refine ⟨?_, ?_, ?_, ?_, ?_⟩
  · exact Value.int.inj (h .schemaVersion)
  · exact Value.text.inj (h .correlationId)
  · exact Value.int.inj (h .receivedAtMs)
  · exact Value.status.inj (h .status)
  · exact Value.reason.inj (h .reason)

/-- Setting a field, seen field by field. -/
lemma AckField.get_put {f : AckField} {v : Value F} (hv : v.kind = f.kind) (ack : WakeAck)
    (g : AckField) : (f.put v ack).get g = if f = g then v else ack.get g := by
  cases f <;> cases v <;> first | (cases g <;> rfl) | nomatch hv

/-- The field reader reads a field's kind, sets the field and, if it is required, its bit. -/
private lemma readAckField_name [CharConv F] (f : AckField) (r : Reader) (ack : WakeAck)
    (seen : UInt32) : readAckField r f.name ack seen = f.kind.read (F := F) r >>= fun p =>
      .ok (p.2, f.put p.1 ack, seen ||| UInt32.ofNat (f.index.elim 0 (2 ^ ·))) := by
  have hbit : readAckField r f.name ack seen = f.kind.read (F := F) r >>= fun p =>
      .ok (p.2, f.put p.1 ack, f.index.elim seen fun k => seen ||| UInt32.ofNat (2 ^ k)) := by
    cases f <;> (simp only [AckField.kind, Kind.read, bind_assoc, ok_bind]; rfl)
  rw [hbit]
  cases f.index with
  | none => simp
  | some k => rfl

/-- The field reader refuses every other key. -/
private lemma readAckField_other (key : Bytes) (h : ∀ f, key ≠ AckField.name f)
    (r : Reader) (ack : WakeAck) (seen : UInt32) : readAckField r key ack seen =
      .error (.error ⟨.unknownField, bytes "unexpected field: " ++ key⟩) := by
  unfold readAckField
  refine (if_neg (h .schemaVersion)).trans ?_
  refine (if_neg (h .correlationId)).trans ?_
  refine (if_neg (h .receivedAtMs)).trans ?_
  refine (if_neg (h .status)).trans ?_
  exact if_neg (h .reason)

/-- The fields with a bit, by position. -/
private lemma ack_mask_testBit (k : ℕ) :
    kWakeAckRequiredMask.toNat.testBit k = true ↔ ∃ f, AckField.index f = some k := by
  rcases Nat.lt_or_ge k 14 with h | h
  · have hall : ∀ k < 14, kWakeAckRequiredMask.toNat.testBit k = true ↔
        ∃ f ∈ AckField.required, f.index = some k := by decide
    rw [hall k h]
    exact ⟨fun ⟨f, _, hf⟩ => ⟨f, hf⟩,
      fun ⟨f, hf⟩ => ⟨f, (AckField.mem_required f).mpr (by simp [hf]), hf⟩⟩
  · have hlt : kWakeAckRequiredMask.toNat < 2 ^ k :=
      lt_of_lt_of_le (by decide : kWakeAckRequiredMask.toNat < 2 ^ 14)
        (Nat.pow_le_pow_right (by decide) h)
    rw [Nat.testBit_lt_two_pow hlt]
    refine iff_of_false (by simp) ?_
    rintro ⟨f, hf⟩
    cases f <;> simp only [AckField.index, Option.some.injEq, reduceCtorEq] at hf <;> omega

/-- The schema of an ack. Its values are taken from the same type as those of a message. -/
def ackSchema (F : Type) [CharConv F] : Schema WakeAck where
  Field := AckField
  Value := Value F
  name := AckField.name
  Token f := f.kind.Token
  Quoted f := f.kind.Quoted F
  read f := f.kind.read
  put := AckField.put
  index := AckField.index
  readField := readAckField
  initial := WakeAck.default
  mask := kWakeAckRequiredMask
  required := kWakeAckRequired
  reads f := f.kind.reads
  token_pos _ _ _ h := Kind.token_pos h
  name_inj := AckField.name_inj
  readField_name := readAckField_name
  readField_other := readAckField_other
  index_lt f k h := by
    cases f <;> simp only [AckField.index, Option.some.injEq, reduceCtorEq] at h <;> omega
  index_inj f g k hf hg := by
    have hall : ∀ f ∈ AckField.required, ∀ g ∈ AckField.required, f.index = g.index → f = g := by
      decide
    exact hall f ((AckField.mem_required f).mpr (by simp [hf])) g
      ((AckField.mem_required g).mpr (by simp [hg])) (hf.trans hg.symm)
  mask_testBit := ack_mask_testBit
  required_legible := by decide

/-- The fields of an ack are told apart. -/
instance [CharConv F] : DecidableEq (ackSchema F).Field := inferInstanceAs (DecidableEq AckField)

/-- The language of the acks. -/
def AckDocument [CharConv F] (body : Bytes) (ms : List (AckField × Value F)) : Prop :=
  (ackSchema F).Document body ms

/-- **The ack decoder accepts exactly its language and computes exactly its meaning.** -/
theorem decodeWakeAck_eq_ok (F : Type) [CharConv F] (body : Bytes) (ack : WakeAck) :
    decodeWakeAck body = .ok ack ↔
      ∃ ms : List (AckField × Value F), AckDocument body ms ∧
        (∀ f ∈ AckField.required, ∃ v, (f, v) ∈ ms) ∧
        ∀ f, ack.get f = (lastValue f ms).getD (WakeAck.default.get f) := by
  have hbuild : ∀ ms : List (AckField × Value F), AckDocument body ms → ∀ f,
      ((ackSchema F).build ms).get f = (lastValue f ms).getD (WakeAck.default.get f) :=
    fun ms hd => (ackSchema F).get_build WakeAck.get
      (fun f tok v m g hv => AckField.get_put (Kind.kind_of_token hv) m g) hd
  have hcomplete : ∀ ms : List (AckField × Value F), (ackSchema F).Complete ms ↔
      ∀ f ∈ AckField.required, ∃ v, (f, v) ∈ ms :=
    fun ms => ⟨fun h f hf => h f ((AckField.mem_required f).mp hf),
      fun h f hf => h f ((AckField.mem_required f).mpr hf)⟩
  rw [decodeWakeAck, toDecoded_eq_ok]
  refine (ackSchema F).decode_eq_ok.trans ⟨?_, ?_⟩
  · rintro ⟨ms, hd, hc, rfl⟩
    exact ⟨ms, hd, (hcomplete ms).mp hc, hbuild ms hd⟩
  · rintro ⟨ms, hd, hc, hm⟩
    refine ⟨ms, hd, (hcomplete ms).mpr hc, WakeAck.ext_get (F := F) fun f => ?_⟩
    rw [hm f, hbuild ms hd]

end Hotpath
