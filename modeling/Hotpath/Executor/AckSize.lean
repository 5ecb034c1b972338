import Hotpath.Executor.Ack

set_option relaxedAutoImplicit false
set_option autoImplicit false

/-!
# The size of the acks

The encoder checks no size, so whether an ack respects the cap of the protocol rests on what it
repeats of the body. An accepted ack repeats the correlation id, which took as much room in the
body, next to twelve required keys. A rejected ack repeats whatever the decoder quotes, and a
quotation can take all of the body.

## Main definitions

* `Hotpath.AckFits` — the body of a frame is within the cap, and its prefix is accepted.
* `Hotpath.rejectedBytes` — the size of a rejected ack that carries a given message.
* `Hotpath.CorrelationIdText` — the text of the correlation id in a body.

## Main results

* `Hotpath.ack_fits_of_ok` — an accepted ack fits.
* `Hotpath.ack_fits_iff` — exactly which bodies have an ack that fits.
* `Hotpath.appendString_shortest` — a decoded string takes no more room when it is written again,
  so neither does the correlation id of an ack.
-/

namespace Hotpath

open Json JsonText
open Utf8 (bytes encode)

variable {F : Type}

/-- A frame whose body is within the cap, so that the peer accepts its length prefix. -/
def AckFits (frame : Bytes) : Prop :=
  (frame.drop kFrameLengthBytes).length ≤ kMaxFrameBytes ∧
    ∃ length, decodeFrameLength (frame.take kFrameLengthBytes) = .ok length ∧
      length.toNat = (frame.drop kFrameLengthBytes).length

/-- The size of the body of a rejected ack with a message: the keys, the fixed values and the
quotes, the timestamp and the escaped message. -/
def rejectedBytes (startedAtMs : Int64) (message : Bytes) : ℕ :=
  90 + (intText startedAtMs.toInt).length + (message.flatMap escapeByte).length

/-! ## The size of an ack -/

/-- A frame an encoder writes fits exactly if its body is within the cap. -/
lemma ackFits_iff (ack : WakeAck) (out : Bytes) (F : Type) [CharConv F] :
    AckFits (encodeWakeAckInto ack out) ↔ (ack.body F).length ≤ kMaxFrameBytes := by
  have hprefix := prefixReads_writeLengthPrefix (ack.body F)
  rw [encodeWakeAckInto_eq F]
  unfold AckFits
  refine ⟨fun h => ?_, fun h => ⟨?_, hprefix.1 ?_⟩⟩
  · rw [drop_writeLengthPrefix] at h
    exact h.1
  · rwa [drop_writeLengthPrefix]
  · rwa [drop_writeLengthPrefix]

/-- The size of an ack's body: seventy-five bytes of keys and punctuation, and the values. -/
private lemma length_ack_body [CharConv F] (ack : WakeAck) : (ack.body F).length =
    75 + (intText ack.schemaVersion.toInt).length + (stringText ack.correlationId).length +
      (intText ack.receivedAtMs.toInt).length + (stringText ack.status.nameOf).length +
      (Value.reason (F := F) ack.reason).written.length := by
  have hname : AckField.all.map (fun f => f.name.length) = [14, 14, 14, 6, 6] := by decide
  simp only [AckField.all, List.map_cons, List.map_nil, List.cons.injEq, and_true] at hname
  obtain ⟨h1, h2, h3, h4, h5⟩ := hname
  simp only [WakeAck.body, documentText, AckField.all, List.map_cons, List.map_nil, objectText,
    List.length_cons, List.length_append, List.length_nil, if_true, Bool.false_eq_true, if_false,
    WakeAck.get, Value.written, h1, h2, h3, h4, h5]
  omega

/-- A timestamp takes at most twenty bytes. -/
private lemma length_int64 (v : Int64) : (intText v.toInt).length ≤ 20 := by
  refine length_intText_le (k := 19) (by decide) ?_
  have hlo := Int64.le_toInt v
  have hhi := Int64.toInt_lt v
  omega

/-- The size of a rejected ack. -/
private lemma length_rejected [CharConv F] (e : DecodeError) (startedAtMs : Int64) :
    ((ackFor (F := F) (.error e) startedAtMs).body F).length =
      rejectedBytes startedAtMs e.message := by
  have h1 : (intText (kSchemaVersion).toInt).length = 1 := by decide
  have h2 : (stringText []).length = 2 := by decide
  have h3 : (stringText WakeAckStatus.rejected.nameOf).length = 10 := by decide
  rw [length_ack_body]
  simp only [ackFor, Value.written, h1, h2, h3, rejectedBytes, length_stringText]
  omega

/-- The size of an accepted ack. -/
private lemma length_accepted [CharConv F] (m : WakeMessage F) (startedAtMs : Int64) :
    ((ackFor (.ok m) startedAtMs).body F).length =
      90 + (intText startedAtMs.toInt).length + (stringText m.correlationId).length := by
  have h1 : (intText (kSchemaVersion).toInt).length = 1 := by decide
  have h2 : (stringText WakeAckStatus.accepted.nameOf).length = 10 := by decide
  have h3 : (bytes "null").length = 4 := by decide
  rw [length_ack_body]
  simp only [ackFor, Value.written, h1, h2, h3]
  omega

/-! ## Accepted acks -/

/-- The room a required field takes in a body at least: its key with the quotes, the colon, and
one byte, or for the correlation id the text of its value. -/
private def roomOf (id : Bytes) (f : WakeField) : ℕ :=
  f.name.length + if f = .correlationId then 3 + (stringText id).length else 4

/-- The required fields are distinct. -/
private lemma nodup_required : WakeField.required.Nodup := by decide

/-- A member takes the room of its key and its value. -/
private lemma room_le [OfScientific F] [CharConv F] {id : Bytes} {f : WakeField} {v : Value F}
    {tok : Bytes} (hid : f = .correlationId → v = .text id)
    (h : (wakeSchema F).Member tok (f, v)) : roomOf id f ≤ tok.length := by
  obtain ⟨ktok, cs, w, w', vtok, hk, hname, -, -, hv, rfl⟩ := h
  have hkey : f.name.length + 2 ≤ ktok.length := by
    have hle := length_stringText_le hk
    have hname' : encode cs = f.name := hname
    rw [hname'] at hle
    exact le_trans (le_length_stringText f.name) hle
  have hvalue : (if f = .correlationId then 3 + (stringText id).length else 4) ≤
      3 + vtok.length := by
    split_ifs with hf
    · subst hf
      obtain ⟨a, ⟨cs', hs, rfl⟩, ha⟩ := hv
      rw [hid rfl] at ha
      rw [Value.text.inj ha]
      have := length_stringText_le hs
      omega
    · have := Kind.token_pos hv
      omega
  simp only [List.length_append, List.length_cons]
  unfold roomOf
  omega

/-- **The body of an accepted ack is shorter than the body it answers.**

**Proof sketch.** The twelve required keys have their own members in the body, one of them with
the correlation id as its value, and no token of that value is shorter than the one written.
The other keys alone are longer than all the ack adds. -/
lemma accepted_lt_body [OfScientific F] [CharConv F] {body : Bytes} {m : WakeMessage F}
    (h : decodeWakeMessage body = .ok m) (startedAtMs : Int64) :
    ((ackFor (.ok m) startedAtMs).body F).length < body.length := by
  obtain ⟨ms, ⟨w, c, w', w'', -, hl, -, -, rfl⟩, hc, hid⟩ := exists_correlationId h
  have hroom : (WakeField.required.map (roomOf m.correlationId)).sum ≤ c.length := by
    refine hl.sum_le Prod.fst (roomOf m.correlationId) nodup_required fun f hf => ?_
    by_cases hf' : f = .correlationId
    · subst hf'
      exact ⟨_, hid, rfl, fun tok => room_le fun _ => rfl⟩
    · obtain ⟨v, hv⟩ := hc f hf
      exact ⟨_, hv, rfl, fun tok => room_le fun heq => absurd heq hf'⟩
  have hsum : (WakeField.required.map (roomOf m.correlationId)).sum =
      172 + (stringText m.correlationId).length := by
    have hnames : (WakeField.required.map fun f => f.name.length) =
        [14, 14, 13, 5, 9, 12, 17, 3, 4, 14, 10, 10] := by decide
    simp only [WakeField.required, List.map_cons, List.map_nil, List.cons.injEq, and_true]
      at hnames
    obtain ⟨h1, h2, h3, h4, h5, h6, h7, h8, h9, h10, h11, h12⟩ := hnames
    simp only [WakeField.required, List.map_cons, List.map_nil, roomOf, h1, h2, h3, h4, h5, h6, h7,
      h8, h9, h10, h11, h12, reduceCtorEq, if_true, if_false, List.sum_cons, List.sum_nil]
    omega
  have hts := length_int64 startedAtMs
  rw [length_accepted]
  simp only [List.length_append, List.length_cons]
  omega

/-- An accepted ack fits. -/
theorem ack_fits_of_ok [OfScientific F] [CharConv F] {body : Bytes} {m : WakeMessage F}
    (hlen : body.length ≤ kMaxFrameBytes) (h : decodeWakeMessage body = .ok m)
    (startedAtMs : Int64) (out : Bytes) :
    AckFits (encodeWakeAckInto (ackFor (.ok m) startedAtMs) out) := by
  rw [ackFits_iff _ _ F]
  have := accepted_lt_body h startedAtMs
  omega

/-! ## The echo -/

/-- The token is the text of the correlation id in the body: of the value of the last member with
that key. -/
def CorrelationIdText (F : Type) [OfScientific F] [CharConv F] (body tok : Bytes) : Prop :=
  ∃ (ms₁ ms₂ : List (WakeField × Value F)) (v : Value F) (before w after : Bytes),
    WakeDocument body (ms₁ ++ (.correlationId, v) :: ms₂) ∧
    (∀ v', (WakeField.correlationId, v') ∉ ms₂) ∧
    (wakeSchema F).Before ms₁ (WakeField.name .correlationId) before ∧ Blank w ∧
    (wakeSchema F).Token .correlationId tok v ∧ body = before ++ (w ++ (tok ++ after))

/-- A body that decodes has a token of its correlation id. -/
lemma exists_correlationIdText [OfScientific F] [CharConv F] {body : Bytes} {m : WakeMessage F}
    (h : decodeWakeMessage body = .ok m) : ∃ tok, CorrelationIdText F body tok := by
  obtain ⟨ms, hd, hc, -⟩ := exists_correlationId h
  obtain ⟨v', hmem⟩ := hc .correlationId (by decide)
  obtain ⟨v, hlast⟩ := exists_lastValue hmem
  obtain ⟨ms₁, ms₂, rfl, hnone⟩ := split_of_lastValue hlast
  obtain ⟨w, c, w₁, w₂, hw, hl, hw₁, hw₂, rfl⟩ := hd
  obtain ⟨c₁, s, mtok, c₂, hl₁, hs, ⟨ktok, cs, w', w'', tok, hk, hname, hw', hw'', hv, rfl⟩, rfl⟩ :=
    hl.split
  refine ⟨tok, ms₁, ms₂, v, w ++ 0x7B :: (c₁ ++ (s ++ (ktok ++ (w' ++ [0x3A])))), w'',
    c₂ ++ (w₁ ++ 0x7D :: w₂), ⟨w, _, w₁, w₂, hw, hl, hw₁, hw₂, rfl⟩, hnone,
    ⟨w, c₁, s, ktok, cs, w', hw, hl₁, hs, hk, hname, hw', rfl⟩, hw'', hv, ?_⟩
  simp only [List.append_assoc, List.cons_append, List.nil_append]

/-- The token denotes the correlation id of the message. -/
lemma CorrelationIdText.scans [OfScientific F] [CharConv F] {body tok : Bytes} {m : WakeMessage F}
    (ht : CorrelationIdText F body tok) (h : decodeWakeMessage body = .ok m) :
    Reader.Scans tok m.correlationId := by
  obtain ⟨ms₁, ms₂, v, _, _, _, hd, hnone, -, -, ⟨a, ⟨cs, htok, rfl⟩, hv⟩, -⟩ := ht
  have hget := get_of_decodeWakeMessage h hd .correlationId
  rw [lastValue_of_split ms₁ hnone, Option.getD_some, hv] at hget
  exact Reader.scans_iff.mpr ⟨cs, htok, Value.text.inj hget⟩

/-- An accepted ack holds the text of the correlation id after its key. -/
lemma body_accepted [CharConv F] (m : WakeMessage F) (startedAtMs : Int64) :
    ∃ post, (ackFor (.ok m) startedAtMs).body F =
      bytes "\x7b\"schema_version\":4,\"correlation_id\":" ++
        (stringText m.correlationId ++ post) := by
  have hversion : intText (kSchemaVersion).toInt = bytes "4" := by decide
  have hpre : bytes "\x7b\"schema_version\":4,\"correlation_id\":" =
      0x7B :: 0x22 :: (bytes "schema_version" ++ 0x22 :: 0x3A :: (bytes "4" ++ 0x2C :: 0x22 ::
        (bytes "correlation_id" ++ [0x22, 0x3A]))) := by decide
  simp only [WakeAck.body, documentText, AckField.all, List.map_cons, List.map_nil, objectText,
    ackFor, WakeAck.get, Value.written, hversion, AckField.name, hpre, List.append_assoc,
    List.cons_append, List.nil_append, if_true, Bool.false_eq_true, if_false]
  exact ⟨_, rfl⟩

/-- **Encoding a decoded string again never makes it longer.** For every token that
`scan_string` accepts with a value, `append_string` writes the value in at most as many bytes as
the token, and as any other token of the value, and what it writes is scanned as the value
everywhere. So the correlation id of an accepted ack takes no more bytes than it took in the
wake. -/
theorem appendString_shortest [OfScientific F] [CharConv F] :
    (∀ tok value, Reader.Scans tok value →
      (∀ out, appendString out value = out ++ appendString [] value) ∧
      (appendString [] value).length ≤ tok.length ∧
      (∀ (r : Reader) (w t : Bytes), Blank w → r.rest = w ++ (appendString [] value ++ t) →
        r.scanString = .ok (value, r.adv (w.length + (appendString [] value).length))) ∧
      ∀ tok', Reader.Scans tok' value → (appendString [] value).length ≤ tok'.length) ∧
    ∀ (body : Bytes) (m : WakeMessage F), decodeWakeMessage body = .ok m →
      ∀ (startedAtMs : Int64) (out : Bytes),
      (∃ post, (encodeWakeAckInto (ackFor (.ok m) startedAtMs) out).drop kFrameLengthBytes =
        bytes "\x7b\"schema_version\":4,\"correlation_id\":" ++
          (appendString [] m.correlationId ++ post)) ∧
      (∃ tok, CorrelationIdText F body tok) ∧
      ∀ tok, CorrelationIdText F body tok →
        Reader.Scans tok m.correlationId ∧
          (appendString [] m.correlationId).length ≤ tok.length := by
  have hle : ∀ {tok value}, Reader.Scans tok value →
      (appendString [] value).length ≤ tok.length := by
    intro tok value h
    obtain ⟨cs, htok, rfl⟩ := Reader.scans_iff.mp h
    rw [appendString_eq, List.nil_append]
    exact length_stringText_le htok
  constructor
  · intro tok value h
    refine ⟨fun out => ?_, hle h, fun r w t hw hr => ?_, fun tok' h' => hle h'⟩
    · rw [appendString_eq, appendString_eq, List.nil_append]
    · obtain ⟨cs, -, rfl⟩ := Reader.scans_iff.mp h
      rw [appendString_eq, List.nil_append] at hr ⊢
      exact Reader.scanString_of hr hw (stringToken_stringText cs)
  · intro body m h startedAtMs out
    refine ⟨?_, exists_correlationIdText h, fun tok ht => ⟨ht.scans h, hle (ht.scans h)⟩⟩
    rw [encodeWakeAckInto_eq F, drop_writeLengthPrefix, appendString_eq, List.nil_append]
    exact body_accepted m startedAtMs

/-- The letter `A` as an escape, and as it is written again. -/
theorem appendString_shortest_letter :
    (appendString [] (bytes "A")).length ≤ (bytes "\"\\u0041\"").length := by
  have hescape : StringToken (bytes "\"\\u0041\"") ['A'] :=
    ⟨[0x5C, 0x75, 0x30, 0x30, 0x34, 0x31], Item.items (Item.hex (by decide)), by decide⟩
  have hscans : Reader.Scans (bytes "\"\\u0041\"") (bytes "A") :=
    Reader.scans_iff.mpr ⟨['A'], hescape, by decide⟩
  exact ((appendString_shortest (F := SignedZero)).1 _ _ hscans).2.1

/-! ## What a refusal quotes -/

/-- The label of a refusal and what it quotes of a text. -/
private lemma length_label_le {label piece u : Bytes} (hlabel : label.length ≤ 64)
    (hpiece : piece.length ≤ u.length) : (label ++ piece).length ≤ 64 + u.length := by
  rw [List.length_append]
  omega

/-- A refused number is quoted as it stands. -/
private lemma length_numberQuoted [CharConv F] {u : Bytes} {e : DecodeError}
    (h : NumberQuoted F u e) : e.message.length ≤ 64 + u.length := by
  obtain ⟨n, t, rfl, -, -, rfl⟩ := h
  exact length_label_le (by decide) (by simp)

/-- A string token is no shorter than its string. -/
private lemma length_encode_le {tok : Bytes} {cs : List Char} (h : StringToken tok cs) :
    (encode cs).length ≤ tok.length := by
  have := le_trans (le_length_stringText (encode cs)) (length_stringText_le h)
  omega

/-- A refused name is quoted without its quotes. -/
private lemma length_enumQuoted {first second label u : Bytes} {e : DecodeError}
    (hlabel : label.length ≤ 64) (h : EnumQuoted first second label u e) :
    e.message.length ≤ 64 + u.length := by
  obtain ⟨tok, cs, t, htok, rfl, -, -, rfl⟩ := h
  have := length_encode_le htok
  exact length_label_le hlabel (by rw [List.length_append]; omega)

/-- A quotation is no longer than the text it is taken from, its label apart. -/
private lemma length_quoted_le [CharConv F] {k : Kind} {u : Bytes} {e : DecodeError}
    (h : k.Quoted F u e) : e.message.length ≤ 64 + u.length := by
  cases k with
  | int =>
    obtain ⟨n, t, rfl, -, ⟨-, rfl⟩ | ⟨-, -, rfl⟩⟩ := h
    · exact length_label_le (by decide) (by simp)
    · exact length_label_le (by decide) (by simp)
  | number => exact length_numberQuoted h
  | direction => exact length_enumQuoted (by decide) h
  | status => exact length_enumQuoted (by decide) h
  | ranges =>
    obtain ⟨_, _, _, _, -, -, ⟨_, _, _, _, -, -, -, hq, rfl⟩, rfl⟩ := h
    have := length_numberQuoted hq
    simp only [List.length_cons, List.length_append]
    omega
  | text => exact h.elim
  | flag => exact h.elim
  | reason => exact h.elim

/-- The decoder's message is no longer than the body, its own words apart. -/
lemma length_message_le [OfScientific F] [CharConv F] {body : Bytes} {e : DecodeError}
    (h : decodeWakeMessage (F := F) body = .error e) : e.message.length ≤ 64 + body.length := by
  rcases decodeWakeMessage_error h with hlegible | ⟨_, _, _, _, u, -, -, -, hq, rfl⟩
  · exact le_trans hlegible.2.1 (Nat.le_add_right _ _)
  have hu : e.message.length ≤ 64 + u.length := by
    cases hq with
    | key hk _ _ =>
      have := length_encode_le hk
      exact length_label_le (by decide) (by rw [List.length_append]; omega)
    | value _ _ _ _ hq =>
      have := length_quoted_le hq
      simp only [List.length_cons, List.length_append]
      omega
  simp only [List.length_cons, List.length_append]
  omega

/-- The length of an ack's body does not overflow its prefix. -/
lemma length_ack_lt [OfScientific F] [CharConv F] {body : Bytes} (startedAtMs : Int64)
    (hlen : body.length ≤ kMaxFrameBytes) :
    ((ackFor (decodeWakeMessage (F := F) body) startedAtMs).body F).length < 2 ^ 32 := by
  have hcap : kMaxFrameBytes = 65536 := rfl
  cases h : decodeWakeMessage (F := F) body with
  | ok m =>
    have := accepted_lt_body h startedAtMs
    omega
  | error e =>
    have hmessage := length_message_le h
    have hescape := length_escape_le (s := e.message) (k := 6) fun b _ => length_escapeByte_le b
    have hts := length_int64 startedAtMs
    rw [length_rejected, rejectedBytes]
    omega

/-- An ack's body is at most six times as long as what it answers, its own words apart. -/
lemma length_ack_le [OfScientific F] [CharConv F] (body : Bytes) (startedAtMs : Int64) :
    ((ackFor (decodeWakeMessage (F := F) body) startedAtMs).body F).length ≤
      6 * body.length + 494 := by
  cases h : decodeWakeMessage (F := F) body with
  | ok m =>
    have := accepted_lt_body h startedAtMs
    omega
  | error e =>
    have hmessage := length_message_le h
    have hescape := length_escape_le (s := e.message) (k := 6) fun b _ => length_escapeByte_le b
    have hts := length_int64 startedAtMs
    rw [length_rejected, rejectedBytes]
    omega

/-! ## Rejected acks -/

/-- A rejected ack in the reader's own words fits. -/
lemma ack_fits_of_legible {e : DecodeError} (h : Legible e.message) (startedAtMs : Int64) :
    rejectedBytes startedAtMs e.message ≤ kMaxFrameBytes := by
  have hts := length_int64 startedAtMs
  have hlen := length_escape_le (k := 2) fun b hb => length_escapeByte_printable (h.2.2 b hb).1
  have hshort := h.2.1
  have hcap : kMaxFrameBytes = 65536 := rfl
  unfold rejectedBytes
  omega

/-- **Which acks fit the cap**, of all bodies within the cap: all but those of a body that is
well formed up to a member whose quotation, escaped, makes a rejected ack larger.

**Proof sketch.** Accepted acks are shorter than what they answer, and the reader's own words
are short. In the remaining case the error is the quotation the grammar determines. -/
theorem ack_fits_iff [OfScientific F] [CharConv F] (body out : Bytes) (startedAtMs : Int64)
    (hlen : body.length ≤ kMaxFrameBytes) :
    AckFits (encodeWakeAckInto (ackFor (decodeWakeMessage (F := F) body) startedAtMs) out) ↔
      ∀ e, (wakeSchema F).DocumentQuoted body e →
        rejectedBytes startedAtMs e.message ≤ kMaxFrameBytes := by
  cases h : decodeWakeMessage (F := F) body with
  | ok m =>
    refine ⟨fun _ e he => ?_, fun _ => ack_fits_of_ok hlen h startedAtMs out⟩
    rw [decodeWakeMessage_quoted he] at h
    cases h
  | error e =>
    rw [ackFits_iff _ _ F, length_rejected]
    refine ⟨fun hfits e' he' => ?_, fun hfits => ?_⟩
    · rw [decodeWakeMessage_quoted he'] at h
      cases h
      exact hfits
    · rcases decodeWakeMessage_error h with hlegible | hquoted
      · exact ack_fits_of_legible hlegible startedAtMs
      · exact hfits e hquoted

/-- The ack of a short body with an unknown key. -/
theorem ack_fits_unknown_key :
    AckFits (encodeWakeAckInto (ackFor (decodeWakeMessage (F := SignedZero)
      (bytes "\x7b\"k\":1\x7d")) 0) []) := by
  refine (ack_fits_iff (F := SignedZero) (bytes "\x7b\"k\":1\x7d") [] 0 (by decide)).mpr ?_
  intro e he
  have hdecode : decodeWakeMessage (F := SignedZero) (bytes "\x7b\"k\":1\x7d") =
      .error ⟨.unknownField, bytes "unexpected field: k"⟩ := by rfl
  rw [decodeWakeMessage_quoted he] at hdecode
  obtain rfl := Except.error.inj hdecode
  decide

/-- An object that ends after its first key, which is long. -/
def longKeyBody (n : ℕ) : Bytes := 0x7B :: 0x22 :: (List.replicate n 0x4B ++ [0x22, 0x3A])

/-- The refusal of a body with a long key quotes the key. -/
lemma documentQuoted_longKeyBody [OfScientific F] [CharConv F] {n : ℕ} (h : 24 < n) :
    (wakeSchema F).DocumentQuoted (longKeyBody n)
      ⟨.unknownField, bytes "unexpected field: " ++ List.replicate n 0x4B⟩ := by
  have hcs : encode ((List.replicate n 0x4B).map Utf8.ascii) = List.replicate n 0x4B := by
    refine Utf8.encode_map_ascii fun b hb => ?_
    rw [List.eq_of_mem_replicate hb]
    decide
  have hitems : Items (List.replicate n 0x4B) ((List.replicate n 0x4B).map Utf8.ascii) := by
    refine items_plain fun b hb => ?_
    rw [List.eq_of_mem_replicate hb]
    decide
  have hname : ∀ f : WakeField, f.name.length ≤ 24 := by
    intro f
    cases f <;> decide
  have hquoted := Schema.MemberQuoted.key (S := wakeSchema F) (w := []) (t := [])
    ⟨_, hitems, rfl⟩ blank_nil (by
      intro f heq
      have hlen := congrArg List.length (hcs.symm.trans heq)
      rw [List.length_replicate] at hlen
      have := hname f
      exact absurd hlen (by simp only [wakeSchema]; omega))
  rw [hcs] at hquoted
  refine ⟨[], [], [], [], _, blank_nil, Listing.nil, blank_nil, hquoted, ?_⟩
  simp [longKeyBody]

/-- The ack of a body whose key is long enough does not fit. -/
lemma not_ackFits_longKeyBody {n : ℕ} (hn : 24 < n) (hlong : kMaxFrameBytes < 108 + n)
    (startedAtMs : Int64) (out : Bytes) :
    ¬ AckFits (encodeWakeAckInto
      (ackFor (decodeWakeMessage (F := SignedZero) (longKeyBody n)) startedAtMs) out) := by
  rw [decodeWakeMessage_quoted (documentQuoted_longKeyBody hn), ackFits_iff _ _ SignedZero,
    length_rejected, rejectedBytes]
  have hescape := length_le_escape (bytes "unexpected field: " ++ List.replicate n 0x4B)
  have hlabel : (bytes "unexpected field: ").length = 18 := by decide
  rw [List.length_append, List.length_replicate, hlabel] at hescape
  dsimp only
  omega

/-- The ack of a body of exactly the cap can exceed it. -/
theorem long_key_overflows :
    (longKeyBody 65532).length = kMaxFrameBytes ∧
      ¬ AckFits (encodeWakeAckInto
        (ackFor (decodeWakeMessage (F := SignedZero) (longKeyBody 65532)) 0) []) := by
  refine ⟨?_, not_ackFits_longKeyBody (by decide) (by decide) 0 []⟩
  rw [longKeyBody, List.length_cons, List.length_cons, List.length_append, List.length_replicate]
  rfl

end Hotpath
