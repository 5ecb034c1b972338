import Hotpath.Protocol.RoundTrip

set_option relaxedAutoImplicit false
set_option autoImplicit false

/-!
# The acks of the executor

`ExecutorServer::serve_connection` answers every frame body with one ack. The ack of a body
that decodes repeats a string of it, and the ack of one that does not repeats the decoder's
message, which may quote the body in turn. Both are shown to be readable by the peer.

## Main definitions

* `Hotpath.ackFor` — the ack of a decoded body.
* `Hotpath.DecodeError.Readable` — a message that is valid UTF-8 and not empty.

## Main results

* `Hotpath.readable_of_decode_error` — every refusal of the wake decoder is readable.
* `Hotpath.ack_readable` — every ack is valid UTF-8 and decodes to itself.
-/

namespace Hotpath

open Json JsonText
open Utf8 (bytes encode)

variable {F : Type}

/-- The ack `serve_connection` encodes: rejected with the decoder's message, or accepted with
the correlation id of the message. -/
def ackFor (decoded : Decoded (WakeMessage F)) (startedAtMs : Int64) : WakeAck :=
  match decoded with
  | .error error =>
    { schemaVersion := kSchemaVersion
      correlationId := []
      receivedAtMs := startedAtMs
      status := .rejected
      reason := some error.message }
  | .ok message =>
    { schemaVersion := kSchemaVersion
      correlationId := message.correlationId
      receivedAtMs := startedAtMs
      status := .accepted
      reason := none }

/-! ## The decoder's messages -/

/-- A message that can be sent and says something. -/
def DecodeError.Readable (e : DecodeError) : Prop := Utf8.Valid e.message ∧ e.message ≠ []

/-- A label and a valid quotation are readable. -/
lemma readable_append {label piece : Bytes} (code : DecodeErrorCode)
    (hlabel : label ≠ [] ∧ ∀ b ∈ label, b < 0x80) (hpiece : Utf8.Valid piece) :
    DecodeError.Readable ⟨code, label ++ piece⟩ :=
  ⟨(Utf8.valid_of_ascii hlabel.2).append hpiece, by simp [hlabel.1]⟩

/-- The reader's own words are readable. -/
lemma readable_of_legible {e : DecodeError} (h : Legible e.message) : e.Readable := by
  refine ⟨Utf8.valid_of_ascii fun b hb => ?_, h.1⟩
  exact UInt8.lt_trans (h.2.2 b hb).2 (by decide)

/-- A refused integer is quoted readably. -/
lemma readable_of_intQuoted {u : Bytes} {e : DecodeError} (h : IntQuoted u e) : e.Readable := by
  obtain ⟨n, t, -, -, ⟨-, rfl⟩ | ⟨-, -, rfl⟩⟩ := h
  · exact readable_append _ (by decide) (valid_render n)
  · exact readable_append _ (by decide) (valid_render n)

/-- A refused number is quoted readably. -/
lemma readable_of_numberQuoted [CharConv F] {u : Bytes} {e : DecodeError}
    (h : NumberQuoted F u e) : e.Readable := by
  obtain ⟨n, t, -, -, -, rfl⟩ := h
  exact readable_append _ (by decide) (valid_render n)

/-- A refused name is quoted readably. -/
lemma readable_of_enumQuoted {first second label : Bytes} {u : Bytes} {e : DecodeError}
    (hlabel : label ≠ [] ∧ ∀ b ∈ label, b < 0x80) (h : EnumQuoted first second label u e) :
    e.Readable := by
  obtain ⟨tok, cs, t, -, -, -, -, rfl⟩ := h
  exact readable_append _ hlabel (Utf8.valid_encode cs)

/-- A refused value is quoted readably, whatever its kind. -/
lemma Kind.readable_of_quoted [CharConv F] {k : Kind} {u : Bytes} {e : DecodeError}
    (h : k.Quoted F u e) : e.Readable := by
  cases k with
  | int => exact readable_of_intQuoted h
  | number => exact readable_of_numberQuoted h
  | direction => exact readable_of_enumQuoted (by decide) h
  | status => exact readable_of_enumQuoted (by decide) h
  | ranges =>
    obtain ⟨_, _, _, _, -, -, ⟨_, _, _, _, -, -, -, hq, -⟩, -⟩ := h
    exact readable_of_numberQuoted hq
  | text => exact h.elim
  | flag => exact h.elim
  | reason => exact h.elim

/-- **Every refusal of the wake decoder is readable.**

**Proof sketch.** The reader's own words are printable ASCII. What a refusal quotes is a number
token, which is ASCII, or a decoded string, which was validated before it is quoted. -/
theorem readable_of_decode_error [OfScientific F] [CharConv F] {body : Bytes} {e : DecodeError}
    (h : decodeWakeMessage (F := F) body = .error e) : e.Readable := by
  rcases decodeWakeMessage_error h with hlegible | hquoted
  · exact readable_of_legible hlegible
  obtain ⟨_, _, _, _, _, -, -, -, hq, -⟩ := hquoted
  cases hq with
  | key hk hw hname => exact readable_append _ (by decide) (Utf8.valid_encode _)
  | value hk hname hw hw' hq => exact Kind.readable_of_quoted hq

/-! ## The decoded correlation id -/

/-- A key that occurs has a last value. -/
lemma exists_lastValue {ι V : Type} [DecidableEq ι] {f : ι} {ms : List (ι × V)} {v : V}
    (h : (f, v) ∈ ms) : ∃ v', lastValue f ms = some v' := by
  have hmem : (f, v) ∈ ms.filter fun p => p.1 = f := List.mem_filter.mpr ⟨h, by simp⟩
  rw [lastValue, List.getLast?_eq_some_getLast (List.ne_nil_of_mem hmem)]
  exact ⟨_, rfl⟩

/-- The last value of a key is that of a member after which the key does not occur. -/
lemma split_of_lastValue {ι V : Type} [DecidableEq ι] {f : ι} {ms : List (ι × V)} {v : V}
    (h : lastValue f ms = some v) :
    ∃ ms₁ ms₂, ms = ms₁ ++ (f, v) :: ms₂ ∧ ∀ v', (f, v') ∉ ms₂ := by
  induction ms using List.reverseRecOn with
  | nil => simp at h
  | append_singleton ms p ih =>
    obtain ⟨g, u⟩ := p
    rw [lastValue_snoc] at h
    split_ifs at h with hg
    · obtain rfl := Option.some.inj h
      exact ⟨ms, [], by rw [hg], by simp⟩
    · obtain ⟨ms₁, ms₂, rfl, hnone⟩ := ih h
      refine ⟨ms₁, ms₂ ++ [(g, u)], by simp, fun v' hv' => ?_⟩
      rcases List.mem_append.mp hv' with hv' | hv'
      · exact hnone v' hv'
      · exact hg (congrArg Prod.fst (List.mem_singleton.mp hv')).symm

/-- A member with the key that no later member has gives the last value. -/
lemma lastValue_of_split {ι V : Type} [DecidableEq ι] {f : ι} {v : V} (ms₁ : List (ι × V))
    {ms₂ : List (ι × V)} (h : ∀ v', (f, v') ∉ ms₂) :
    lastValue f (ms₁ ++ (f, v) :: ms₂) = some v := by
  induction ms₂ using List.reverseRecOn with
  | nil => rw [lastValue_snoc, if_pos rfl]
  | append_singleton ms₂ p ih =>
    obtain ⟨g, u⟩ := p
    have hg : g ≠ f := by
      rintro rfl
      exact h u (by simp)
    rw [← List.cons_append, ← List.append_assoc, lastValue_snoc, if_neg hg]
    exact ih fun v' hv' => h v' (List.mem_append_left _ hv')

/-- The correlation id of a decoded message is the text of a member of the body. -/
lemma exists_correlationId [OfScientific F] [CharConv F] {body : Bytes} {m : WakeMessage F}
    (h : decodeWakeMessage body = .ok m) :
    ∃ ms, WakeDocument (F := F) body ms ∧ (∀ f ∈ WakeField.required, ∃ v, (f, v) ∈ ms) ∧
      (WakeField.correlationId, Value.text m.correlationId) ∈ ms := by
  obtain ⟨ms, hd, hc, rfl⟩ := decodeWakeMessage_eq_build.mp h
  obtain ⟨v, hv⟩ := hc .correlationId (by decide)
  obtain ⟨v', hlast⟩ := exists_lastValue hv
  have hget := get_wake_build hd .correlationId
  rw [hlast, Option.getD_some] at hget
  refine ⟨ms, hd, hc, mem_of_lastValue ?_⟩
  rw [hlast, ← hget]
  rfl

/-- The correlation id of a decoded message is valid UTF-8. -/
lemma valid_correlationId [OfScientific F] [CharConv F] {body : Bytes} {m : WakeMessage F}
    (h : decodeWakeMessage body = .ok m) : Utf8.Valid m.correlationId := by
  obtain ⟨ms, ⟨_, _, _, _, -, hl, -⟩, -, hmem⟩ := exists_correlationId h
  obtain ⟨_, _, _, _, _, _, -, -, -, -, ⟨a, ⟨cs, -, rfl⟩, ha⟩, -⟩ := hl.exists_token hmem
  rw [Value.text.inj ha]
  exact Utf8.valid_encode cs

/-! ## The ack -/

/-- The strings of an ack are valid UTF-8. -/
lemma encodable_ackFor [OfScientific F] [CharConv F] (body : Bytes) (startedAtMs : Int64) :
    (ackFor (decodeWakeMessage (F := F) body) startedAtMs).Encodable := by
  cases h : decodeWakeMessage (F := F) body with
  | error e =>
    refine ⟨Utf8.valid_nil, ?_⟩
    rintro reason ⟨⟩
    exact (readable_of_decode_error h).1
  | ok m =>
    refine ⟨valid_correlationId h, ?_⟩
    rintro reason ⟨⟩

/-- The text of an object whose names and values are valid is valid. -/
lemma valid_objectText {l : List (Bytes × Bytes)}
    (h : ∀ p ∈ l, Utf8.Valid p.1 ∧ Utf8.Valid p.2) (first : Bool) :
    Utf8.Valid (objectText first l) := by
  induction l generalizing first with
  | nil => exact Utf8.valid_nil
  | cons p l ih =>
    obtain ⟨name, value⟩ := p
    obtain ⟨hname, hvalue⟩ := h (name, value) (by simp)
    have hascii : ∀ s ∈ [[], [0x2C], [0x22], [0x22, 0x3A]], Utf8.Valid s := by
      intro s hs
      refine Utf8.valid_of_ascii ?_
      revert s
      decide
    have hlead : Utf8.Valid (if first then [] else [0x2C]) := by
      split_ifs
      · exact hascii [] (by simp)
      · exact hascii [0x2C] (by simp)
    have hmember := (hascii [0x22] (by simp)).append
      (hname.append ((hascii [0x22, 0x3A] (by simp)).append hvalue))
    have hrest := ih (fun q hq => h q (by simp [hq])) false
    simpa [objectText] using hlead.append (hmember.append hrest)

/-- The body of an ack is valid UTF-8 if its strings are. -/
lemma valid_ack_body (F : Type) [CharConv F] {ack : WakeAck} (h : ack.Encodable) :
    Utf8.Valid (ack.body F) := by
  have hint : ∀ v : Int64, Utf8.Valid (intText v.toInt) := by
    intro v
    rw [← render_intNumber]
    exact valid_render _
  have hvalue : ∀ f, Utf8.Valid (ack.get (F := F) f).written := by
    intro f
    cases f with
    | schemaVersion => exact hint _
    | correlationId => exact valid_stringText h.correlationId
    | receivedAtMs => exact hint _
    | status =>
      refine valid_stringText (Utf8.valid_of_ascii ?_)
      cases ack.status <;> decide
    | reason =>
      cases hr : ack.reason with
      | none =>
        rw [WakeAck.get, hr]
        exact (Utf8.valid_of_ascii (by decide) : Utf8.Valid (bytes "null"))
      | some reason =>
        rw [WakeAck.get, hr]
        exact valid_stringText (h.reason reason hr)
  have hname : ∀ f : AckField, Utf8.Valid f.name := by
    intro f
    refine Utf8.valid_of_ascii ?_
    cases f <;> decide
  have hobject := valid_objectText (l := AckField.all.map fun f =>
    (f.name, (ack.get (F := F) f).written)) (by
      intro p hp
      obtain ⟨f, -, rfl⟩ := List.mem_map.mp hp
      exact ⟨hname f, hvalue f⟩) true
  have hopen : Utf8.Valid [0x7B] := Utf8.valid_of_ascii (by decide)
  have hclose : Utf8.Valid [0x7D] := Utf8.valid_of_ascii (by decide)
  exact hopen.append (hobject.append hclose)

/-- **Every ack the executor builds is readable by its peer**: whatever was received as a frame
body and whatever the buffer held, the body of the ack is valid UTF-8, it decodes to exactly
that ack, and the reason of a rejection is not empty. -/
theorem ack_readable [OfScientific F] [CharConv F] (body out : Bytes) (startedAtMs : Int64) :
    Utf8.Valid ((encodeWakeAckInto (ackFor (decodeWakeMessage (F := F) body) startedAtMs) out).drop
      kFrameLengthBytes) ∧
    decodeWakeAck ((encodeWakeAckInto (ackFor (decodeWakeMessage (F := F) body) startedAtMs)
      out).drop kFrameLengthBytes) = .ok (ackFor (decodeWakeMessage (F := F) body) startedAtMs) ∧
    ((ackFor (decodeWakeMessage (F := F) body) startedAtMs).status = .rejected →
      ∃ reason, (ackFor (decodeWakeMessage (F := F) body) startedAtMs).reason = some reason ∧
        reason ≠ []) := by
  have hack := encodable_ackFor (F := F) body startedAtMs
  rw [encodeWakeAckInto_eq F, drop_writeLengthPrefix]
  refine ⟨valid_ack_body F hack, decodeWakeAck_body F hack, ?_⟩
  intro hstatus
  cases h : decodeWakeMessage (F := F) body with
  | error e => exact ⟨e.message, rfl, (readable_of_decode_error h).2⟩
  | ok m =>
    rw [h] at hstatus
    cases hstatus

end Hotpath
