import Mathlib.Data.List.TakeWhile
import Hotpath.Json.Reader

set_option relaxedAutoImplicit false
set_option autoImplicit false

/-!
# What a reader has before it

A reader is a position in a text. The lemmas about its methods speak of `Reader.rest`, the text
from that position on, and of `Reader.adv`, the reader some bytes further, so that no index
appears in them.

## Main definitions

* `Reader.rest`, `Reader.adv`.
* `Legible`, `Failure.Plain` — the error texts the reader composes from its own words.

## Main results

* `Reader.peek_of`, `Reader.expect_of` — the forward rules: what a method answers on a text of
  the right shape.
* `Reader.peek_cases`, `Reader.expect_ok`, `Reader.expect_error` — the inversion rules: what
  the text was, given the answer.
-/

namespace Hotpath.Json

open JsonText (isSpace isDigit Blank Digits blank_nil)
open Utf8 (bytes)

/-! ## Runs of bytes -/

/-- A run of bytes satisfying `p`, followed by a text that does not prolong it, is the longest
such run. -/
lemma takeWhile_run {p : UInt8 → Bool} {u t : Bytes} (hu : ∀ b ∈ u, p b = true)
    (ht : ∀ b ∈ t.head?, p b = false) : (u ++ t).takeWhile p = u := by
  rw [List.takeWhile_append_of_pos hu]
  cases t with
  | nil => simp
  | cons b t => simp [ht b rfl]

/-- Scanning stops after the longest run. -/
lemma scanWhile_eq (p : UInt8 → Bool) (text : Bytes) (n : ℕ) :
    ∀ pos, text.length - pos ≤ n →
      scanWhile p text n pos = pos + ((text.drop pos).takeWhile p).length := by
  induction n with
  | zero =>
    intro pos h
    rw [List.drop_eq_nil_of_le (by omega)]
    rfl
  | succ n ih =>
    intro pos h
    rw [scanWhile]
    rcases Nat.lt_or_ge pos text.length with hp | hp
    · rw [List.getElem?_eq_getElem hp, List.drop_eq_getElem_cons hp]
      simp only [List.takeWhile_cons]
      split_ifs with hc
      · rw [ih (pos + 1) (by omega), List.length_cons]
        omega
      · rfl
    · rw [List.getElem?_eq_none hp, List.drop_eq_nil_of_le hp]
      rfl

/-- The end of a run, in terms of the text it starts. -/
lemma advanceWhile_eq (p : UInt8 → Bool) (text : Bytes) (pos : ℕ) :
    advanceWhile p text pos = pos + ((text.drop pos).takeWhile p).length :=
  scanWhile_eq p text _ pos le_rfl

/-- A scan stops at the end of a given run. -/
lemma advanceWhile_of {p : UInt8 → Bool} {text u t : Bytes} {pos : ℕ}
    (h : text.drop pos = u ++ t) (hu : ∀ b ∈ u, p b = true) (ht : ∀ b ∈ t.head?, p b = false) :
    advanceWhile p text pos = pos + u.length := by
  rw [advanceWhile_eq, h, takeWhile_run hu ht]

/-! ## Error texts -/

/-- An error text of the reader's own words: some printable ASCII, not much of it. -/
def Legible (message : Bytes) : Prop :=
  message ≠ [] ∧ message.length ≤ 64 ∧ ∀ b ∈ message, 0x20 ≤ b ∧ b < 0x7F

/-- Legibility is decided by going through the bytes. -/
instance (message : Bytes) : Decidable (Legible message) := by unfold Legible; infer_instance

/-- A method stopped with an error of the reader's own words. -/
def Failure.Plain (f : Failure) : Prop := ∃ e, f = .error e ∧ Legible e.message

/-- Failing with a legible text is an error that is legible. -/
lemma plain_of_fail {α : Type} {code : DecodeErrorCode} {message : Bytes} {f : Failure}
    (hm : Legible message) (h : fail (α := α) code message = .error f) : f.Plain := by
  cases h
  exact ⟨_, rfl, hm⟩

/-- `fail` does not return. -/
@[simp] lemma fail_ne_ok {α : Type} {code : DecodeErrorCode} {message : Bytes} {a : α} :
    fail code message ≠ .ok a := by
  rintro ⟨⟩

/-! ## Sequencing -/

/-- A sequence of two steps returns when both do. -/
lemma bind_eq_ok {α β : Type} {x : Parse α} {g : α → Parse β} {b : β} :
    (x >>= g) = .ok b ↔ ∃ a, x = .ok a ∧ g a = .ok b := by
  cases x with
  | error e => simp [bind, Except.bind]
  | ok a => simp [bind, Except.bind]

/-- A sequence of two steps fails when the first does, or the second after it. -/
lemma bind_eq_error {α β : Type} {x : Parse α} {g : α → Parse β} {f : Failure} :
    (x >>= g) = .error f ↔ x = .error f ∨ ∃ a, x = .ok a ∧ g a = .error f := by
  cases x with
  | error e => simp [bind, Except.bind]
  | ok a => simp [bind, Except.bind]

/-- After a step that returns comes the rest of the sequence. -/
@[simp] lemma ok_bind {α β : Type} (a : α) (g : α → Parse β) :
    ((Except.ok a : Parse α) >>= g) = g a := rfl

/-- The two digits of `hex_byte` are printable. -/
lemma printable_hexByte (c : UInt8) : ∀ b ∈ hexByte c, 0x20 ≤ b ∧ b < 0x7F := by
  have hex : ∀ i < 16, 0x20 ≤ hexChar i ∧ hexChar i < 0x7F := by decide
  have hc := c.toNat_lt
  intro b hb
  simp only [hexByte, List.mem_cons, List.not_mem_nil, or_false] at hb
  rcases hb with rfl | rfl
  · exact hex _ (by rw [Nat.shiftRight_eq_div_pow]; omega)
  · exact hex _ (Nat.and_lt_two_pow (n := 4) _ (by decide))

/-- A legible text followed by the two digits of a byte is legible. -/
lemma legible_append_hexByte {m : Bytes} (h : Legible m) (hlen : m.length ≤ 62) (c : UInt8) :
    Legible (m ++ hexByte c) := by
  refine ⟨by simp [h.1], by simp [hexByte]; omega, fun b hb => ?_⟩
  rcases List.mem_append.mp hb with hb | hb
  · exact h.2.2 b hb
  · exact printable_hexByte c b hb

namespace Reader

/-! ## The text before a reader -/

/-- The text from the reader's position on. -/
def rest (r : Reader) : Bytes := r.text.drop r.pos

/-- The reader `n` bytes further. -/
def adv (r : Reader) (n : ℕ) : Reader := { r with pos := r.pos + n }

/-- The text does not change on the way. -/
@[simp] lemma adv_text (r : Reader) (n : ℕ) : (r.adv n).text = r.text := rfl

/-- The position advances. -/
@[simp] lemma adv_pos (r : Reader) (n : ℕ) : (r.adv n).pos = r.pos + n := rfl

/-- No level is opened or closed on the way. -/
@[simp] lemma adv_depth (r : Reader) (n : ℕ) : (r.adv n).depth = r.depth := rfl

/-- No flag changes on the way. -/
@[simp] lemma adv_first (r : Reader) (n : ℕ) : (r.adv n).first = r.first := rfl

/-- No byte is passed by staying. -/
@[simp] lemma adv_zero (r : Reader) : r.adv 0 = r := rfl

/-- Two ways in a row are one way. -/
@[simp] lemma adv_adv (r : Reader) (m n : ℕ) : (r.adv m).adv n = r.adv (m + n) := by
  simp [adv, Nat.add_assoc]

/-- After a way the rest is what was ahead of it, less the bytes passed. -/
lemma rest_adv (r : Reader) (n : ℕ) : (r.adv n).rest = r.rest.drop n := by
  simp [rest]

/-- Past a text, what followed it is left. -/
lemma rest_adv_of {r : Reader} {u t : Bytes} (h : r.rest = u ++ t) :
    (r.adv u.length).rest = t := by
  rw [rest_adv, h, List.drop_left]

/-- Past one byte, what followed it is left. -/
lemma rest_adv_one {r : Reader} {c : UInt8} {t : Bytes} (h : r.rest = c :: t) :
    (r.adv 1).rest = t := by
  rw [rest_adv, h, List.drop_one, List.tail_cons]

/-- A whole text lies before the reader made for it. -/
@[simp] lemma rest_ofText (text : Bytes) : (ofText text).rest = text := rfl

/-- As many bytes are ahead as the text has behind the position. -/
lemma length_rest (r : Reader) : r.rest.length = r.text.length - r.pos := by simp [rest]

/-- The bytes from the reader's position on, by index. -/
lemma getElem?_pos_add (r : Reader) (i : ℕ) : r.text[r.pos + i]? = r.rest[i]? := by
  simp [rest]

/-- The byte at the reader's position. -/
lemma getElem?_pos (r : Reader) : r.text[r.pos]? = r.rest.head? := by
  rw [List.head?_eq_getElem?, ← getElem?_pos_add, Nat.add_zero]

/-- The checks `pos_ + n > text_.size()` ask whether fewer than `n` bytes are left. -/
lemma lt_pos_add_iff (r : Reader) {n : ℕ} (hn : 0 < n) :
    r.pos + n > r.text.length ↔ r.rest.length < n := by
  rw [length_rest]; omega

/-- `text_.substr(pos_, n)` is what the next `n` bytes are. -/
lemma take_drop_of {r : Reader} {u t : Bytes} (h : r.rest = u ++ t) :
    (r.text.drop r.pos).take u.length = u := by
  rw [← rest, h, List.take_left]

/-! ## Whitespace -/

/-- `skip_whitespace` goes past the blanks. -/
lemma skipWhitespace_of {r : Reader} {w t : Bytes} (h : r.rest = w ++ t) (hw : Blank w)
    (ht : ∀ b ∈ t.head?, isSpace b = false) : r.skipWhitespace = r.adv w.length := by
  rw [skipWhitespace, advanceWhile_of h hw ht, adv]

/-- The text before a reader is blanks and then something that is not blank. -/
lemma exists_blank (r : Reader) :
    ∃ w t, Blank w ∧ r.rest = w ++ t ∧ (∀ b ∈ t.head?, isSpace b = false) := by
  refine ⟨r.rest.takeWhile isSpace, r.rest.dropWhile isSpace, fun b hb => ?_,
    List.takeWhile_append_dropWhile.symm, fun b hb => ?_⟩
  · exact List.mem_takeWhile_imp hb
  · have h := List.head?_dropWhile_not isSpace r.rest
    rw [Option.mem_def.mp hb] at h
    simpa using h

/-- `peek` finds the byte after the blanks. -/
lemma peek_of {r : Reader} {w t : Bytes} {c : UInt8} (h : r.rest = w ++ c :: t) (hw : Blank w)
    (hc : isSpace c = false) : r.peek = (some c, r.adv w.length) := by
  rw [peek, skipWhitespace_of h hw (by simpa using hc), getElem?_pos, rest_adv_of h]
  rfl

/-- `peek` either runs into the end of the text or finds a byte that is not blank. -/
lemma peek_cases (r : Reader) :
    (∃ w, Blank w ∧ r.rest = w ∧ r.peek = (none, r.adv w.length)) ∨
    ∃ w c t, Blank w ∧ isSpace c = false ∧ r.rest = w ++ c :: t ∧
      r.peek = (some c, r.adv w.length) := by
  obtain ⟨w, t, hw, h, ht⟩ := r.exists_blank
  cases t with
  | nil =>
    left
    refine ⟨w, hw, by simpa using h, ?_⟩
    rw [peek, skipWhitespace_of h hw ht, getElem?_pos, rest_adv_of h]
    rfl
  | cons c t => exact Or.inr ⟨w, c, t, hw, ht c rfl, h, peek_of h hw (ht c rfl)⟩

/-! ## Structural bytes -/

/-- `expect` passes the byte it expects. -/
lemma expect_of {r : Reader} {w t : Bytes} {c : UInt8} (h : r.rest = w ++ c :: t) (hw : Blank w)
    (hc : isSpace c = false) : r.expect c = .ok (r.adv (w.length + 1)) := by
  simp [expect, peek_of h hw hc, adv, Nat.add_assoc]

/-- `expect` passes nothing else. -/
lemma expect_ok {r r' : Reader} {c : UInt8} (h : r.expect c = .ok r') :
    ∃ w t, Blank w ∧ r.rest = w ++ c :: t ∧ r' = r.adv (w.length + 1) := by
  rcases r.peek_cases with ⟨w, -, -, hp⟩ | ⟨w, d, t, hw, -, hr, hp⟩
  · simp [expect, hp, fail] at h
  · simp only [expect, hp] at h
    split_ifs at h with hd
    · rw [fail] at h
      cases h
    · simp only [Except.ok.injEq] at h
      obtain rfl : d = c := by simpa using hd
      exact ⟨w, t, hw, hr, by rw [← h]; simp [adv, Nat.add_assoc]⟩

/-- What `expect` refuses, it refuses legibly. -/
lemma expect_error {r : Reader} {c : UInt8} (hc : 0x20 ≤ c ∧ c < 0x7F) {f : Failure}
    (h : r.expect c = .error f) : f.Plain := by
  have hmsg : ∀ t : Bytes, (∀ b ∈ t, 0x20 ≤ b ∧ b < 0x7F) → t.length ≤ 40 →
      Legible (bytes "expected '" ++ [c] ++ t) := by
    intro t ht hlen
    have hlen' : (bytes "expected '").length = 10 := by decide
    refine ⟨by simp, by simp only [List.length_append, List.length_singleton]; omega, ?_⟩
    intro b hb
    simp only [List.mem_append, List.mem_singleton] at hb
    rcases hb with (hb | rfl) | hb
    · exact (by decide : ∀ b ∈ bytes "expected '", 0x20 ≤ b ∧ b < 0x7F) b hb
    · exact hc
    · exact ht b hb
  rcases r.peek_cases with ⟨w, -, -, hp⟩ | ⟨w, d, t, -, -, -, hp⟩
  · rw [expect, hp] at h
    exact plain_of_fail (hmsg _ (by decide) (by decide)) h
  · rw [expect, hp] at h
    simp only at h
    split_ifs at h with hd
    have hl := hmsg (bytes "', got byte 0x") (by decide) (by decide)
    refine plain_of_fail (legible_append_hexByte hl ?_ d) h
    have hlen : (bytes "expected '").length = 10 ∧ (bytes "', got byte 0x").length = 14 := by
      decide
    simp only [List.length_append, List.length_singleton]
    omega

end Reader

end Hotpath.Json
