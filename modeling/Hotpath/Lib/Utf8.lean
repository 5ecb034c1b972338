import Mathlib.Data.List.Basic
import Mathlib.Data.Nat.Notation
import Mathlib.Tactic.SplitIfs

set_option relaxedAutoImplicit false
set_option autoImplicit false

/-!
# UTF-8 as a byte language

A Unicode scalar value is a `Char`, and its encoding is `String.utf8EncodeChar`. This file
relates that encoding to the table of well-formed byte sequences that validators are written
from: a lead byte, a range for the second byte that depends on the lead, and tail bytes.

## Main definitions

* `Utf8.bytes` — the bytes of a text literal.
* `Utf8.encode`, `Utf8.Valid` — the encoding of a list of scalar values, and the byte strings
  that are one.
* `Utf8.Multibyte` — the rows of the table beyond ASCII.

## Main results

* `Utf8.multibyte_iff` — a byte sequence is in the table exactly when it encodes one scalar
  value beyond ASCII.
* `Utf8.Valid.split`, `Utf8.Valid.drop_ascii` — a valid text splits at an ASCII byte.
-/

namespace Utf8

/-- The UTF-8 encoding of a list of Unicode scalar values. -/
def encode (cs : List Char) : List UInt8 := cs.flatMap String.utf8EncodeChar

/-- What holds of every byte of a text is decided along the text, not over all 256 bytes. -/
instance (priority := 2000) decidableForallMem (s : List UInt8) (p : UInt8 → Prop)
    [DecidablePred p] : Decidable (∀ b ∈ s, p b) := List.decidableBAll p s

/-- The bytes of a text literal. -/
def bytes (s : String) : List UInt8 := s.toUTF8.data.toList

/-- A byte string is valid UTF-8 when it encodes some list of scalar values. -/
def Valid (s : List UInt8) : Prop := ∃ cs, encode cs = s

/-- The well-formed sequences of two, three and four bytes, row by row. -/
inductive Multibyte : List UInt8 → Prop
  | two {a b : UInt8} (ha : 0xC2 ≤ a) (ha' : a ≤ 0xDF) (hb : 0x80 ≤ b) (hb' : b ≤ 0xBF) :
      Multibyte [a, b]
  | three {a b c : UInt8} (ha : 0xE0 ≤ a) (ha' : a ≤ 0xEF) (hb : 0x80 ≤ b) (hb' : b ≤ 0xBF)
      (hE0 : a = 0xE0 → 0xA0 ≤ b) (hED : a = 0xED → b ≤ 0x9F) (hc : 0x80 ≤ c) (hc' : c ≤ 0xBF) :
      Multibyte [a, b, c]
  | four {a b c d : UInt8} (ha : 0xF0 ≤ a) (ha' : a ≤ 0xF4) (hb : 0x80 ≤ b) (hb' : b ≤ 0xBF)
      (hF0 : a = 0xF0 → 0x90 ≤ b) (hF4 : a = 0xF4 → b ≤ 0x8F) (hc : 0x80 ≤ c) (hc' : c ≤ 0xBF)
      (hd : 0x80 ≤ d) (hd' : d ≤ 0xBF) : Multibyte [a, b, c, d]

/-! ## Encodings of lists -/

/-- No characters have no bytes. -/
@[simp] lemma encode_nil : encode [] = [] := rfl

/-- The bytes of the first character come first. -/
@[simp] lemma encode_cons (c : Char) (cs : List Char) :
    encode (c :: cs) = String.utf8EncodeChar c ++ encode cs := rfl

/-- The bytes of two texts in a row stand in a row. -/
@[simp] lemma encode_append (cs ds : List Char) : encode (cs ++ ds) = encode cs ++ encode ds := by
  simp [encode]

/-- The empty string is valid. -/
lemma valid_nil : Valid [] := ⟨[], rfl⟩

/-- Valid strings concatenate. -/
lemma Valid.append {s t : List UInt8} (hs : Valid s) (ht : Valid t) : Valid (s ++ t) := by
  obtain ⟨cs, rfl⟩ := hs
  obtain ⟨ds, rfl⟩ := ht
  exact ⟨cs ++ ds, encode_append cs ds⟩

/-- An encoding is valid. -/
lemma valid_encode (cs : List Char) : Valid (encode cs) := ⟨cs, rfl⟩

/-- The number of the scalar value numbered `n`. -/
lemma toNat_ofNat {n : ℕ} (h : n.isValidChar) : (Char.ofNat n).toNat = n := by
  rw [Char.ofNat, dif_pos h]
  rfl

/-- The scalar value of an ASCII byte. -/
def ascii (b : UInt8) : Char := Char.ofNat b.toNat

/-- Every byte is a scalar value's number. -/
@[simp] lemma toNat_ascii (b : UInt8) : (ascii b).toNat = b.toNat := by
  have h := b.toNat_lt
  exact toNat_ofNat (Or.inl (by omega))

/-- A scalar value below `0x80` is encoded by the byte with its number. -/
lemma utf8EncodeChar_of_lt {c : Char} (h : c.toNat < 0x80) :
    String.utf8EncodeChar c = [UInt8.ofNat c.toNat] := by
  unfold String.utf8EncodeChar
  simp only [Char.toNat_val]
  rw [if_pos (by omega)]

/-- An ASCII byte is the encoding of its scalar value. -/
lemma utf8EncodeChar_ascii {b : UInt8} (h : b < 0x80) : String.utf8EncodeChar (ascii b) = [b] := by
  rw [UInt8.lt_iff_toNat_lt] at h
  rw [utf8EncodeChar_of_lt (by rw [toNat_ascii]; exact h), toNat_ascii, UInt8.ofNat_toNat]

/-- A string of ASCII bytes encodes the scalar values of its bytes. -/
lemma encode_map_ascii {s : List UInt8} (h : ∀ b ∈ s, b < 0x80) : encode (s.map ascii) = s := by
  induction s with
  | nil => rfl
  | cons b s ih =>
    rw [List.map_cons, encode_cons, utf8EncodeChar_ascii (h b (by simp)),
      ih fun c hc => h c (by simp [hc])]
    rfl

/-- A string of ASCII bytes is valid. -/
lemma valid_of_ascii {s : List UInt8} (h : ∀ b ∈ s, b < 0x80) : Valid s :=
  ⟨s.map ascii, encode_map_ascii h⟩

/-! ## The table of well-formed sequences -/

/-- The numbers of the scalar values. -/
lemma toNat_range (c : Char) : c.toNat < 0xD800 ∨ 0xDFFF < c.toNat ∧ c.toNat < 0x110000 :=
  c.valid

/-- A scalar value beyond ASCII is encoded by a row of the table.

**Proof sketch.** By the three size classes; each bound on a byte is a bound on a quotient or
a remainder of the scalar value's number. -/
theorem multibyte_encodeChar {c : Char} (h : 0x80 ≤ c.toNat) :
    Multibyte (String.utf8EncodeChar c) := by
  have hr := toNat_range c
  unfold String.utf8EncodeChar
  simp only [Char.toNat_val]
  split_ifs with h1 h2 h3
  · omega
  · apply Multibyte.two <;> rw [UInt8.le_iff_toNat_le] <;> simp <;> omega
  · apply Multibyte.three <;> simp only [UInt8.le_iff_toNat_le, ← UInt8.toNat_inj] <;> simp <;>
      omega
  · apply Multibyte.four <;> simp only [UInt8.le_iff_toNat_le, ← UInt8.toNat_inj] <;> simp <;>
      omega

/-- A row of the table encodes a scalar value beyond ASCII.

**Proof sketch.** Assemble the number from the payload bits of the bytes. The bounds of the
row keep it at or above the least number of its size class and out of the surrogate range, so
it is a scalar value, and its quotients and remainders are the payloads again. -/
theorem Multibyte.exists_char {bs : List UInt8} (h : Multibyte bs) :
    ∃ c : Char, 0x80 ≤ c.toNat ∧ String.utf8EncodeChar c = bs := by
  cases h with
  | @two a b ha ha' hb hb' =>
    simp only [UInt8.le_iff_toNat_le, UInt8.reduceToNat] at ha ha' hb hb'
    obtain ⟨v, hv⟩ : ∃ v, v = (a.toNat - 0xC0) * 64 + (b.toNat - 0x80) := ⟨_, rfl⟩
    have hc : (Char.ofNat v).toNat = v := toNat_ofNat (Or.inl (by omega))
    refine ⟨Char.ofNat v, by omega, ?_⟩
    unfold String.utf8EncodeChar
    simp only [Char.toNat_val, hc]
    rw [if_neg (by omega), if_pos (by omega)]
    simp only [List.cons.injEq, ← UInt8.toNat_inj, UInt8.toNat_ofNat', and_true]
    omega
  | @three a b c ha ha' hb hb' hE0 hED hc hc' =>
    simp only [UInt8.le_iff_toNat_le, UInt8.reduceToNat, ← UInt8.toNat_inj]
      at ha ha' hb hb' hE0 hED hc hc'
    obtain ⟨v, hv⟩ : ∃ v, v = (a.toNat - 0xE0) * 4096 + (b.toNat - 0x80) * 64 +
        (c.toNat - 0x80) := ⟨_, rfl⟩
    have hch : (Char.ofNat v).toNat = v := toNat_ofNat (by unfold Nat.isValidChar; omega)
    refine ⟨Char.ofNat v, by omega, ?_⟩
    unfold String.utf8EncodeChar
    simp only [Char.toNat_val, hch]
    rw [if_neg (by omega), if_neg (by omega), if_pos (by omega)]
    simp only [List.cons.injEq, ← UInt8.toNat_inj, UInt8.toNat_ofNat', and_true]
    omega
  | @four a b c d ha ha' hb hb' hF0 hF4 hc hc' hd hd' =>
    simp only [UInt8.le_iff_toNat_le, UInt8.reduceToNat, ← UInt8.toNat_inj]
      at ha ha' hb hb' hF0 hF4 hc hc' hd hd'
    obtain ⟨v, hv⟩ : ∃ v, v = (a.toNat - 0xF0) * 262144 + (b.toNat - 0x80) * 4096 +
        (c.toNat - 0x80) * 64 + (d.toNat - 0x80) := ⟨_, rfl⟩
    have hch : (Char.ofNat v).toNat = v := toNat_ofNat (by unfold Nat.isValidChar; omega)
    refine ⟨Char.ofNat v, by omega, ?_⟩
    unfold String.utf8EncodeChar
    simp only [Char.toNat_val, hch]
    rw [if_neg (by omega), if_neg (by omega), if_neg (by omega)]
    simp only [List.cons.injEq, ← UInt8.toNat_inj, UInt8.toNat_ofNat', and_true]
    omega

/-- **The table is the encoding**: a byte sequence is a row of the table exactly when it
encodes one scalar value beyond ASCII. -/
theorem multibyte_iff {bs : List UInt8} :
    Multibyte bs ↔ ∃ c : Char, 0x80 ≤ c.toNat ∧ String.utf8EncodeChar c = bs := by
  refine ⟨fun h => h.exists_char, ?_⟩
  rintro ⟨c, hc, rfl⟩
  exact multibyte_encodeChar hc

/-- Every byte of a sequence of the table is beyond ASCII. -/
lemma Multibyte.le_of_mem {bs : List UInt8} (h : Multibyte bs) : ∀ b ∈ bs, 0x80 ≤ b := by
  intro x hx
  cases h <;> simp only [List.mem_cons, List.not_mem_nil, or_false] at hx <;>
    simp only [UInt8.le_iff_toNat_le, UInt8.reduceToNat] at * <;>
    rcases hx with rfl | rfl | rfl | rfl <;> omega

/-! ## Splitting a valid text -/

/-- The encoding of a scalar value is a row of the table, or one ASCII byte. -/
lemma encodeChar_cases (c : Char) :
    (∃ b : UInt8, b < 0x80 ∧ String.utf8EncodeChar c = [b]) ∨
      Multibyte (String.utf8EncodeChar c) := by
  rcases Nat.lt_or_ge c.toNat 0x80 with h | h
  · refine Or.inl ⟨UInt8.ofNat c.toNat, ?_, utf8EncodeChar_of_lt h⟩
    rw [UInt8.lt_iff_toNat_lt, UInt8.toNat_ofNat']
    simp only [UInt8.reduceToNat]
    omega
  · exact Or.inr (multibyte_encodeChar h)

/-- **A valid text splits before an ASCII byte**, since no encoding has one after its first
byte. -/
lemma Valid.split {s t : List UInt8} {b : UInt8} (h : Valid (s ++ b :: t)) (hb : b < 0x80) :
    Valid s ∧ Valid (b :: t) := by
  obtain ⟨cs, hcs⟩ := h
  induction cs generalizing s with
  | nil => simp at hcs
  | cons c cs ih =>
    rw [encode_cons] at hcs
    rcases List.append_eq_append_iff.mp hcs with ⟨u, rfl, hu⟩ | ⟨u, hu, hcs'⟩
    · obtain ⟨hs, ht⟩ := ih hu
      have hc : Valid (String.utf8EncodeChar c) := ⟨[c], by simp⟩
      exact ⟨hc.append hs, ht⟩
    · cases u with
      | nil =>
        rw [List.append_nil] at hu
        exact ⟨⟨[c], by simp [hu]⟩, ⟨cs, hcs'.symm⟩⟩
      | cons x u =>
        obtain ⟨rfl, -⟩ := List.cons.inj hcs'
        have hmem : b ∈ String.utf8EncodeChar c := by simp [hu]
        rcases encodeChar_cases c with ⟨y, hy, henc⟩ | hmulti
        · rw [henc] at hu
          obtain ⟨rfl, hx⟩ : s = [] ∧ [y] = b :: u := by
            cases s with
            | nil => exact ⟨rfl, hu⟩
            | cons z s => simp at hu
          exact ⟨valid_nil, ⟨c :: cs, by rw [encode_cons, hcs, List.nil_append]⟩⟩
        · exact absurd (hmulti.le_of_mem b hmem) (UInt8.not_le.mpr hb)

/-- A valid text that starts with an ASCII byte is valid after it. -/
lemma Valid.tail {b : UInt8} {t : List UInt8} (h : Valid (b :: t)) (hb : b < 0x80) : Valid t := by
  obtain ⟨cs, hcs⟩ := h
  cases cs with
  | nil => simp at hcs
  | cons c cs =>
    rw [encode_cons] at hcs
    rcases encodeChar_cases c with ⟨y, -, henc⟩ | hmulti
    · rw [henc] at hcs
      exact ⟨cs, (List.cons.inj hcs).2⟩
    · cases hu : String.utf8EncodeChar c with
      | nil =>
        rw [hu] at hmulti
        cases hmulti
      | cons x u =>
        rw [hu] at hcs hmulti
        obtain ⟨rfl, -⟩ := List.cons.inj hcs
        exact absurd (hmulti.le_of_mem x (by simp)) (UInt8.not_le.mpr hb)

/-- ASCII before a valid text makes no difference. -/
lemma Valid.drop_ascii {s t : List UInt8} (hs : ∀ b ∈ s, b < 0x80) (h : Valid (s ++ t)) :
    Valid t := by
  induction s with
  | nil => exact h
  | cons b s ih =>
    exact ih (fun x hx => hs x (List.mem_cons_of_mem b hx)) (h.tail (hs b (by simp)))

/-- A valid text beyond ASCII at its first byte starts with a row of the table. -/
lemma Valid.exists_multibyte {b : UInt8} {t : List UInt8} (h : Valid (b :: t)) (hb : 0x80 ≤ b) :
    ∃ u v, Multibyte u ∧ b :: t = u ++ v ∧ Valid v := by
  obtain ⟨cs, hcs⟩ := h
  cases cs with
  | nil => simp at hcs
  | cons c cs =>
    rw [encode_cons] at hcs
    rcases encodeChar_cases c with ⟨y, hy, henc⟩ | hmulti
    · rw [henc] at hcs
      obtain ⟨rfl, -⟩ := List.cons.inj hcs
      exact absurd hb (UInt8.not_le.mpr hy)
    · exact ⟨_, _, hmulti, hcs.symm, ⟨cs, rfl⟩⟩

end Utf8
