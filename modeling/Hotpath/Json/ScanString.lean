import Hotpath.Json.Cursor

set_option relaxedAutoImplicit false
set_option autoImplicit false

/-!
# The string scanner reads the string tokens

`scan_string` returns exactly the string tokens of `JsonText.StringToken`, decoded to UTF-8.
One iteration of its loop passes one spelled character; an iteration that leaves the loop is
at the closing quote or at bytes that spell no character.

## Main results

* `stringBody_item`, `stringBody_cases` — one iteration, forward and by inversion.
* `Reader.scanString_of` — a string token is scanned.
* `Reader.scanString_ok` — what is scanned is such a token.
* `Reader.scanString_error` — the scanner's errors are legible and quote nothing.
* `Reader.scanString_accepts_exactly` — the language of the scanner and its meaning.
-/

namespace Hotpath.Json

open JsonText
open Utf8 (bytes encode Multibyte)

/-! ## Code points -/

/-- Setting payload bits under a lead's marker bits is adding them. -/
private lemma or_eq_add {i a b : ℕ} (h : b < 2 ^ i) : (a * 2 ^ i) ||| b = a * 2 ^ i + b := by
  rw [← Nat.shiftLeft_eq, Nat.shiftLeft_add_eq_or_of_lt h]

/-- `append_utf8` appends the encoding of a scalar value. -/
lemma appendUtf8_toNat (out : Bytes) (c : Char) :
    appendUtf8 out c.toNat = out ++ String.utf8EncodeChar c := by
  have hr := Utf8.toNat_range c
  have hlow : ∀ x : ℕ, 0x80 ||| x &&& 0x3F = x % 64 + 128 := by
    intro x
    rw [show x &&& 0x3F = x % 64 from Nat.and_two_pow_sub_one_eq_mod x 6]
    have h : 0x80 ||| x % 64 = 0x80 + x % 64 := or_eq_add (i := 6) (a := 2) (by omega)
    rw [h, Nat.add_comm]
  have hlead : ∀ i a b : ℕ, b < 2 ^ i → a * 2 ^ i ||| b = b + a * 2 ^ i := by
    intro i a b h
    rw [or_eq_add h, Nat.add_comm]
  unfold appendUtf8 String.utf8EncodeChar
  simp only [Char.toNat_val, hlow, Nat.shiftRight_eq_div_pow, Nat.reducePow]
  rcases Nat.lt_or_ge c.toNat 0x80 with h1 | h1
  · rw [if_pos h1, if_pos (by omega)]
  · rcases Nat.lt_or_ge c.toNat 0x800 with h2 | h2
    · have h : 0xC0 ||| c.toNat / 64 = c.toNat / 64 + 192 := hlead 5 6 _ (by omega)
      rw [if_neg (by omega), if_pos h2, if_neg (by omega), if_pos (by omega), h,
        Nat.mod_eq_of_lt (b := 32) (by omega)]
    · rcases Nat.lt_or_ge c.toNat 0x10000 with h3 | h3
      · have h : 0xE0 ||| c.toNat / 4096 = c.toNat / 4096 + 224 := hlead 4 14 _ (by omega)
        rw [if_neg (by omega), if_neg (by omega), if_pos h3, if_neg (by omega),
          if_neg (by omega), if_pos (by omega), h, Nat.mod_eq_of_lt (b := 16) (by omega)]
      · have h : 0xF0 ||| c.toNat / 262144 = c.toNat / 262144 + 240 := hlead 3 30 _ (by omega)
        rw [if_neg (by omega), if_neg (by omega), if_neg (by omega), if_neg (by omega),
          if_neg (by omega), if_neg (by omega), h, Nat.mod_eq_of_lt (b := 8) (by omega)]

/-- The digits `read_hex4` takes are the hexadecimal digits. -/
lemma hexDigitOf_eq (b : UInt8) : Reader.hexDigitOf b = hexDigit b := by
  simp only [Reader.hexDigitOf, hexDigit, isDigit_iff]

/-- A hexadecimal digit is below sixteen. -/
lemma lt_of_hexDigit {b : UInt8} {v : ℕ} (h : hexDigit b = some v) : v < 16 := by
  unfold hexDigit at h
  simp only [UInt8.le_iff_toNat_le, UInt8.reduceToNat] at h
  split_ifs at h <;> simp only [Option.some.injEq] at h <;> omega

/-- Four hexadecimal digits are below `0x10000`. -/
lemma lt_of_hexQuad {a b c d : UInt8} {v : ℕ} (h : hexQuad a b c d = some v) : v < 0x10000 := by
  simp only [hexQuad, bind, Option.bind_eq_some_iff, Option.some.injEq] at h
  obtain ⟨x, hx, y, hy, z, hz, u, hu, rfl⟩ := h
  have := lt_of_hexDigit hx
  have := lt_of_hexDigit hy
  have := lt_of_hexDigit hz
  have := lt_of_hexDigit hu
  omega

namespace Reader

/-- An index inside the text before a reader. -/
lemma byteAt_of {r : Reader} {i : ℕ} {b : UInt8} (h : r.rest[i]? = some b) :
    r.byteAt (r.pos + i) = .ok b := by
  rw [byteAt, getElem?_pos_add, h]

/-- The byte at the reader itself. -/
lemma byteAt_pos {r : Reader} {b : UInt8} {t : Bytes} (h : r.rest = b :: t) :
    r.byteAt r.pos = .ok b := byteAt_of (i := 0) (by rw [h]; rfl)

/-- The loop of `read_hex4` takes one digit in, or ends where there is none. -/
private lemma hexLoop_succ {r : Reader} {n i v : ℕ} {b : UInt8} (h : r.rest[i]? = some b) :
    hexLoop r (n + 1) i v =
      match hexDigit b with
      | none => .ok none
      | some d => hexLoop r n (i + 1) (v * 16 + d) := by
  rw [hexLoop, byteAt_of h, ok_bind, hexDigitOf_eq]
  cases hd : hexDigit b with
  | none => rfl
  | some d =>
    have := lt_of_hexDigit hd
    simp only
    rw [← Nat.shiftLeft_add_eq_or_of_lt (i := 4) (by omega), Nat.shiftLeft_eq]

/-- `read_hex4` on four bytes. -/
lemma readHex4_of {r : Reader} {a b c d : UInt8} {t : Bytes} (h : r.rest = a :: b :: c :: d :: t) :
    r.readHex4 = .ok ((hexQuad a b c d).map fun v => (v, r.adv 4)) := by
  have hlen : ¬ r.pos + 4 > r.text.length := by
    rw [lt_pos_add_iff r (by decide), h]
    simp
  rw [readHex4, if_neg hlen, hexLoop_succ (b := a) (by rw [h]; rfl)]
  cases ha : hexDigit a with
  | none => simp [hexQuad, ha]
  | some a' =>
    simp only
    rw [hexLoop_succ (b := b) (by rw [h]; rfl)]
    cases hb : hexDigit b with
    | none => simp [hexQuad, ha, hb]
    | some b' =>
      simp only
      rw [hexLoop_succ (b := c) (by rw [h]; rfl)]
      cases hc : hexDigit c with
      | none => simp [hexQuad, ha, hb, hc]
      | some c' =>
        simp only
        rw [hexLoop_succ (b := d) (by rw [h]; rfl)]
        cases hd : hexDigit d with
        | none => simp [hexQuad, ha, hb, hc, hd]
        | some d' => simp [hexQuad, ha, hb, hc, hd, hexLoop, adv]

/-- `read_hex4` finds four digits or says no. -/
lemma readHex4_cases (r : Reader) :
    r.readHex4 = .ok none ∨
      ∃ a b c d t v, r.rest = a :: b :: c :: d :: t ∧ hexQuad a b c d = some v ∧
        r.readHex4 = .ok (some (v, r.adv 4)) := by
  by_cases hlen : r.pos + 4 > r.text.length
  · left
    rw [readHex4, if_pos hlen]
  · rw [lt_pos_add_iff r (by decide)] at hlen
    obtain ⟨a, b, c, d, t, h⟩ : ∃ a b c d t, r.rest = a :: b :: c :: d :: t := by
      rcases hr : r.rest with _ | ⟨a, _ | ⟨b, _ | ⟨c, _ | ⟨d, t⟩⟩⟩⟩ <;> simp [hr] at hlen ⊢
    have hq := readHex4_of h
    cases hv : hexQuad a b c d with
    | none => left; rw [hq, hv]; rfl
    | some v => right; exact ⟨a, b, c, d, t, v, h, hv, by rw [hq, hv]; rfl⟩

/-- The low surrogate of a pair. -/
lemma readLowSurrogate_of {r : Reader} {a b c d : UInt8} {t : Bytes} {lo : ℕ}
    (h : r.rest = 0x5C :: 0x75 :: a :: b :: c :: d :: t) (hv : hexQuad a b c d = some lo)
    (hlo₁ : 0xDC00 ≤ lo) (hlo₂ : lo ≤ 0xDFFF) : r.readLowSurrogate = .ok (lo, r.adv 6) := by
  have hlen : ¬ r.pos + 2 > r.text.length := by
    rw [lt_pos_add_iff r (by decide), h]
    simp
  have hrest : (r.adv 2).rest = a :: b :: c :: d :: t := by rw [rest_adv, h]; rfl
  have hhex := readHex4_of hrest
  rw [adv] at hhex
  rw [readLowSurrogate, if_neg hlen, byteAt_pos h, byteAt_of (i := 1) (by rw [h]; rfl)]
  simp only [ok_bind, ne_eq, not_true_eq_false, or_self, if_false, hhex, hv, Option.map_some]
  rw [if_neg (by omega)]
  simp [adv, Nat.add_assoc]

/-- What `readLowSurrogate` passes is a low surrogate. -/
lemma readLowSurrogate_ok {r r' : Reader} {lo : ℕ} (h : r.readLowSurrogate = .ok (lo, r')) :
    ∃ a b c d t, r.rest = 0x5C :: 0x75 :: a :: b :: c :: d :: t ∧ hexQuad a b c d = some lo ∧
      0xDC00 ≤ lo ∧ lo ≤ 0xDFFF ∧ r' = r.adv 6 := by
  rw [readLowSurrogate] at h
  split_ifs at h with hlen
  · simp at h
  · rw [lt_pos_add_iff r (by decide)] at hlen
    obtain ⟨x, y, t₁, hr⟩ : ∃ x y t, r.rest = x :: y :: t := by
      rcases hr : r.rest with _ | ⟨x, _ | ⟨y, t⟩⟩ <;> simp [hr] at hlen ⊢
    rw [byteAt_pos hr, byteAt_of (i := 1) (by rw [hr]; rfl)] at h
    simp only [ok_bind] at h
    split_ifs at h with hxy
    · simp at h
    · obtain ⟨rfl, rfl⟩ : x = 0x5C ∧ y = 0x75 := by simpa using hxy
      have hrest : ({ r with pos := r.pos + 2 } : Reader).rest = t₁ := by
        have := rest_adv r 2
        rw [hr] at this
        exact this
      rcases readHex4_cases { r with pos := r.pos + 2 } with hh | ⟨a, b, c, d, t, v, hr₂, hv, hh⟩
      · simp [hh] at h
      · rw [hh] at h
        simp only [ok_bind] at h
        split_ifs at h with hlo
        · simp at h
        · simp only [Except.ok.injEq, Prod.mk.injEq] at h
          obtain ⟨rfl, rfl⟩ := h
          refine ⟨a, b, c, d, t, by rw [hr, ← hrest, hr₂], hv, by omega, by omega, ?_⟩
          simp [adv, Nat.add_assoc]

/-- The errors of `readLowSurrogate`. -/
lemma readLowSurrogate_error {r : Reader} {f : Failure} (h : r.readLowSurrogate = .error f) :
    f.Plain := by
  rw [readLowSurrogate] at h
  split_ifs at h with hlen
  · exact plain_of_fail (by decide) h
  · rw [lt_pos_add_iff r (by decide)] at hlen
    obtain ⟨x, y, t₁, hr⟩ : ∃ x y t, r.rest = x :: y :: t := by
      rcases hr : r.rest with _ | ⟨x, _ | ⟨y, t⟩⟩ <;> simp [hr] at hlen ⊢
    rw [byteAt_pos hr, byteAt_of (i := 1) (by rw [hr]; rfl)] at h
    simp only [ok_bind] at h
    split_ifs at h
    · exact plain_of_fail (by decide) h
    · rcases readHex4_cases { r with pos := r.pos + 2 } with hh | ⟨a, b, c, d, t, v, -, -, hh⟩
      · rw [hh] at h
        exact plain_of_fail (by decide) h
      · rw [hh] at h
        simp only [ok_bind] at h
        split_ifs at h
        exact plain_of_fail (by decide) h

/-- Four hexadecimal digits of a scalar value append its encoding. -/
lemma appendCodePoint_hex {r : Reader} {out : Bytes} {h₁ h₂ h₃ h₄ : UInt8} {t : Bytes} {c : Char}
    (h : r.rest = h₁ :: h₂ :: h₃ :: h₄ :: t) (hv : hexQuad h₁ h₂ h₃ h₄ = some c.toNat) :
    r.appendCodePoint out = .ok (out ++ String.utf8EncodeChar c, r.adv 4) := by
  have hr := Utf8.toNat_range c
  rw [appendCodePoint, readHex4_of h, hv]
  simp only [ok_bind, Option.map_some]
  rw [if_neg (by omega), if_neg (by omega), appendUtf8_toNat]

/-- A surrogate pair appends the encoding of the value it stands for. -/
lemma appendCodePoint_pair {r : Reader} {out : Bytes} {h₁ h₂ h₃ h₄ l₁ l₂ l₃ l₄ : UInt8}
    {t : Bytes} {hi lo : ℕ} {c : Char}
    (h : r.rest = h₁ :: h₂ :: h₃ :: h₄ :: 0x5C :: 0x75 :: l₁ :: l₂ :: l₃ :: l₄ :: t)
    (hhi : hexQuad h₁ h₂ h₃ h₄ = some hi) (hlo : hexQuad l₁ l₂ l₃ l₄ = some lo)
    (hhi₁ : 0xD800 ≤ hi) (hhi₂ : hi ≤ 0xDBFF) (hlo₁ : 0xDC00 ≤ lo) (hlo₂ : lo ≤ 0xDFFF)
    (hc : c.toNat = 0x10000 + (hi - 0xD800) * 0x400 + (lo - 0xDC00)) :
    r.appendCodePoint out = .ok (out ++ String.utf8EncodeChar c, r.adv 10) := by
  have hrest : (r.adv 4).rest = 0x5C :: 0x75 :: l₁ :: l₂ :: l₃ :: l₄ :: t := by
    rw [rest_adv, h]
    rfl
  rw [appendCodePoint, readHex4_of h, hhi]
  simp only [ok_bind, Option.map_some]
  rw [if_neg (by omega), if_pos ⟨hhi₁, hhi₂⟩, readLowSurrogate_of hrest hlo hlo₁ hlo₂, ok_bind,
    Nat.shiftLeft_eq, ← appendUtf8_toNat, hc]
  simp

/-- What `appendCodePoint` passes is the digits of a scalar value, or a surrogate pair. -/
lemma appendCodePoint_ok {r r' : Reader} {out out' : Bytes}
    (h : r.appendCodePoint out = .ok (out', r')) :
    ∃ u c t, Item (0x5C :: 0x75 :: u) c ∧ r.rest = u ++ t ∧ r' = r.adv u.length ∧
      out' = out ++ String.utf8EncodeChar c := by
  have hok := h
  rw [appendCodePoint] at h
  rcases readHex4_cases r with hh | ⟨h₁, h₂, h₃, h₄, t, v, hr, hv, hh⟩
  · simp [hh] at h
  · rw [hh] at h
    simp only [ok_bind] at h
    split_ifs at h with hlow hhigh
    · simp at h
    · obtain ⟨⟨lo, r₁⟩, hlo, -⟩ := bind_eq_ok.mp h
      obtain ⟨l₁, l₂, l₃, l₄, t', hr', hv', hlo₁, hlo₂, -⟩ := readLowSurrogate_ok hlo
      have ht : t = 0x5C :: 0x75 :: l₁ :: l₂ :: l₃ :: l₄ :: t' := by
        rw [← hr', rest_adv, hr]
        rfl
      subst ht
      have hvalid : (0x10000 + (v - 0xD800) * 0x400 + (lo - 0xDC00)).isValidChar :=
        Or.inr ⟨by omega, by omega⟩
      have hc := Utf8.toNat_ofNat hvalid
      rw [appendCodePoint_pair hr hv hv' hhigh.1 hhigh.2 hlo₁ hlo₂ hc] at hok
      simp only [Except.ok.injEq, Prod.mk.injEq] at hok
      obtain ⟨rfl, rfl⟩ := hok
      exact ⟨[h₁, h₂, h₃, h₄, 0x5C, 0x75, l₁, l₂, l₃, l₄], _, t',
        Item.pair hv hv' hhigh.1 hhigh.2 hlo₁ hlo₂ hc, by simp [hr], rfl, rfl⟩
    · have hlt := lt_of_hexQuad hv
      have hvalid : v.isValidChar := by
        unfold Nat.isValidChar
        omega
      have hc := Utf8.toNat_ofNat hvalid
      rw [appendCodePoint_hex hr (by rw [hc]; exact hv)] at hok
      simp only [Except.ok.injEq, Prod.mk.injEq] at hok
      obtain ⟨rfl, rfl⟩ := hok
      exact ⟨[h₁, h₂, h₃, h₄], _, t, Item.hex (by rw [hc]; exact hv), by simp [hr], rfl, rfl⟩

/-- The errors of `appendCodePoint`. -/
lemma appendCodePoint_error {r : Reader} {out : Bytes} {f : Failure}
    (h : r.appendCodePoint out = .error f) : f.Plain := by
  rw [appendCodePoint] at h
  rcases readHex4_cases r with hh | ⟨h₁, h₂, h₃, h₄, t, v, -, -, hh⟩
  · rw [hh] at h
    exact plain_of_fail (by decide) h
  · rw [hh] at h
    simp only [ok_bind] at h
    split_ifs at h
    · exact plain_of_fail (by decide) h
    · rcases bind_eq_error.mp h with h | ⟨p, -, h⟩
      · exact readLowSurrogate_error h
      · cases h

/-! ## Escapes -/

/-- `append_escape` by the letter after the backslash. -/
lemma appendEscape_eq {r : Reader} {out : Bytes} {e : UInt8} {t : Bytes} (h : r.rest = e :: t) :
    r.appendEscape out =
      match shortEscape e with
      | some b => .ok (out ++ [b], r.adv 1)
      | none =>
        if e = 0x75 then (r.adv 1).appendCodePoint out
        else fail .malformedJson (bytes "invalid escape: byte 0x" ++ hexByte e) := by
  rw [appendEscape, getElem?_pos, h]
  simp only [List.head?_cons, shortEscape, adv]
  split_ifs <;> rfl

/-- `append_escape` past the end of the text. -/
lemma appendEscape_nil {r : Reader} {out : Bytes} (h : r.rest = []) :
    r.appendEscape out = fail .malformedJson (bytes "unterminated escape sequence") := by
  rw [appendEscape, getElem?_pos, h]
  rfl

/-- The letter `u` is no one-letter escape. -/
private lemma shortEscape_u : shortEscape 0x75 = none := by decide

/-- What `append_escape` passes is what follows the backslash of a spelled character. -/
lemma appendEscape_ok {r r' : Reader} {out out' : Bytes}
    (h : r.appendEscape out = .ok (out', r')) :
    ∃ u c t, Item (0x5C :: u) c ∧ r.rest = u ++ t ∧ r' = r.adv u.length ∧
      out' = out ++ String.utf8EncodeChar c := by
  cases hr : r.rest with
  | nil => simp [appendEscape_nil hr] at h
  | cons e t =>
    rw [appendEscape_eq hr] at h
    cases hs : shortEscape e with
    | some b =>
      simp only [hs, Except.ok.injEq, Prod.mk.injEq] at h
      obtain ⟨rfl, rfl⟩ := h
      have hb : b < 0x80 := by
        unfold shortEscape at hs
        split_ifs at hs with h1 <;> simp only [Option.some.injEq] at hs <;> subst hs
        · rcases h1 with rfl | rfl | rfl <;> decide
        all_goals decide
      exact ⟨[e], _, t, Item.short hs, rfl, rfl, by rw [Utf8.utf8EncodeChar_ascii hb]⟩
    | none =>
      simp only [hs] at h
      split_ifs at h with hu
      · subst hu
        obtain ⟨u, c, t', hi, hr', rfl, rfl⟩ := appendCodePoint_ok h
        rw [rest_adv_one hr] at hr'
        exact ⟨0x75 :: u, c, t', hi, by simp [hr'], by simp [Nat.add_comm], rfl⟩
      · simp at h

/-- The errors of `append_escape`. -/
lemma appendEscape_error {r : Reader} {out : Bytes} {f : Failure}
    (h : r.appendEscape out = .error f) : f.Plain := by
  cases hr : r.rest with
  | nil =>
    rw [appendEscape_nil hr] at h
    exact plain_of_fail (by decide) h
  | cons e t =>
    rw [appendEscape_eq hr] at h
    cases hs : shortEscape e with
    | some b => simp [hs] at h
    | none =>
      simp only [hs] at h
      split_ifs at h
      · exact appendCodePoint_error h
      · exact plain_of_fail (legible_append_hexByte (by decide) (by decide) e) h

/-! ## Sequences beyond ASCII -/

/-- A byte after the first two of a sequence. -/
private lemma tailLoop_succ {r : Reader} {n i : ℕ} {b : UInt8} (h : r.rest[i]? = some b) :
    r.tailLoop (n + 1) (r.pos + i) =
      if 0x80 ≤ b ∧ b ≤ 0xBF then r.tailLoop n (r.pos + (i + 1)) else .ok false := by
  rw [tailLoop, byteAt_of h]
  rfl

/-- `validate_utf8_run` passes a sequence of the table. -/
lemma validateUtf8Run_of {r : Reader} {u t : Bytes} (h : r.rest = u ++ t) (hu : Multibyte u) :
    r.validateUtf8Run = .ok (r.adv u.length) := by
  have hlen : ¬ r.pos + u.length > r.text.length := by
    have hpos : 0 < u.length := by cases hu <;> simp
    rw [lt_pos_add_iff r hpos, h]
    simp
  cases hu with
  | @two a b ha ha' hb hb' =>
    rw [validateUtf8Run, byteAt_pos (b := a) (by rw [h]; rfl), ok_bind, utf8Shape,
      if_pos ⟨ha, ha'⟩]
    simp only [List.length_cons, List.length_nil] at hlen
    simp only [hlen, if_false, byteAt_of (b := b) (i := 1) (by rw [h]; rfl), ok_bind]
    rw [if_neg (not_not.mpr ⟨hb, hb'⟩)]
    rfl
  | @three a b c ha ha' hb hb' hE0 hED hc hc' =>
    have hnot : ¬ (a ≥ 0xC2 ∧ a ≤ 0xDF) := by
      simp only [ge_iff_le, UInt8.le_iff_toNat_le, UInt8.reduceToNat] at *
      omega
    rw [validateUtf8Run, byteAt_pos (b := a) (by rw [h]; rfl), ok_bind, utf8Shape, if_neg hnot,
      if_pos ⟨ha, ha'⟩]
    simp only [List.length_cons, List.length_nil] at hlen
    simp only [hlen, if_false, byteAt_of (b := b) (i := 1) (by rw [h]; rfl), ok_bind]
    rw [if_neg (not_not.mpr ⟨by split_ifs <;> tauto, by split_ifs <;> tauto⟩),
      tailLoop_succ (b := c) (by rw [h]; rfl), if_pos ⟨hc, hc'⟩]
    rfl
  | @four a b c d ha ha' hb hb' hF0 hF4 hc hc' hd hd' =>
    have hnot : ¬ (a ≥ 0xC2 ∧ a ≤ 0xDF) ∧ ¬ (a ≥ 0xE0 ∧ a ≤ 0xEF) := by
      simp only [ge_iff_le, UInt8.le_iff_toNat_le, UInt8.reduceToNat] at *
      omega
    rw [validateUtf8Run, byteAt_pos (b := a) (by rw [h]; rfl), ok_bind, utf8Shape,
      if_neg hnot.1, if_neg hnot.2, if_pos ⟨ha, ha'⟩]
    simp only [List.length_cons, List.length_nil] at hlen
    simp only [hlen, if_false, byteAt_of (b := b) (i := 1) (by rw [h]; rfl), ok_bind]
    rw [if_neg (not_not.mpr ⟨by split_ifs <;> tauto, by split_ifs <;> tauto⟩),
      tailLoop_succ (b := c) (by rw [h]; rfl), if_pos ⟨hc, hc'⟩,
      tailLoop_succ (b := d) (by rw [h]; rfl), if_pos ⟨hd, hd'⟩]
    rfl

/-- The shapes are the rows of the table. -/
private lemma utf8Shape_cases {a lo hi : UInt8} {n : ℕ} (h : utf8Shape a = some (n, lo, hi)) :
    (n = 2 ∧ 0xC2 ≤ a ∧ a ≤ 0xDF ∧ lo = 0x80 ∧ hi = 0xBF) ∨
    (n = 3 ∧ 0xE0 ≤ a ∧ a ≤ 0xEF ∧ lo = (if a = 0xE0 then 0xA0 else 0x80) ∧
      hi = if a = 0xED then 0x9F else 0xBF) ∨
    (n = 4 ∧ 0xF0 ≤ a ∧ a ≤ 0xF4 ∧ lo = (if a = 0xF0 then 0x90 else 0x80) ∧
      hi = if a = 0xF4 then 0x8F else 0xBF) := by
  unfold utf8Shape at h
  split at h
  · next h1 =>
    simp only [Option.some.injEq, Prod.mk.injEq] at h
    obtain ⟨rfl, rfl, rfl⟩ := h
    exact Or.inl ⟨rfl, h1.1, h1.2, rfl, rfl⟩
  · split at h
    · next h2 =>
      simp only [Option.some.injEq, Prod.mk.injEq] at h
      obtain ⟨rfl, rfl, rfl⟩ := h
      exact Or.inr (Or.inl ⟨rfl, h2.1, h2.2, rfl, rfl⟩)
    · split at h
      · next h3 =>
        simp only [Option.some.injEq, Prod.mk.injEq] at h
        obtain ⟨rfl, rfl, rfl⟩ := h
        exact Or.inr (Or.inr ⟨rfl, h3.1, h3.2, rfl, rfl⟩)
      · cases h

/-- A second byte within the bounds of its row is within those of every row. -/
private lemma second_bounds {a b p q x y : UInt8} (hlo : 0x80 ≤ x) (hhi : y ≤ 0xBF)
    (h : (if a = p then x else 0x80) ≤ b ∧ b ≤ if a = q then y else 0xBF) :
    0x80 ≤ b ∧ b ≤ 0xBF ∧ (a = p → x ≤ b) ∧ (a = q → b ≤ y) := by
  obtain ⟨h1, h2⟩ := h
  refine ⟨?_, ?_, fun hp => by simpa [hp] using h1, fun hq => by simpa [hq] using h2⟩
  · split_ifs at h1
    · exact UInt8.le_trans hlo h1
    · exact h1
  · split_ifs at h2
    · exact UInt8.le_trans h2 hhi
    · exact h2

/-- `validate_utf8_run`, at a byte, passes a sequence of the table or fails legibly. -/
lemma validateUtf8Run_cases {r : Reader} {a : UInt8} {t : Bytes} (hr : r.rest = a :: t) :
    (∃ u t', Multibyte u ∧ r.rest = u ++ t' ∧ r.validateUtf8Run = .ok (r.adv u.length)) ∨
    r.validateUtf8Run = fail .malformedJson (bytes "str is not valid UTF-8") := by
  rw [validateUtf8Run, byteAt_pos hr, ok_bind]
  cases hs : utf8Shape a with
  | none => exact Or.inr rfl
  | some shape =>
    obtain ⟨n, lo, hi⟩ := shape
    simp only
    have hn : 2 ≤ n := by
      rcases utf8Shape_cases hs with h | h | h <;> omega
    by_cases hlen : r.pos + n > r.text.length
    · right
      rw [if_pos hlen]
    · rw [if_neg hlen]
      rw [lt_pos_add_iff r (by omega), hr, List.length_cons] at hlen
      obtain ⟨b, t₁, rfl⟩ : ∃ b t₁, t = b :: t₁ := by
        cases t with
        | nil => simp at hlen; omega
        | cons b t₁ => exact ⟨b, t₁, rfl⟩
      rw [byteAt_of (b := b) (i := 1) (by rw [hr]; rfl), ok_bind]
      by_cases hb : b ≥ lo ∧ b ≤ hi
      swap
      · right
        rw [if_pos hb]
      · rw [if_neg (not_not.mpr hb)]
        rcases utf8Shape_cases hs with ⟨rfl, ha, ha', rfl, rfl⟩ | ⟨rfl, ha, ha', rfl, rfl⟩ |
          ⟨rfl, ha, ha', rfl, rfl⟩
        · exact Or.inl ⟨[a, b], t₁, Multibyte.two ha ha' hb.1 hb.2, by simp [hr], rfl⟩
        · obtain ⟨c, t₂, rfl⟩ : ∃ c t₂, t₁ = c :: t₂ := by
            cases t₁ with
            | nil => simp at hlen
            | cons c t₂ => exact ⟨c, t₂, rfl⟩
          rw [tailLoop_succ (b := c) (by rw [hr]; rfl)]
          by_cases hc : 0x80 ≤ c ∧ c ≤ 0xBF
          · obtain ⟨h1, h2, h3, h4⟩ := second_bounds (by decide) (by decide) hb
            rw [if_pos hc]
            exact Or.inl ⟨[a, b, c], t₂, Multibyte.three ha ha' h1 h2 h3 h4 hc.1 hc.2,
              by simp [hr], rfl⟩
          · right
            rw [if_neg hc]
            rfl
        · obtain ⟨c, d, t₂, rfl⟩ : ∃ c d t₂, t₁ = c :: d :: t₂ := by
            rcases t₁ with _ | ⟨c, _ | ⟨d, t₂⟩⟩
            · simp at hlen
            · simp at hlen
            · exact ⟨c, d, t₂, rfl⟩
          rw [tailLoop_succ (b := c) (by rw [hr]; rfl)]
          by_cases hc : 0x80 ≤ c ∧ c ≤ 0xBF
          · rw [if_pos hc, tailLoop_succ (b := d) (by rw [hr]; rfl)]
            by_cases hd : 0x80 ≤ d ∧ d ≤ 0xBF
            · obtain ⟨h1, h2, h3, h4⟩ := second_bounds (by decide) (by decide) hb
              rw [if_pos hd]
              exact Or.inl ⟨[a, b, c, d], t₂,
                Multibyte.four ha ha' h1 h2 h3 h4 hc.1 hc.2 hd.1 hd.2, by simp [hr], rfl⟩
            · right
              rw [if_neg hd]
              rfl
          · right
            rw [if_neg hc]
            rfl

/-- `append_escape` passes what follows the backslash of a spelled character. -/
lemma appendEscape_of {r : Reader} {o u t : Bytes} {c : Char} (h : r.rest = u ++ t)
    (hi : Item (0x5C :: u) c) :
    r.appendEscape o = .ok (o ++ String.utf8EncodeChar c, r.adv u.length) := by
  obtain ⟨v, hv⟩ : ∃ v, v = 0x5C :: u := ⟨_, rfl⟩
  rw [← hv] at hi
  cases hi with
  | raw _ _ _ hb =>
    simp only [List.cons.injEq] at hv
    exact absurd hv.1 hb
  | multibyte hc =>
    have := (Utf8.multibyte_encodeChar hc).le_of_mem 0x5C (by rw [hv]; simp)
    exact absurd this (by decide)
  | @short e b hs =>
    simp only [List.cons.injEq, true_and] at hv
    subst hv
    have hb : b < 0x80 := by
      unfold shortEscape at hs
      split_ifs at hs with h1 <;> simp only [Option.some.injEq] at hs <;> subst hs
      · rcases h1 with rfl | rfl | rfl <;> decide
      all_goals decide
    rw [appendEscape_eq (e := e) (t := t) h, Utf8.utf8EncodeChar_ascii hb]
    simp [hs]
  | hex hq =>
    simp only [List.cons.injEq, true_and] at hv
    subst hv
    have hrest := rest_adv_one (r := r) (by simpa using h)
    rw [appendEscape_eq (r := r) (by simpa using h), shortEscape_u]
    simp only [if_true]
    rw [appendCodePoint_hex hrest hq]
    simp
  | pair hhi hlo hhi₁ hhi₂ hlo₁ hlo₂ hc =>
    simp only [List.cons.injEq, true_and] at hv
    subst hv
    have hrest := rest_adv_one (r := r) (by simpa using h)
    rw [appendEscape_eq (r := r) (by simpa using h), shortEscape_u]
    simp only [if_true]
    rw [appendCodePoint_pair hrest hhi hlo hhi₁ hhi₂ hlo₁ hlo₂ hc]
    simp

/-! ## One iteration of the scanner -/

/-- What the loop has put together: its output and the raw run it has not copied yet. -/
def StringLoop.content (s : StringLoop) : Bytes := s.out ++ s.pending

/-- The loop has gone on from one state to another over a text that spells some characters. -/
structure StringLoop.Passed (s : StringLoop) (u : Bytes) (cs : List Char) (s' : StringLoop) :
    Prop where
  reader : s'.reader = s.reader.adv u.length
  run : s'.run ≤ s'.reader.pos
  content : s'.content = s.content ++ encode cs

/-- Passing one text and then another is passing both. -/
lemma StringLoop.Passed.trans {s s' s'' : StringLoop} {u v : Bytes} {cs ds : List Char}
    (h : s.Passed u cs s') (h' : s'.Passed v ds s'') : s.Passed (u ++ v) (cs ++ ds) s'' where
  reader := by rw [h'.reader, h.reader, adv_adv, List.length_append]
  run := h'.run
  content := by rw [h'.content, h.content, Utf8.encode_append, List.append_assoc]

/-- The raw run grows by the bytes passed. -/
private lemma pending_adv {s : StringLoop} {u t : Bytes} (hrun : s.run ≤ s.reader.pos)
    (h : s.reader.rest = u ++ t) :
    StringLoop.pending { s with reader := s.reader.adv u.length } = s.pending ++ u := by
  have hlen : s.reader.pos + u.length - s.run = (s.reader.pos - s.run) + u.length := by omega
  simp only [StringLoop.pending, adv_text, adv_pos, hlen]
  rw [List.take_add, List.drop_drop, Nat.add_sub_cancel' hrun, take_drop_of h]

/-- Raw bytes are passed by the loop. -/
private lemma passed_raw {s : StringLoop} {u t : Bytes} {c : Char} (hrun : s.run ≤ s.reader.pos)
    (h : s.reader.rest = u ++ t) (hu : String.utf8EncodeChar c = u) :
    s.Passed u [c] { s with reader := s.reader.adv u.length } where
  reader := rfl
  run := by simp only [adv_pos]; omega
  content := by
    rw [StringLoop.content, pending_adv hrun h]
    simp [StringLoop.content, hu]

/-- Passing an escape, after which the raw run starts anew. -/
private lemma passed_escape {s : StringLoop} {u : Bytes} {c : Char} :
    s.Passed u [c] ⟨s.reader.adv u.length, s.content ++ String.utf8EncodeChar c,
      (s.reader.adv u.length).pos⟩ where
  reader := rfl
  run := le_rfl
  content := by simp [StringLoop.content, StringLoop.pending]

/-- At a backslash the loop passes an escape. -/
private lemma stringBody_backslash {s : StringLoop} {t : Bytes} (h : s.reader.rest = 0x5C :: t) :
    stringBody s =
      match (s.reader.adv 1).appendEscape s.content with
      | .error e => .done (.error e)
      | .ok (out, r) => .more ⟨r, out, r.pos⟩ := by
  rw [stringBody, getElem?_pos, h]
  rfl

/-- **One iteration passes one spelled character.** -/
lemma stringBody_item {s : StringLoop} {u t : Bytes} {c : Char} (hrun : s.run ≤ s.reader.pos)
    (h : s.reader.rest = u ++ t) (hi : Item u c) :
    ∃ s', stringBody s = .more s' ∧ s.Passed u [c] s' := by
  have escape : ∀ v, u = 0x5C :: v → ∃ s', stringBody s = .more s' ∧ s.Passed u [c] s' := by
    rintro v rfl
    have hrest := rest_adv_one (r := s.reader) h
    have happ := appendEscape_of (o := s.content) hrest hi
    refine ⟨_, ?_, passed_escape⟩
    rw [stringBody_backslash h, happ]
    simp [Nat.add_comm]
  cases hi with
  | @raw b hlo hhi hq hb =>
    refine ⟨_, ?_, passed_raw hrun h (Utf8.utf8EncodeChar_ascii hhi)⟩
    rw [stringBody, getElem?_pos, h]
    simp only [List.cons_append, List.head?_cons]
    rw [if_neg hq, if_neg hb, if_neg (UInt8.not_lt.mpr hlo), if_pos hhi]
    rfl
  | multibyte hc =>
    have hm := Utf8.multibyte_encodeChar hc
    have hrun' := validateUtf8Run_of h hm
    obtain ⟨a, u', hu⟩ : ∃ a u', String.utf8EncodeChar c = a :: u' := by
      generalize String.utf8EncodeChar c = v at hm
      cases hm <;> exact ⟨_, _, rfl⟩
    have ha : 0x80 ≤ a := hm.le_of_mem a (by rw [hu]; simp)
    refine ⟨_, ?_, passed_raw hrun h rfl⟩
    rw [stringBody, getElem?_pos, h]
    simp only [hu, List.cons_append, List.head?_cons]
    simp only [UInt8.le_iff_toNat_le, UInt8.reduceToNat] at ha
    have h1 : ¬ a = 0x22 := by rintro rfl; simp at ha
    have h2 : ¬ a = 0x5C := by rintro rfl; simp at ha
    have h3 : ¬ a < 0x20 := by
      simp only [UInt8.lt_iff_toNat_lt, UInt8.reduceToNat]
      omega
    have h4 : ¬ a < 0x80 := by
      simp only [UInt8.lt_iff_toNat_lt, UInt8.reduceToNat]
      omega
    rw [if_neg h1, if_neg h2, if_neg h3, if_neg h4, hrun', hu]
  | short hs => exact escape _ rfl
  | hex hq => exact escape _ rfl
  | pair hhi hlo hhi₁ hhi₂ hlo₁ hlo₂ hc => exact escape _ rfl

/-- At the closing quote the loop returns what it has put together. -/
lemma stringBody_quote {s : StringLoop} {t : Bytes} (h : s.reader.rest = 0x22 :: t) :
    stringBody s = .done (.ok (s.content, s.reader.adv 1)) := by
  rw [stringBody, getElem?_pos, h]
  rfl

/-- **One iteration, by inversion**: it is at the closing quote, or passes one spelled
character, or fails legibly. -/
lemma stringBody_cases {s : StringLoop} (hrun : s.run ≤ s.reader.pos) :
    (∃ t, s.reader.rest = 0x22 :: t ∧ stringBody s = .done (.ok (s.content, s.reader.adv 1))) ∨
    (∃ u c t s', Item u c ∧ s.reader.rest = u ++ t ∧ stringBody s = .more s' ∧
      s.Passed u [c] s') ∨
    ∃ f, Failure.Plain f ∧ stringBody s = .done (.error f) := by
  have item : ∀ u c t, Item u c → s.reader.rest = u ++ t → ∃ u c t s', Item u c ∧
      s.reader.rest = u ++ t ∧ stringBody s = .more s' ∧ s.Passed u [c] s' := by
    intro u c t hi h
    obtain ⟨s', hs', hp⟩ := stringBody_item hrun h hi
    exact ⟨u, c, t, s', hi, h, hs', hp⟩
  cases hr : s.reader.rest with
  | nil =>
    right; right
    rw [stringBody, getElem?_pos, hr]
    exact ⟨_, ⟨_, rfl, by decide⟩, rfl⟩
  | cons b t =>
    by_cases hq : b = 0x22
    · subst hq
      exact Or.inl ⟨t, rfl, stringBody_quote hr⟩
    right
    rw [← hr]
    by_cases hb : b = 0x5C
    · subst hb
      have hrest := rest_adv_one hr
      cases happ : (s.reader.adv 1).appendEscape s.content with
      | error f =>
        right
        exact ⟨f, appendEscape_error happ, by rw [stringBody_backslash hr, happ]⟩
      | ok p =>
        left
        obtain ⟨u, c, t', hi, hr', -, -⟩ := appendEscape_ok happ
        rw [hrest] at hr'
        exact item _ _ t' hi (by rw [hr, hr']; rfl)
    by_cases hlo : b < 0x20
    · right
      rw [stringBody, getElem?_pos, hr]
      simp only [List.head?_cons]
      rw [if_neg hq, if_neg hb, if_pos hlo]
      exact ⟨_, ⟨_, rfl, by decide⟩, rfl⟩
    by_cases hhi : b < 0x80
    · exact Or.inl (item [b] _ t (Item.raw (UInt8.not_lt.mp hlo) hhi hq hb) hr)
    rcases validateUtf8Run_cases hr with ⟨u, t', hm, hr', -⟩ | hv
    · obtain ⟨c, hc, rfl⟩ := hm.exists_char
      exact Or.inl (item _ _ t' (Item.multibyte hc) hr')
    · right
      rw [stringBody, getElem?_pos, hr]
      simp only [List.head?_cons]
      rw [if_neg hq, if_neg hb, if_neg hlo, if_neg hhi, hv]
      exact ⟨_, ⟨_, rfl, by decide⟩, rfl⟩

/-! ## The scanner -/

/-- Whole iterations pass a run of spelled characters. -/
lemma reaches_items {u : Bytes} {cs : List Char} (hu : Items u cs) :
    ∀ {s : StringLoop} {t : Bytes}, s.run ≤ s.reader.pos → s.reader.rest = u ++ t →
      ∃ s', Loop.Reaches stringBody s s' ∧ s.Passed u cs s' := by
  induction hu with
  | nil =>
    intro s t hrun _
    exact ⟨s, Relation.ReflTransGen.refl, ⟨by simp, hrun, by simp⟩⟩
  | @cons u v c cs hi _ ih =>
    intro s t hrun h
    rw [List.append_assoc] at h
    obtain ⟨s₁, hs₁, hp₁⟩ := stringBody_item hrun h hi
    have hrest : s₁.reader.rest = v ++ t := by rw [hp₁.reader, rest_adv_of h]
    obtain ⟨s₂, hs₂, hp₂⟩ := ih hp₁.run hrest
    exact ⟨s₂, Relation.ReflTransGen.head hs₁ hs₂, hp₁.trans hp₂⟩

/-- An iteration that goes round keeps the run behind the reader and shortens the text. -/
private lemma stringBody_more {s s' : StringLoop} (hrun : s.run ≤ s.reader.pos)
    (h : stringBody s = .more s') :
    ∃ u c t, Item u c ∧ s.reader.rest = u ++ t ∧ s.Passed u [c] s' ∧ s'.reader.rest = t ∧
      t.length < s.reader.rest.length := by
  rcases stringBody_cases hrun with ⟨t, -, hd⟩ | ⟨u, c, t, s'', hi, hr, hs'', hp⟩ | ⟨f, -, hd⟩
  · rw [hd] at h
    cases h
  · rw [hs''] at h
    cases h
    refine ⟨u, c, t, hi, hr, hp, by rw [hp.reader, rest_adv_of hr], ?_⟩
    have := hi.length_pos
    rw [hr, List.length_append]
    omega
  · rw [hd] at h
    cases h

/-- **A string token is scanned**, with any blanks before it, and decoded. -/
theorem scanString_of {r : Reader} {w tok t : Bytes} {cs : List Char}
    (h : r.rest = w ++ (tok ++ t)) (hw : Blank w) (htok : StringToken tok cs) :
    r.scanString = .ok (encode cs, r.adv (w.length + tok.length)) := by
  obtain ⟨u, hu, rfl⟩ := htok
  have hrest : (r.adv w.length).rest = 0x22 :: (u ++ 0x22 :: t) := by
    rw [rest_adv_of h]
    simp
  have hrest₁ : (r.adv (w.length + 1)).rest = u ++ 0x22 :: t := by
    rw [← adv_adv]
    exact rest_adv_one hrest
  obtain ⟨s, hs⟩ : ∃ s : StringLoop,
      s = ⟨r.adv (w.length + 1), [], (r.adv (w.length + 1)).pos⟩ := ⟨_, rfl⟩
  have hrun : s.run ≤ s.reader.pos := by rw [hs]
  have hcontent : s.content = [] := by rw [hs]; simp [StringLoop.content, StringLoop.pending]
  obtain ⟨s', hreach, hp⟩ := reaches_items hu (t := 0x22 :: t) hrun (by rw [hs]; exact hrest₁)
  have hrest₂ : s'.reader.rest = 0x22 :: t := by
    rw [hp.reader, hs]
    exact rest_adv_of hrest₁
  have hloop := Loop.run_eq_of_reaches (I := fun s => s.run ≤ s.reader.pos)
    (fun s => s.reader.rest.length)
    (fun s s' hrun h => by
      obtain ⟨u, c, t, -, -, hp, ht, hlt⟩ := stringBody_more hrun h
      exact ⟨hp.run, by rw [ht]; exact hlt⟩)
    hreach (stringBody_quote hrest₂) (r.text.length + 1) hrun
    (by rw [hs]; simp only [length_rest, adv_text]; omega)
  rw [scanString, peek_of (c := 0x22) (t := u ++ 0x22 :: t) (by rw [h]; simp) hw (by decide)]
  simp only [ne_eq, not_true_eq_false, if_false]
  rw [hs] at hloop
  simp only [adv, ← Nat.add_assoc] at hloop ⊢
  rw [hloop, Option.getD_some, hp.content, hcontent, hp.reader, hs]
  simp [Nat.add_assoc, Nat.add_comm, Nat.add_left_comm]

/-- What the loop of `scan_string` comes to: a string up to its closing quote, or a legible
error. -/
private lemma loop_total (s : StringLoop) (hrun : s.run ≤ s.reader.pos) (n : ℕ)
    (hn : s.reader.rest.length < n) :
    ∃ p, Loop.run stringBody n s = some p ∧
      ((∃ u cs t, Items u cs ∧ s.reader.rest = u ++ 0x22 :: t ∧
        p = .ok (s.content ++ encode cs, s.reader.adv (u.length + 1))) ∨
      ∃ f, Failure.Plain f ∧ p = .error f) := by
  refine Loop.run_total (I := fun s' => ∃ u cs t, Items u cs ∧ s.reader.rest = u ++ t ∧
    s.Passed u cs s') (fun s => s.reader.rest.length) ?_ ?_ n s
    ⟨[], [], s.reader.rest, Items.nil, rfl, by simp, hrun, by simp⟩ hn
  · rintro s₁ s₂ ⟨u, cs, t, hu, hr, hp⟩ hmore
    obtain ⟨v, c, t', hi, hr', hp', hrest, hlt⟩ := stringBody_more hp.run hmore
    have ht : t = v ++ t' := by rw [← hr', hp.reader, rest_adv_of hr]
    exact ⟨⟨u ++ v, cs ++ [c], t', hu.append hi.items, by rw [hr, ht, List.append_assoc],
      hp.trans hp'⟩, by rw [hrest]; exact hlt⟩
  · rintro s₁ a ⟨u, cs, t, hu, hr, hp⟩ hdone
    rcases stringBody_cases hp.run with ⟨t', hr', hd⟩ | ⟨_, _, _, _, _, _, hs'', _⟩ | ⟨f, hf, hd⟩
    · rw [hd] at hdone
      cases hdone
      left
      have ht : t = 0x22 :: t' := by rw [← hr', hp.reader, rest_adv_of hr]
      exact ⟨u, cs, t', hu, by rw [hr, ht], by rw [hp.content, hp.reader, adv_adv]⟩
    · rw [hs''] at hdone
      cases hdone
    · rw [hd] at hdone
      cases hdone
      exact Or.inr ⟨f, hf, rfl⟩

/-- `scan_string`, at a quote, is its loop from the byte after. -/
private lemma scanString_quote {r : Reader} {w t : Bytes} (h : r.rest = w ++ 0x22 :: t)
    (hw : Blank w) :
    r.scanString = (Loop.run stringBody (r.text.length + 1)
      ⟨r.adv (w.length + 1), [], (r.adv (w.length + 1)).pos⟩).getD (.error .fault) := by
  rw [scanString, peek_of h hw (by decide)]
  simp only [ne_eq, not_true_eq_false, if_false, adv, ← Nat.add_assoc]

/-- **What is scanned is a string token**, and what it yields is the UTF-8 of its scalar
values. -/
theorem scanString_ok {r r' : Reader} {out : Bytes} (h : r.scanString = .ok (out, r')) :
    ∃ w tok cs, Blank w ∧ StringToken tok cs ∧ r.rest = w ++ (tok ++ r'.rest) ∧
      out = encode cs ∧ r' = r.adv (w.length + tok.length) := by
  rcases r.peek_cases with ⟨w, -, -, hp⟩ | ⟨w, c, t, hw, -, hr, hp⟩
  · simp [scanString, hp] at h
  · by_cases hc : c = 0x22
    swap
    · simp [scanString, hp, hc] at h
    subst hc
    have hrest : (r.adv (w.length + 1)).rest = t := by
      rw [← adv_adv]
      exact rest_adv_one (rest_adv_of hr)
    rw [scanString_quote hr hw] at h
    obtain ⟨p, hp, hcases⟩ := loop_total ⟨r.adv (w.length + 1), [], (r.adv (w.length + 1)).pos⟩
      le_rfl (r.text.length + 1) (by simp only [length_rest, adv_text]; omega)
    rw [hp, Option.getD_some] at h
    rcases hcases with ⟨u, cs, t', hu, ht, rfl⟩ | ⟨f, -, rfl⟩
    · simp only [Except.ok.injEq, Prod.mk.injEq] at h
      obtain ⟨rfl, rfl⟩ := h
      simp only at ht
      rw [hrest] at ht
      have hr' : r.rest = (w ++ 0x22 :: (u ++ [0x22])) ++ t' := by
        rw [hr, ht]
        simp
      have hadv : (r.adv (w.length + 1)).adv (u.length + 1) =
          r.adv (w ++ 0x22 :: (u ++ [0x22])).length := by
        rw [adv_adv]
        congr 1
        simp only [List.length_append, List.length_cons, List.length_nil]
        omega
      refine ⟨w, 0x22 :: (u ++ [0x22]), cs, hw, ⟨u, hu, rfl⟩, ?_, ?_, ?_⟩
      · rw [hadv, rest_adv_of hr', hr', List.append_assoc]
      · simp [StringLoop.content, StringLoop.pending]
      · rw [hadv, List.length_append]
    · cases h

/-- The string scanner's errors are legible. -/
theorem scanString_error {r : Reader} {f : Failure} (h : r.scanString = .error f) : f.Plain := by
  rcases r.peek_cases with ⟨w, -, -, hp⟩ | ⟨w, c, t, hw, -, hr, hp⟩
  · rw [scanString, hp] at h
    exact plain_of_fail (by decide) h
  · by_cases hc : c = 0x22
    · subst hc
      rw [scanString_quote hr hw] at h
      obtain ⟨p, hp, hcases⟩ := loop_total ⟨r.adv (w.length + 1), [], (r.adv (w.length + 1)).pos⟩
        le_rfl (r.text.length + 1) (by simp only [length_rest, adv_text]; omega)
      rw [hp, Option.getD_some] at h
      rcases hcases with ⟨u, cs, t', -, -, rfl⟩ | ⟨f', hf', rfl⟩
      · cases h
      · cases h
        exact hf'
    · rw [scanString, hp] at h
      simp only [ne_eq, hc, not_false_eq_true, if_true] at h
      exact plain_of_fail (by decide) h

/-- **The string scanner accepts exactly the string tokens**: at any position of any text it
succeeds iff a string token follows after blanks, and then it yields the UTF-8 of the scalar
values that token denotes and stops just behind it. So what it yields is valid UTF-8, and two
spellings of the same scalar values, wherever they stand, yield the same bytes. -/
theorem scanString_accepts_exactly (r : Reader) :
    (∀ out r', r.scanString = .ok (out, r') ↔ ∃ w tok cs t, Blank w ∧ StringToken tok cs ∧
      r.rest = w ++ (tok ++ t) ∧ out = encode cs ∧ r' = r.adv (w.length + tok.length)) ∧
    (∀ out r', r.scanString = .ok (out, r') → Utf8.Valid out) ∧
    ∀ (r₁ : Reader) w w₁ tok tok₁ t t₁ cs, Blank w → Blank w₁ → StringToken tok cs →
      StringToken tok₁ cs → r.rest = w ++ (tok ++ t) → r₁.rest = w₁ ++ (tok₁ ++ t₁) →
      r.scanString.map Prod.fst = r₁.scanString.map Prod.fst := by
  refine ⟨?_, ?_, ?_⟩
  · intro out r'
    constructor
    · intro h
      obtain ⟨w, tok, cs, hw, htok, hr, hout, hr'⟩ := scanString_ok h
      exact ⟨w, tok, cs, r'.rest, hw, htok, hr, hout, hr'⟩
    · rintro ⟨w, tok, cs, t, hw, htok, hr, rfl, rfl⟩
      exact scanString_of hr hw htok
  · intro out r' h
    obtain ⟨w, tok, cs, -, -, -, rfl, -⟩ := scanString_ok h
    exact Utf8.valid_encode cs
  · intro r₁ w w₁ tok tok₁ t t₁ cs hw hw₁ htok htok₁ hr hr₁
    rw [scanString_of hr hw htok, scanString_of hr₁ hw₁ htok₁]
    rfl

/-- The letter `A`, written as itself and as an escape. -/
theorem scanString_accepts_letter :
    ((ofText (bytes "\"A\"")).scanString.map Prod.fst =
      (ofText (bytes " \"\\u0041\"")).scanString.map Prod.fst) ∧ Utf8.Valid (bytes "A") := by
  have hraw : StringToken (bytes "\"A\"") ['A'] :=
    ⟨[0x41], Item.items (Item.raw (by decide) (by decide) (by decide) (by decide)), by decide⟩
  have hescape : StringToken (bytes "\"\\u0041\"") ['A'] :=
    ⟨[0x5C, 0x75, 0x30, 0x30, 0x34, 0x31], Item.items (Item.hex (by decide)), by decide⟩
  have hblank : Blank [0x20] := by
    intro b hb
    rw [List.mem_singleton.mp hb]
    rfl
  obtain ⟨haccepts, hvalid, hsame⟩ := scanString_accepts_exactly (ofText (bytes "\"A\""))
  refine ⟨hsame _ [] [0x20] _ _ [] [] _ blank_nil hblank hraw hescape (by decide) (by decide), ?_⟩
  exact hvalid _ _ ((haccepts (bytes "A") _).mpr
    ⟨[], _, _, [], blank_nil, hraw, by decide, by decide, rfl⟩)

/-! ## Accepted tokens -/

/-- `scan_string` accepts the token with the value: somewhere it yields the value and moves past
blanks and the token, from its first quote on. -/
def Scans (tok value : Bytes) : Prop :=
  tok.head? = some 0x22 ∧ ∃ r r' : Reader, ∃ w, r.scanString = .ok (value, r') ∧ Blank w ∧
    r.rest = w ++ (tok ++ r'.rest)

/-- Blanks before a text that starts with none are determined by the whole. -/
lemma blank_append_inj {w w' t t' : Bytes} (hw : Blank w) (hw' : Blank w')
    (ht : ∀ b ∈ t.head?, isSpace b = false) (ht' : ∀ b ∈ t'.head?, isSpace b = false)
    (h : w ++ t = w' ++ t') : w = w' ∧ t = t' := by
  have heq : w = w' := by rw [← takeWhile_run hw ht, h, takeWhile_run hw' ht']
  subst heq
  exact ⟨rfl, List.append_cancel_left h⟩

/-- **Accepted are the string tokens**, with the UTF-8 of what they denote. -/
lemma scans_iff {tok value : Bytes} :
    Scans tok value ↔ ∃ cs, StringToken tok cs ∧ value = encode cs := by
  have hquote : ∀ {tok t : Bytes}, tok.head? = some 0x22 →
      ∀ b ∈ (tok ++ t).head?, isSpace b = false := by
    intro tok t h b hb
    rw [List.head?_append_of_ne_nil _ (by rintro rfl; simp at h), h] at hb
    obtain rfl := Option.some.inj hb
    rfl
  constructor
  · rintro ⟨hhead, r, r', w, h, hw, hr⟩
    obtain ⟨w', tok', cs, hw', htok', hr', rfl, -⟩ := scanString_ok h
    have hhead' : tok'.head? = some 0x22 := by
      obtain ⟨s, -, rfl⟩ := htok'
      rfl
    obtain ⟨-, htok⟩ := blank_append_inj hw hw' (hquote hhead) (hquote hhead') (hr.symm.trans hr')
    obtain rfl := List.append_cancel_right htok
    exact ⟨cs, htok', rfl⟩
  · rintro ⟨cs, htok, rfl⟩
    have hrest : (ofText tok).rest = [] ++ (tok ++ []) := by simp [ofText, rest]
    refine ⟨by obtain ⟨s, -, rfl⟩ := htok; rfl, ofText tok, _, [],
      scanString_of hrest blank_nil htok, blank_nil, ?_⟩
    rw [← List.append_assoc] at hrest
    rw [List.length_nil, Nat.zero_add, rest_adv, hrest]
    simp

end Reader

end Hotpath.Json
