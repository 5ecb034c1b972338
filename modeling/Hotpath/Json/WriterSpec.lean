import Mathlib.Algebra.Order.Field.Rat
import Mathlib.Tactic.FieldSimp
import Mathlib.Tactic.Ring
import Hotpath.Json.ScanNumber
import Hotpath.Json.Writer

set_option relaxedAutoImplicit false
set_option autoImplicit false

/-!
# The writer writes tokens

`append_string` writes a string token of the text it is given, `append_int` and `append_double`
a number token that reads back as the value. For doubles this goes through the scientific form
that `std::to_chars` delivers: each of the four layouts of `format_double` is a number token of
the same sign and magnitude.

## Main results

* `stringToken_appendString` — the string token.
* `formatDouble_spec` — the number token of a finite double.
* `valid_of_escape` — only a valid text is written as a valid text.
* `formatDouble_exact` — its value, its notation, its length and how it is scanned.
-/

namespace Hotpath.Json

open JsonText
open Utf8 (bytes encode)

/-! ## Strings -/

/-- The escape of a control character is its four hexadecimal digits. -/
private lemma hexQuad_control {b : UInt8} (h : b < 0x20) :
    hexQuad 0x30 0x30 (hexDigitChar (b.toNat >>> 4)) (hexDigitChar (b.toNat &&& 0x0F)) =
      some b.toNat := by
  have hall : ∀ n < 32, hexQuad 0x30 0x30 (hexDigitChar (n >>> 4)) (hexDigitChar (n &&& 0x0F)) =
      some n := by decide
  exact hall b.toNat (by simpa [UInt8.lt_iff_toNat_lt] using h)

/-- The text of an ASCII byte spells its character. -/
private lemma item_escapeByte {b : UInt8} (h : b < 0x80) :
    Item (escapeByte b) (Utf8.ascii b) := by
  unfold escapeByte
  split_ifs with h1 h2 h3 h4 h5 h6 h7 h8
  · subst h1; exact Item.short (by decide)
  · subst h2; exact Item.short (by decide)
  · subst h3; exact Item.short (by decide)
  · subst h4; exact Item.short (by decide)
  · subst h5; exact Item.short (by decide)
  · subst h6; exact Item.short (by decide)
  · subst h7; exact Item.short (by decide)
  · exact Item.hex (by rw [Utf8.toNat_ascii]; exact hexQuad_control h8)
  · exact Item.raw (UInt8.not_lt.mp h8) h h1 h2

/-- The text of an ASCII byte is ASCII. -/
lemma ascii_escapeByte {b : UInt8} (h : b < 0x80) : ∀ c ∈ escapeByte b, c < 0x80 := by
  have hdigit : ∀ n < 16, hexDigitChar n < 0x80 := by decide
  have hhigh : b.toNat >>> 4 < 16 := by
    rw [Nat.shiftRight_eq_div_pow]
    have := b.toNat_lt
    omega
  have hlow : b.toNat &&& 0x0F < 16 := Nat.lt_of_le_of_lt Nat.and_le_right (by decide)
  unfold escapeByte
  split_ifs
  any_goals decide
  · intro c hc
    simp only [List.mem_cons, List.not_mem_nil, or_false] at hc
    rcases hc with rfl | rfl | rfl | rfl | rfl | rfl
    · decide
    · decide
    · decide
    · decide
    · exact hdigit _ hhigh
    · exact hdigit _ hlow
  · simpa using h

/-- A byte that needs no escape is written as it is. -/
private lemma escapeByte_raw {b : UInt8} (h : 0x20 ≤ b) (hq : b ≠ 0x22) (hb : b ≠ 0x5C) :
    escapeByte b = [b] := by
  have hne : ∀ c : UInt8, c < 0x20 → b ≠ c := by
    rintro c hc rfl
    exact absurd hc (UInt8.not_lt.mpr h)
  simp [escapeByte, hq, hb, hne 0x08 (by decide), hne 0x0C (by decide), hne 0x0A (by decide),
    hne 0x0D (by decide), hne 0x09 (by decide), UInt8.not_lt.mpr h]

/-- A byte beyond ASCII is written as it is. -/
private lemma escapeByte_of_le {b : UInt8} (h : 0x80 ≤ b) : escapeByte b = [b] := by
  have hne : ∀ c : UInt8, c < 0x80 → b ≠ c := by
    rintro c hc rfl
    exact absurd hc (UInt8.not_lt.mpr h)
  exact escapeByte_raw (UInt8.le_trans (by decide) h) (hne 0x22 (by decide)) (hne 0x5C (by decide))

/-- A character beyond ASCII is written as it is. -/
private lemma escape_multibyte {c : Char} (h : 0x80 ≤ c.toNat) :
    (String.utf8EncodeChar c).flatMap escapeByte = String.utf8EncodeChar c := by
  have hall : ∀ s : Bytes, (∀ b ∈ s, 0x80 ≤ b) → s.flatMap escapeByte = s := by
    intro s hs
    induction s with
    | nil => rfl
    | cons b s ih =>
      rw [List.flatMap_cons, escapeByte_of_le (hs b (by simp)), ih fun d hd => hs d (by simp [hd])]
      rfl
  exact hall _ (Utf8.multibyte_encodeChar h).le_of_mem

/-- The text of a character spells it. -/
private lemma item_escape (c : Char) : Item ((String.utf8EncodeChar c).flatMap escapeByte) c := by
  rcases Nat.lt_or_ge c.toNat 0x80 with h | h
  · obtain ⟨b, hb⟩ : ∃ b, b = UInt8.ofNat c.toNat := ⟨_, rfl⟩
    have hb' : b.toNat = c.toNat := by
      rw [hb, UInt8.toNat_ofNat']
      omega
    have hc : Utf8.ascii b = c := by
      rw [Utf8.ascii, hb', Char.ofNat_toNat]
    rw [Utf8.utf8EncodeChar_of_lt h, ← hb, List.flatMap_singleton]
    have := item_escapeByte (b := b) (by rw [UInt8.lt_iff_toNat_lt, hb']; exact h)
    rwa [hc] at this
  · rw [escape_multibyte h]
    exact Item.multibyte h

/-- The escaped text spells its characters. -/
lemma items_escape (cs : List Char) : Items ((encode cs).flatMap escapeByte) cs := by
  induction cs with
  | nil => exact Items.nil
  | cons c cs ih =>
    rw [Utf8.encode_cons, List.flatMap_append]
    exact Items.cons (item_escape c) ih

/-- The text `append_string` writes. -/
def stringText (text : Bytes) : Bytes := 0x22 :: (text.flatMap escapeByte ++ [0x22])

/-- `append_string` appends the escaped text between quotes. -/
lemma appendString_eq (out text : Bytes) : appendString out text = out ++ stringText text := by
  simp [appendString, stringText]

/-- **The text of a string is its token.** -/
lemma stringToken_stringText (cs : List Char) : StringToken (stringText (encode cs)) cs :=
  ⟨_, items_escape cs, rfl⟩

/-- The text of a valid string is valid. -/
lemma valid_stringText {s : Bytes} (h : Utf8.Valid s) : Utf8.Valid (stringText s) := by
  obtain ⟨cs, rfl⟩ := h
  have hquote : Utf8.Valid [0x22] := Utf8.valid_of_ascii (by decide)
  exact hquote.append ((items_escape cs).valid.append hquote)

/-! ## The length of an escaped text -/

/-- A byte takes at most six bytes. -/
lemma length_escapeByte_le (b : UInt8) : (escapeByte b).length ≤ 6 := by
  unfold escapeByte
  split_ifs <;> simp

/-- A byte takes at least one byte. -/
lemma length_escapeByte_pos (b : UInt8) : 0 < (escapeByte b).length := by
  unfold escapeByte
  split_ifs <;> simp

/-- A printable byte takes at most two bytes. -/
lemma length_escapeByte_printable {b : UInt8} (h : 0x20 ≤ b) : (escapeByte b).length ≤ 2 := by
  by_cases hq : b = 0x22
  · subst hq; decide
  by_cases hb : b = 0x5C
  · subst hb; decide
  simp [escapeByte_raw h hq hb]

/-- Escaping bytes one by one adds up. -/
lemma length_escape_le {s : Bytes} {k : ℕ} (h : ∀ b ∈ s, (escapeByte b).length ≤ k) :
    (s.flatMap escapeByte).length ≤ k * s.length := by
  induction s with
  | nil => simp
  | cons b s ih =>
    have hb := h b (by simp)
    have hs := ih fun c hc => h c (by simp [hc])
    simp only [List.flatMap_cons, List.length_append, List.length_cons]
    rw [Nat.mul_succ]
    omega

/-- Escaping never shortens. -/
lemma length_le_escape (s : Bytes) : s.length ≤ (s.flatMap escapeByte).length := by
  induction s with
  | nil => simp
  | cons b s ih =>
    have hb := length_escapeByte_pos b
    simp only [List.flatMap_cons, List.length_append, List.length_cons]
    omega

/-- A character takes at most six bytes, however many it has in UTF-8. -/
private lemma length_escape_char (c : Char) :
    ((String.utf8EncodeChar c).flatMap escapeByte).length ≤ 6 := by
  rcases Nat.lt_or_ge c.toNat 0x80 with h | h
  · rw [Utf8.utf8EncodeChar_of_lt h, List.flatMap_singleton]
    exact length_escapeByte_le _
  · rw [escape_multibyte h, String.length_utf8EncodeChar]
    exact le_trans (Char.utf8Size_le_four c) (by decide)

/-- **No spelling of a character is shorter than the one written.** -/
lemma Item.length_escape {u : Bytes} {c : Char} (h : Item u c) :
    ((String.utf8EncodeChar c).flatMap escapeByte).length ≤ u.length := by
  cases h with
  | @raw b hlo hhi hq hb =>
    rw [Utf8.utf8EncodeChar_ascii hhi, List.flatMap_singleton, escapeByte_raw hlo hq hb]
  | multibyte h => rw [escape_multibyte h]
  | @short e b h =>
    have hb : b < 0x80 ∧ (escapeByte b).length ≤ 2 := by
      unfold shortEscape at h
      split_ifs at h with h1
      · obtain rfl : e = b := by simpa using h
        rcases h1 with rfl | rfl | rfl <;> decide
      all_goals
        obtain rfl := Option.some.inj h
        decide
    rw [Utf8.utf8EncodeChar_ascii hb.1, List.flatMap_singleton]
    exact hb.2
  | hex h => exact length_escape_char c
  | pair _ _ _ _ _ _ _ => exact le_trans (length_escape_char c) (by simp)

/-- No spelling of a text is shorter than the one written. -/
lemma Items.length_escape {s : Bytes} {cs : List Char} (h : Items s cs) :
    ((encode cs).flatMap escapeByte).length ≤ s.length := by
  induction h with
  | nil => simp
  | cons hu _ ih =>
    rw [Utf8.encode_cons, List.flatMap_append, List.length_append, List.length_append]
    exact Nat.add_le_add (Item.length_escape hu) ih

/-- **The text of a string is its shortest token.** -/
lemma length_stringText_le {tok : Bytes} {cs : List Char} (h : StringToken tok cs) :
    (stringText (encode cs)).length ≤ tok.length := by
  obtain ⟨s, hs, rfl⟩ := h
  have hlen := Items.length_escape hs
  simp only [stringText, List.length_cons, List.length_append, List.length_nil]
  omega

/-- The text of a string is its escaped bytes and the quotes. -/
lemma length_stringText (s : Bytes) :
    (stringText s).length = (s.flatMap escapeByte).length + 2 := by
  simp [stringText]

/-- The text of a string is longer than the string by its quotes at least. -/
lemma le_length_stringText (s : Bytes) : s.length + 2 ≤ (stringText s).length := by
  have hlen := length_le_escape s
  rw [length_stringText]
  omega

/-! ## Valid texts -/

/-- Bytes beyond ASCII in an escaped text are bytes of the text. -/
private lemma escape_eq_append {s u v : Bytes} (h : s.flatMap escapeByte = u ++ v)
    (hu : ∀ b ∈ u, 0x80 ≤ b) : ∃ s', s = u ++ s' ∧ v = s'.flatMap escapeByte := by
  induction u generalizing s with
  | nil => exact ⟨s, rfl, h.symm⟩
  | cons x u ih =>
    cases s with
    | nil => simp at h
    | cons b s =>
      rw [List.flatMap_cons] at h
      rcases UInt8.lt_or_le b 0x80 with hb | hb
      · have hascii := ascii_escapeByte hb
        cases hesc : escapeByte b with
        | nil =>
          have hpos := length_escapeByte_pos b
          simp [hesc] at hpos
        | cons y e =>
          rw [hesc] at h hascii
          obtain ⟨rfl, -⟩ := List.cons.inj h
          exact absurd (hu y (by simp)) (UInt8.not_le.mpr (hascii y (by simp)))
      · rw [escapeByte_of_le hb] at h
        obtain ⟨rfl, htail⟩ := List.cons.inj h
        obtain ⟨s', rfl, hv⟩ := ih htail fun c hc => hu c (List.mem_cons_of_mem _ hc)
        exact ⟨s', rfl, hv⟩

/-- **Only a valid text is written as a valid text.**

**Proof sketch.** Escapes are ASCII and stand for ASCII bytes; a sequence beyond ASCII is written
as it is. So the text is taken apart from the left as what is written is. -/
lemma valid_of_escape {s : Bytes} (h : Utf8.Valid (s.flatMap escapeByte)) : Utf8.Valid s := by
  induction hn : s.length using Nat.strong_induction_on generalizing s with
  | _ n ih =>
    cases s with
    | nil => exact Utf8.valid_nil
    | cons b s =>
      rw [List.flatMap_cons] at h
      subst hn
      rcases UInt8.lt_or_le b 0x80 with hb | hb
      · have hs := ih s.length (by simp) (h.drop_ascii (ascii_escapeByte hb)) rfl
        have hone : Utf8.Valid [b] := Utf8.valid_of_ascii (by simpa using hb)
        exact hone.append hs
      · rw [escapeByte_of_le hb] at h
        obtain ⟨u, v, hu, huv, hv⟩ := h.exists_multibyte hb
        have hescape : (b :: s).flatMap escapeByte = u ++ v := by
          rw [← huv, List.flatMap_cons, escapeByte_of_le hb]
          rfl
        obtain ⟨s', hs', rfl⟩ := escape_eq_append hescape hu.le_of_mem
        have hpos : 0 < u.length := by cases hu <;> simp
        have hlen := congrArg List.length hs'
        rw [List.length_append] at hlen
        obtain ⟨c, -, hc⟩ := hu.exists_char
        rw [hs']
        exact Utf8.Valid.append ⟨[c], by simp [hc]⟩ (ih s'.length (by omega) hv rfl)

/-- What precedes the text of a string and what follows it are no part of it: a valid text that
goes on with the text of a string, and then with ASCII, has a valid string there. -/
lemma valid_of_stringText {s t : Bytes} (h : Utf8.Valid (stringText s ++ t)) :
    Utf8.Valid s ∧ Utf8.Valid t := by
  have htext : stringText s ++ t = 0x22 :: (s.flatMap escapeByte ++ 0x22 :: t) := by
    simp [stringText]
  rw [htext] at h
  obtain ⟨hs, ht⟩ := (h.tail (by decide)).split (by decide)
  exact ⟨valid_of_escape hs, ht.tail (by decide)⟩

/-! ## Texts that need no escape -/

/-- A text of plain ASCII spells itself. -/
lemma items_plain {s : Bytes}
    (h : ∀ b ∈ s, (0x20 ≤ b ∧ b < 0x80) ∧ b ≠ 0x22 ∧ b ≠ 0x5C) : Items s (s.map Utf8.ascii) := by
  induction s with
  | nil => exact Items.nil
  | cons b s ih =>
    obtain ⟨⟨hlo, hhi⟩, hq, hb⟩ := h b (by simp)
    exact Items.cons (Item.raw hlo hhi hq hb) (ih fun c hc => h c (by simp [hc]))

/-! ## Scientific forms -/

/-- The number token with the digits of a scientific form, one of them before the point, and
an exponent part of the given digits. -/
def sciNumber (s : Scientific) (ed : Bytes) (hne : ed ≠ []) (hok : Digits ed) : Number where
  negative := s.negative
  whole := [s.digits.head s.digits_ne]
  fraction := if s.digits.tail = [] then none else some s.digits.tail
  exponent := some ⟨false, some (decide (s.exponent < 0)), ed, hne, hok⟩
  whole_ok := by
    intro b hb
    obtain rfl := List.mem_singleton.mp hb
    exact s.digits_ok _ (List.head_mem _)
  whole_ne := by simp
  whole_lead := by simp
  fraction_ne := by
    intro f hf
    split_ifs at hf with h
    simp only [Option.some.injEq] at hf
    rwa [← hf]
  fraction_ok := by
    intro f hf
    split_ifs at hf with h
    simp only [Option.some.injEq] at hf
    rw [← hf]
    exact fun b hb => s.digits_ok b (List.mem_of_mem_tail hb)

/-- The first digit and the others. -/
private lemma head_cons_tail (s : Scientific) :
    s.digits.head s.digits_ne :: s.digits.tail = s.digits := List.cons_head_tail _

/-- The text of a number made of a scientific form. -/
lemma render_sciNumber (s : Scientific) (ed : Bytes) (hne : ed ≠ []) (hok : Digits ed) :
    (sciNumber s ed hne hok).render =
      (if s.negative then [0x2D] else []) ++
        (s.digits.head s.digits_ne :: Scientific.tailText s.digits.tail) ++
        0x65 :: (if s.exponent < 0 then 0x2D else 0x2B) :: ed := by
  simp only [Number.render, sciNumber, exponentText, Exponent.render]
  have htail : fractionText (if s.digits.tail = [] then none else some s.digits.tail) =
      Scientific.tailText s.digits.tail := by
    cases s.digits.tail <;> rfl
  have hsign : signText (some (decide (s.exponent < 0))) =
      [if s.exponent < 0 then (0x2D : UInt8) else 0x2B] := by
    by_cases h : s.exponent < 0 <;> simp [h, signText]
  rw [htail, hsign]
  simp only [List.append_assoc, List.cons_append, List.nil_append, Bool.false_eq_true, if_false]
  rfl

/-- The magnitude of a number made of a scientific form, when the exponent part denotes the
exponent. -/
lemma magnitude_sciNumber (s : Scientific) (ed : Bytes) (hne : ed ≠ []) (hok : Digits ed)
    (hed : natValue ed = s.exponent.natAbs) :
    (sciNumber s ed hne hok).magnitude = s.magnitude := by
  have hexp : Exponent.value ⟨false, some (decide (s.exponent < 0)), ed, hne, hok⟩ =
      s.exponent := by
    simp only [Exponent.value, hed, Option.some.injEq, decide_eq_true_eq]
    split_ifs <;> omega
  have htail : (if s.digits.tail = [] then none else some s.digits.tail).getD [] =
      s.digits.tail := by
    split_ifs with h
    · rw [h]; rfl
    · rfl
  have hdigits : [s.digits.head s.digits_ne] ++ s.digits.tail = s.digits := head_cons_tail s
  have hlen : (s.digits.tail.length : ℤ) = (s.digits.length : ℤ) - 1 := by
    have := congrArg List.length hdigits
    simp only [List.length_append, List.length_singleton] at this
    omega
  simp only [Number.magnitude, sciNumber, htail, hdigits, Option.elim_some, hexp, hlen,
    Scientific.magnitude]

/-- The exponent digits of a scientific text. -/
private lemma exponentDigits_spec (e : ℕ) : Scientific.exponentDigits e ≠ [] ∧
    Digits (Scientific.exponentDigits e) ∧ natValue (Scientific.exponentDigits e) = e := by
  unfold Scientific.exponentDigits
  split_ifs
  · refine ⟨by simp, ?_, ?_⟩
    · intro b hb
      rcases List.mem_cons.mp hb with rfl | hb
      · decide
      · exact digits_decimal e b hb
    · have := natValue_append [0x30] (decimal e)
      rw [natValue_decimal] at this
      simpa using this
  · exact ⟨decimal_ne_nil e, digits_decimal e, natValue_decimal e⟩

/-- The text of a scientific form is a number token. -/
lemma text_eq_render (s : Scientific) :
    ∃ n : Number, s.text = n.render ∧ n.negative = s.negative ∧ n.magnitude = s.magnitude := by
  obtain ⟨hne, hok, hval⟩ := exponentDigits_spec s.exponent.natAbs
  exact ⟨sciNumber s _ hne hok, (render_sciNumber s _ hne hok).symm, rfl,
    magnitude_sciNumber s _ hne hok hval⟩

/-- No byte of the digits and the point is an exponent marker, and the digits are what is left
without the point. -/
private lemma mantissa_spec (s : Scientific) :
    (∀ b ∈ s.digits.head s.digits_ne :: Scientific.tailText s.digits.tail, (b != 0x65) = true) ∧
    (s.digits.head s.digits_ne :: Scientific.tailText s.digits.tail).filter (· != 0x2E) =
      s.digits := by
  have hdigit : ∀ b, isDigit b = true → (b != 0x65) = true ∧ (b != 0x2E) = true := by
    intro b hb
    constructor
    · rw [bne_iff_ne]
      rintro rfl
      exact absurd hb (by decide)
    · rw [bne_iff_ne]
      rintro rfl
      exact absurd hb (by decide)
  have hhead := hdigit _ (s.digits_ok _ (List.head_mem s.digits_ne))
  have htail : ∀ b ∈ s.digits.tail, (b != 0x65) = true ∧ (b != 0x2E) = true :=
    fun b hb => hdigit b (s.digits_ok b (List.mem_of_mem_tail hb))
  have hsplit := head_cons_tail s
  generalize s.digits.tail = ds at htail hsplit
  constructor
  · intro b hb
    cases ds with
    | nil =>
      obtain rfl : b = _ := by simpa [Scientific.tailText] using hb
      exact hhead.1
    | cons d ds =>
      simp only [Scientific.tailText, List.mem_cons] at hb
      rcases hb with rfl | rfl | rfl | hb
      · exact hhead.1
      · decide
      · exact (htail _ (by simp)).1
      · exact (htail b (by simp [hb])).1
  · refine Eq.trans ?_ hsplit
    rw [List.filter_cons, if_pos hhead.2]
    congr 1
    cases ds with
    | nil => rfl
    | cons d ds =>
      rw [Scientific.tailText, List.filter_cons_of_neg (by decide), List.filter_eq_self.mpr]
      exact fun b hb => (htail b hb).2

/-- **`format_double` takes a scientific text apart** into its sign, digits and exponent. -/
lemma splitScientific_text (s : Scientific) :
    splitScientific s.text = (s.negative, s.digits, s.exponent) := by
  obtain ⟨hmark, hfilter⟩ := mantissa_spec s
  obtain ⟨hne, hok, hval⟩ := exponentDigits_spec s.exponent.natAbs
  obtain ⟨m, hm⟩ : ∃ m, m = s.digits.head s.digits_ne :: Scientific.tailText s.digits.tail :=
    ⟨_, rfl⟩
  obtain ⟨ed, hed⟩ : ∃ ed, ed = Scientific.exponentDigits s.exponent.natAbs := ⟨_, rfl⟩
  obtain ⟨sign, hsign⟩ : ∃ sign : UInt8, sign = if s.exponent < 0 then 0x2D else 0x2B := ⟨_, rfl⟩
  rw [← hm] at hmark hfilter
  rw [← hed] at hne hok hval
  have htext : s.text = (if s.negative then [0x2D] else []) ++ (m ++ 0x65 :: sign :: ed) := by
    rw [Scientific.text, hm, hed, hsign, List.append_assoc]
  have hhead : isDigit (s.digits.head s.digits_ne) = true :=
    s.digits_ok _ (List.head_mem s.digits_ne)
  have hneg : (s.text.head? == some 0x2D) = s.negative := by
    rw [htext]
    cases hn : s.negative with
    | true => rfl
    | false =>
      simp only [Bool.false_eq_true, if_false, List.nil_append, hm, List.cons_append,
        List.head?_cons]
      rw [beq_eq_false_iff_ne, ne_eq, Option.some.injEq]
      intro h
      rw [h] at hhead
      exact absurd hhead (by decide)
  have hbody : (if s.negative then s.text.tail else s.text) = m ++ 0x65 :: sign :: ed := by
    rw [htext]
    cases s.negative <;> rfl
  have htake : (m ++ 0x65 :: sign :: ed).takeWhile (· != 0x65) = m := by
    rw [List.takeWhile_append_of_pos hmark]
    simp
  have hdrop : (m ++ 0x65 :: sign :: ed).drop (m.length + 1) = sign :: ed := by
    rw [← List.drop_drop, List.drop_left]
    rfl
  have hexponent : (if (sign :: ed).head? == some 0x2B then (sign :: ed).tail else sign :: ed) =
      (if decide (s.exponent < 0) then [0x2D] else []) ++ ed := by
    rw [hsign]
    by_cases h : s.exponent < 0 <;> simp [h]
  have hvalue : (if decide (s.exponent < 0) then -(natValue ed : ℤ) else natValue ed) =
      s.exponent := by
    rw [hval]
    by_cases h : s.exponent < 0
    · simp only [h, decide_true, if_true]; omega
    · simp only [h, decide_false, Bool.false_eq_true, if_false]; omega
  have hlo := s.exponent_lo
  have hhi := s.exponent_hi
  simp only [splitScientific, hneg, hbody, htake, hfilter, hdrop, hexponent,
    fromCharsInt_digits hok hne, hvalue]
  rw [if_pos (by constructor <;> omega)]

/-! ## Layouts -/

/-- Digits padded with zeros on the right. -/
private lemma natValue_pad (ds : Bytes) (k : ℕ) :
    natValue (ds ++ List.replicate k 0x30) = natValue ds * 10 ^ k := by
  rw [natValue_append, natValue_zeros, List.length_replicate, Nat.add_zero]

/-- The notation of a layout: fixed, with digits on both sides of the point, or scientific, with
the exponent signed and not padded. -/
def LaidOut (s : Scientific) (n : Number) : Prop :=
  if -5 ≤ s.exponent ∧ s.exponent < 16 then n.exponent = none ∧ ∃ f, n.fraction = some f
  else ∃ e : Exponent, n.exponent = some e ∧ e.upper = false ∧
    e.sign = some (decide (s.exponent < 0)) ∧ e.digits = decimal s.exponent.natAbs

/-- The layout with digits on both sides of the point. -/
private lemma layoutWhole_spec (s : Scientific) (e : ℕ) (he : s.exponent = e) :
    ∃ n : Number, (if s.negative then [0x2D] else []) ++ layoutWhole s.digits e = n.render ∧
      n.negative = s.negative ∧ n.magnitude = s.magnitude ∧
      n.exponent = none ∧ ∃ f, n.fraction = some f := by
  have hpos : 0 < s.digits.length := List.length_pos_iff.mpr s.digits_ne
  have hwhole : Digits (s.digits.take (e + 1) ++
      List.replicate (e + 1 - s.digits.length) 0x30) := by
    intro b hb
    rcases List.mem_append.mp hb with hb | hb
    · exact s.digits_ok b (List.mem_of_mem_take hb)
    · obtain rfl := List.eq_of_mem_replicate hb
      decide
  have hfrac : Digits (if s.digits.length > e + 1 then s.digits.drop (e + 1) else [0x30]) := by
    intro b hb
    split_ifs at hb with h
    · exact s.digits_ok b (List.mem_of_mem_drop hb)
    · obtain rfl := List.mem_singleton.mp hb
      decide
  have hne : s.digits.take (e + 1) ++ List.replicate (e + 1 - s.digits.length) 0x30 ≠ [] := by
    simp [s.digits_ne]
  have hlead : ∀ d ds, s.digits.take (e + 1) ++
      List.replicate (e + 1 - s.digits.length) 0x30 = d :: ds → d = 0x30 → ds = [] := by
    intro d ds hds hd
    cases hs : s.digits with
    | nil => exact absurd hs s.digits_ne
    | cons d' ds' =>
      rw [hs] at hds
      simp only [List.take_succ_cons, List.cons_append, List.cons.injEq] at hds
      obtain ⟨rfl, hexp⟩ := s.digits_lead d' ds' hs (hds.1.trans hd)
      have he0 : e = 0 := by omega
      subst he0
      simpa using hds.2.symm
  have hfne : (if s.digits.length > e + 1 then s.digits.drop (e + 1) else [0x30]) ≠ [] := by
    split_ifs with h
    · intro hnil
      have := congrArg List.length hnil
      simp only [List.length_drop, List.length_nil] at this
      omega
    · simp
  obtain ⟨n, hn⟩ : ∃ n : Number, n = ⟨s.negative, _,
      some (if s.digits.length > e + 1 then s.digits.drop (e + 1) else [0x30]), none, hwhole, hne,
      hlead, fun f hf => Option.some.inj hf ▸ hfne, fun f hf => Option.some.inj hf ▸ hfrac⟩ :=
    ⟨_, rfl⟩
  refine ⟨n, ?_, by rw [hn], ?_, by rw [hn], _, by rw [hn]⟩
  · rw [hn]
    simp only [Number.render, layoutWhole, fractionText, exponentText, List.append_assoc,
      List.append_nil, List.cons_append, List.nil_append]
  · have hten : (10 : ℚ) ≠ 0 := by norm_num
    rw [hn, Number.magnitude, Scientific.magnitude, he]
    simp only [Option.getD_some, Option.elim_none, zero_sub]
    split_ifs with h
    · have hpad : e + 1 - s.digits.length = 0 := by omega
      rw [hpad, List.replicate_zero, List.append_nil, List.take_append_drop, List.length_drop]
      congr 2
      omega
    · rw [List.take_of_length_le (by omega), natValue_append, natValue_pad]
      have hexp : ((e : ℤ) - ((s.digits.length : ℤ) - 1)) =
          ((e + 1 - s.digits.length : ℕ) : ℤ) := by
        omega
      rw [hexp, zpow_natCast]
      simp only [List.length_singleton, natValue_singleton]
      push_cast
      rw [zpow_neg, zpow_one]
      field_simp
      norm_num

/-- The layout below one. -/
private lemma layoutSmall_spec (s : Scientific) (he : s.exponent < 0) :
    ∃ n : Number, (if s.negative then [0x2D] else []) ++
        layoutSmall s.digits (-s.exponent - 1).toNat = n.render ∧
      n.negative = s.negative ∧ n.magnitude = s.magnitude ∧
      n.exponent = none ∧ ∃ f, n.fraction = some f := by
  obtain ⟨k, hk⟩ : ∃ k, k = (-s.exponent - 1).toNat := ⟨_, rfl⟩
  have hfrac : Digits (List.replicate k 0x30 ++ s.digits) := by
    intro b hb
    rcases List.mem_append.mp hb with hb | hb
    · obtain rfl := List.eq_of_mem_replicate hb
      decide
    · exact s.digits_ok b hb
  have hfne : List.replicate k 0x30 ++ s.digits ≠ [] := by simp [s.digits_ne]
  obtain ⟨n, hn⟩ : ∃ n : Number, n = ⟨s.negative, [0x30],
      some (List.replicate k 0x30 ++ s.digits), none, by unfold Digits; decide, by simp, by simp,
      fun f hf => Option.some.inj hf ▸ hfne, fun f hf => Option.some.inj hf ▸ hfrac⟩ := ⟨_, rfl⟩
  refine ⟨n, ?_, by rw [hn], ?_, by rw [hn], _, by rw [hn]⟩
  · rw [hn, ← hk]
    simp only [Number.render, layoutSmall, fractionText, exponentText, List.append_nil,
      List.cons_append, List.nil_append]
  · rw [hn, Number.magnitude, Scientific.magnitude]
    simp only [Option.getD_some, Option.elim_none, zero_sub, List.length_append,
      List.length_replicate]
    have hval : natValue ([0x30] ++ (List.replicate k 0x30 ++ s.digits)) = natValue s.digits := by
      rw [natValue_append, natValue_append, natValue_zeros]
      simp
    rw [hval]
    congr 2
    omega

/-- The layout with an exponent. -/
private lemma layoutScientific_spec (s : Scientific) :
    ∃ n : Number, (if s.negative then [0x2D] else []) ++
        layoutScientific s.digits s.exponent = n.render ∧
      n.negative = s.negative ∧ n.magnitude = s.magnitude ∧
      ∃ e : Exponent, n.exponent = some e ∧ e.upper = false ∧
        e.sign = some (decide (s.exponent < 0)) ∧ e.digits = decimal s.exponent.natAbs := by
  refine ⟨sciNumber s (decimal s.exponent.natAbs) (decimal_ne_nil _) (digits_decimal _), ?_, rfl,
    magnitude_sciNumber s _ _ _ (natValue_decimal _), _, rfl, rfl, rfl, rfl⟩
  rw [render_sciNumber, layoutScientific]
  have hsign : (if s.exponent ≥ 0 then (0x2B : UInt8) else 0x2D) =
      if s.exponent < 0 then 0x2D else 0x2B := by
    by_cases h : s.exponent < 0
    · rw [if_neg (by omega), if_pos h]
    · rw [if_pos (by omega), if_neg h]
  have hsplit := head_cons_tail s
  have hone : s.digits.take 1 = [s.digits.head s.digits_ne] := by
    conv_lhs => rw [← hsplit]
    rfl
  have htail : (if s.digits.length > 1 then 0x2E :: s.digits.drop 1 else []) =
      Scientific.tailText s.digits.tail := by
    have hlen : s.digits.length = s.digits.tail.length + 1 := by
      have := List.length_pos_iff.mpr s.digits_ne
      rw [List.length_tail]
      omega
    rw [hlen, List.drop_one]
    cases s.digits.tail with
    | nil => rfl
    | cons d ds => simp [Scientific.tailText]
  rw [hsign, hone, htail]
  simp only [List.append_assoc, List.cons_append, List.nil_append]

/-- **Every layout is a number token** of the sign and the magnitude of the scientific form, in
the notation its exponent asks for. -/
theorem layout_spec (s : Scientific) :
    ∃ n : Number, layout s.negative s.digits s.exponent = n.render ∧
      n.negative = s.negative ∧ n.magnitude = s.magnitude ∧ LaidOut s n := by
  unfold layout LaidOut
  by_cases h : kFixedNotationMinExponent ≤ s.exponent ∧ s.exponent < kFixedNotationMaxExponent
  · simp only [if_pos h, if_pos (show -5 ≤ s.exponent ∧ s.exponent < 16 from h)]
    by_cases h0 : s.exponent ≥ 0
    · rw [if_pos h0]
      exact layoutWhole_spec s s.exponent.toNat (by omega)
    · rw [if_neg h0]
      exact layoutSmall_spec s (by omega)
  · simp only [if_neg h, if_neg (show ¬ (-5 ≤ s.exponent ∧ s.exponent < 16) from h)]
    exact layoutScientific_spec s

/-- The length of the layout with digits on both sides of the point. -/
private lemma length_layoutWhole_le {ds : Bytes} {e : ℕ} (hds : ds.length ≤ 17) (he : e < 16) :
    (layoutWhole ds e).length ≤ 18 := by
  have hfraction : (if ds.length > e + 1 then ds.drop (e + 1) else [0x30]).length ≤
      max 1 (ds.length - (e + 1)) := by
    split_ifs <;> simp
  simp only [layoutWhole, List.length_append, List.length_take, List.length_replicate,
    List.length_singleton]
  omega

/-- The length of the layout below one. -/
private lemma length_layoutSmall_le {ds : Bytes} {k : ℕ} (hds : ds.length ≤ 17) (hk : k < 5) :
    (layoutSmall ds k).length ≤ 23 := by
  simp only [layoutSmall, List.length_append, List.length_cons, List.length_nil,
    List.length_replicate]
  omega

/-- The length of the layout with an exponent. -/
private lemma length_layoutScientific_le {ds : Bytes} {e : ℤ} (hpos : 0 < ds.length)
    (hds : ds.length ≤ 17) (he : e.natAbs < 1000) : (layoutScientific ds e).length ≤ 23 := by
  have hexponent : (decimal e.natAbs).length ≤ 3 := length_decimal_le (by decide) he
  have htail : (if ds.length > 1 then 0x2E :: ds.drop 1 else []).length ≤ ds.length := by
    split_ifs
    · rw [List.length_cons, List.length_drop]
      omega
    · simp
  simp only [layoutScientific, List.length_append, List.length_take, List.length_cons,
    List.length_nil]
  omega

/-- **A layout takes at most 24 bytes**: a sign, and in the longest ones 17 digits behind a point
and five zeros, or before an exponent of three digits. -/
lemma length_layout_le (s : Scientific) :
    (layout s.negative s.digits s.exponent).length ≤ 24 := by
  have hpos : 0 < s.digits.length := List.length_pos_iff.mpr s.digits_ne
  have hlo := s.exponent_lo
  have hhi := s.exponent_hi
  have hsign : (if s.negative then [(0x2D : UInt8)] else []).length ≤ 1 := by
    split_ifs <;> simp
  rw [layout, List.length_append]
  by_cases h : kFixedNotationMinExponent ≤ s.exponent ∧ s.exponent < kFixedNotationMaxExponent
  · rw [if_pos h]
    unfold kFixedNotationMinExponent kFixedNotationMaxExponent at h
    by_cases h0 : s.exponent ≥ 0
    · rw [if_pos h0]
      have := length_layoutWhole_le (e := s.exponent.toNat) s.digits_len (by omega)
      omega
    · rw [if_neg h0]
      have := length_layoutSmall_le (k := (-s.exponent - 1).toNat) s.digits_len (by omega)
      omega
  · rw [if_neg h]
    have := length_layoutScientific_le hpos s.digits_len (e := s.exponent) (by omega)
    omega

/-- **A finite double is written as a number token that reads back as the double.** -/
theorem formatDouble_spec {F : Type} [CharConv F] {x : F} (h : CharConv.isFinite x = true) :
    ∃ n : Number, formatDouble x = n.render ∧ CharConv.fromChars n.render = FromChars.value x := by
  obtain ⟨s, hs, hx⟩ := CharConv.toChars_spec x h
  obtain ⟨n, hn, hneg, hmag, -⟩ := layout_spec s
  obtain ⟨n₀, hn₀, hneg₀, hmag₀⟩ := text_eq_render s
  refine ⟨n, ?_, ?_⟩
  · rw [formatDouble, if_neg (by simp [h]), hs, splitScientific_text]
    exact hn
  · rw [CharConv.fromChars_congr n n₀ (hneg.trans hneg₀.symm) (hmag.trans hmag₀.symm), ← hn₀, hx]

/-- **What is written for a double is exact and bounded.** For every scientific form that
`std::to_chars` delivers, the text is a number token with the form's sign and exact value, in
fixed notation for exponents in `[-5, 16)` and in scientific notation otherwise; the scanner takes
it whole, as one that is not integral, and it fits the buffer. A value that is not finite is
written as `null`. -/
theorem formatDouble_exact {F : Type} [CharConv F] (x : F) :
    (CharConv.isFinite x = false → formatDouble x = bytes "null") ∧
    ∀ s : Scientific, CharConv.isFinite x = true → CharConv.toChars x = s.text →
      exactValue (formatDouble x) = (if s.negative then -s.magnitude else s.magnitude) ∧
      (Reader.ofText (formatDouble x)).scanNumber = .ok ((formatDouble x, false),
        (Reader.ofText (formatDouble x)).adv (formatDouble x).length) ∧
      (formatDouble x).length ≤ 24 ∧ 24 ≤ kDoubleBufferSize ∧
      ∃ n : Number, formatDouble x = n.render ∧ n.negative = s.negative ∧
        n.magnitude = s.magnitude ∧ LaidOut s n := by
  refine ⟨fun h => by rw [formatDouble, if_pos (by simp [h])], ?_⟩
  intro s hfinite hs
  obtain ⟨n, hn, hneg, hmag, hlaid⟩ := layout_spec s
  have htext : formatDouble x = layout s.negative s.digits s.exponent := by
    rw [formatDouble, if_neg (by simp [hfinite]), hs, splitScientific_text]
  have hintegral : n.integral = false := by
    unfold LaidOut at hlaid
    split_ifs at hlaid with h
    · obtain ⟨-, f, hf⟩ := hlaid
      simp [Number.integral, hf]
    · obtain ⟨e, he, -⟩ := hlaid
      simp [Number.integral, he]
  have hscan := Reader.scanNumber_of (r := Reader.ofText n.render) (w := []) (t := []) (n := n)
    (by simp [Reader.rest_ofText]) blank_nil (Number.ends_of_head (by simp))
  rw [hintegral, List.length_nil, Nat.zero_add] at hscan
  refine ⟨?_, ?_, ?_, by decide, n, htext.trans hn, hneg, hmag, hlaid⟩
  · rw [htext, hn, exactValue_render, Number.value, hneg, hmag]
  · rw [htext, hn]
    exact hscan
  · rw [htext]
    exact length_layout_le s

/-- The digits 12345 with some exponent, negated. -/
def negatedDigits (exponent : ℤ) (hlo : -324 ≤ exponent) (hhi : exponent ≤ 308) : Scientific :=
  ⟨true, [0x31, 0x32, 0x33, 0x34, 0x35], exponent, by unfold Digits; decide, by decide, by decide,
    by rintro d ds ⟨⟩ hd; exact absurd hd (by decide), by decide, hlo, hhi⟩

/-- A price of -123.45 is written in fixed notation, and one of -1.2345e-7 in scientific notation,
where the exponent is not padded as it is by `std::to_chars`. -/
theorem formatDouble_exact_digits :
    (∃ x : Sole (negatedDigits 2 (by decide) (by decide)), formatDouble x = bytes "-123.45" ∧
      exactValue (formatDouble x) = -2469 / 20 ∧
      (Reader.ofText (formatDouble x)).scanNumber = .ok ((formatDouble x, false),
        (Reader.ofText (formatDouble x)).adv (formatDouble x).length)) ∧
    ∃ x : Sole (negatedDigits (-7) (by decide) (by decide)),
      CharConv.toChars x = bytes "-1.2345e-07" ∧ formatDouble x = bytes "-1.2345e-7" ∧
      exactValue (formatDouble x) = -2469 / 20000000000 ∧
      (Reader.ofText (formatDouble x)).scanNumber = .ok ((formatDouble x, false),
        (Reader.ofText (formatDouble x)).adv (formatDouble x).length) := by
  have hmagnitude : natValue [0x31, 0x32, 0x33, 0x34, 0x35] = 12345 := by decide
  constructor
  · obtain ⟨hvalue, hscan, -⟩ := (formatDouble_exact (.value : Sole _)).2
      (negatedDigits 2 (by decide) (by decide)) rfl rfl
    refine ⟨.value, by decide, hvalue.trans ?_, hscan⟩
    simp only [negatedDigits, Scientific.magnitude, hmagnitude]
    norm_num
  · obtain ⟨hvalue, hscan, -⟩ := (formatDouble_exact (.value : Sole _)).2
      (negatedDigits (-7) (by decide) (by decide)) rfl rfl
    refine ⟨.value, by decide, by decide, hvalue.trans ?_, hscan⟩
    simp only [negatedDigits, Scientific.magnitude, hmagnitude]
    norm_num

end Hotpath.Json
