import Mathlib.Algebra.BigOperators.Group.List.Basic
import Mathlib.Algebra.Field.Rat
import Mathlib.Algebra.Order.Ring.Rat
import Mathlib.Algebra.GroupWithZero.Basic
import Mathlib.Data.List.Induction
import Hotpath.Lib.Utf8

set_option relaxedAutoImplicit false
set_option autoImplicit false

/-!
# The tokens of a JSON text

The lexical grammar of JSON over bytes, with the meaning of each token: blanks, strings of
Unicode scalar values, and decimal numbers, together with the comma-separated sequences that
objects and arrays share. Nothing here scans: these are the languages a reader is measured
against and a writer lands in.

## Main definitions

* `JsonText.Blank` — a run of JSON whitespace.
* `JsonText.Item`, `JsonText.Items`, `JsonText.StringToken` — one spelled character, a run of
  them, and a quoted string, each with the scalar values it denotes.
* `JsonText.Number` — a number token in parts, with `Number.render`, `Number.value` and the
  side condition `Number.Ends` under which a text does not prolong it.
* `JsonText.Number.DeadEnd` — a text that starts like a number and cannot go on as one.
* `JsonText.Listing` — items separated by commas, each comma surrounded by optional blanks.
* `JsonText.Stops` — a text that prolongs no token before it.
-/

namespace JsonText

/-! ## Blanks and digits -/

/-- The four whitespace bytes. -/
def isSpace (b : UInt8) : Bool := b == 0x20 || b == 0x09 || b == 0x0A || b == 0x0D

/-- A decimal digit. -/
def isDigit (b : UInt8) : Bool := decide (0x30 ≤ b) && decide (b ≤ 0x39)

/-- A run of whitespace, possibly empty. -/
def Blank (w : List UInt8) : Prop := ∀ b ∈ w, isSpace b = true

/-- A run of digits, possibly empty. -/
def Digits (w : List UInt8) : Prop := ∀ b ∈ w, isDigit b = true

/-- The empty run is blank. -/
@[simp] lemma blank_nil : Blank [] := by simp [Blank]

/-- The empty run is digits. -/
@[simp] lemma digits_nil : Digits [] := by simp [Digits]

/-- Blanks concatenate. -/
lemma Blank.append {w w' : List UInt8} (h : Blank w) (h' : Blank w') : Blank (w ++ w') := by
  intro b hb
  rcases List.mem_append.mp hb with hb | hb
  · exact h b hb
  · exact h' b hb

/-- A digit lies between `0x30` and `0x39`. -/
lemma isDigit_iff {b : UInt8} : isDigit b = true ↔ 0x30 ≤ b ∧ b ≤ 0x39 := by
  simp [isDigit]

/-- A digit is an ASCII byte. -/
lemma lt_of_isDigit {b : UInt8} (h : isDigit b = true) : b < 0x80 := by
  rw [isDigit_iff, UInt8.le_iff_toNat_le, UInt8.le_iff_toNat_le] at h
  rw [UInt8.lt_iff_toNat_lt]
  simp only [UInt8.reduceToNat] at h ⊢
  omega

/-- A digit is not whitespace. -/
lemma isSpace_of_isDigit {b : UInt8} (h : isDigit b = true) : isSpace b = false := by
  rw [isDigit_iff, UInt8.le_iff_toNat_le, UInt8.le_iff_toNat_le] at h
  simp only [isSpace, Bool.or_eq_false_iff, beq_eq_false_iff_ne, ne_eq, ← UInt8.toNat_inj]
  simp only [UInt8.reduceToNat] at h ⊢
  omega

/-- The number a run of digits denotes. -/
def natValue (ds : List UInt8) : ℕ := ds.foldl (fun n b => n * 10 + (b.toNat - 0x30)) 0

/-! ## Strings -/

/-- The value of a hexadecimal digit in either case. -/
def hexDigit (b : UInt8) : Option ℕ :=
  if 0x30 ≤ b ∧ b ≤ 0x39 then some (b.toNat - 0x30)
  else if 0x61 ≤ b ∧ b ≤ 0x66 then some (b.toNat - 0x61 + 10)
  else if 0x41 ≤ b ∧ b ≤ 0x46 then some (b.toNat - 0x41 + 10)
  else none

/-- The value of four hexadecimal digits. -/
def hexQuad (a b c d : UInt8) : Option ℕ := do
  let a ← hexDigit a
  let b ← hexDigit b
  let c ← hexDigit c
  let d ← hexDigit d
  some (((a * 16 + b) * 16 + c) * 16 + d)

/-- The byte named by the letter after a backslash, for the eight one-letter escapes. -/
def shortEscape (b : UInt8) : Option UInt8 :=
  if b = 0x22 ∨ b = 0x5C ∨ b = 0x2F then some b
  else if b = 0x62 then some 0x08
  else if b = 0x66 then some 0x0C
  else if b = 0x6E then some 0x0A
  else if b = 0x72 then some 0x0D
  else if b = 0x74 then some 0x09
  else none

/-- The spellings of one scalar value inside a string: an ASCII byte that needs no escape, the
UTF-8 sequence of a value beyond ASCII, a one-letter escape, four hexadecimal digits of a
value that is no surrogate, or a high and a low surrogate. -/
inductive Item : List UInt8 → Char → Prop
  | raw {b : UInt8} (hlo : 0x20 ≤ b) (hhi : b < 0x80) (hq : b ≠ 0x22) (hb : b ≠ 0x5C) :
      Item [b] (Utf8.ascii b)
  | multibyte {c : Char} (h : 0x80 ≤ c.toNat) : Item (String.utf8EncodeChar c) c
  | short {e b : UInt8} (h : shortEscape e = some b) : Item [0x5C, e] (Utf8.ascii b)
  | hex {h₁ h₂ h₃ h₄ : UInt8} {c : Char} (h : hexQuad h₁ h₂ h₃ h₄ = some c.toNat) :
      Item [0x5C, 0x75, h₁, h₂, h₃, h₄] c
  | pair {h₁ h₂ h₃ h₄ l₁ l₂ l₃ l₄ : UInt8} {hi lo : ℕ} {c : Char}
      (hhi : hexQuad h₁ h₂ h₃ h₄ = some hi) (hlo : hexQuad l₁ l₂ l₃ l₄ = some lo)
      (hhi₁ : 0xD800 ≤ hi) (hhi₂ : hi ≤ 0xDBFF) (hlo₁ : 0xDC00 ≤ lo) (hlo₂ : lo ≤ 0xDFFF)
      (hc : c.toNat = 0x10000 + (hi - 0xD800) * 0x400 + (lo - 0xDC00)) :
      Item [0x5C, 0x75, h₁, h₂, h₃, h₄, 0x5C, 0x75, l₁, l₂, l₃, l₄] c

/-- A run of spelled characters and the scalar values it denotes, in order. -/
inductive Items : List UInt8 → List Char → Prop
  | nil : Items [] []
  | cons {u s : List UInt8} {c : Char} {cs : List Char} (hu : Item u c) (hs : Items s cs) :
      Items (u ++ s) (c :: cs)

/-- A quoted string and the scalar values it denotes. -/
def StringToken (tok : List UInt8) (cs : List Char) : Prop :=
  ∃ s, Items s cs ∧ tok = 0x22 :: (s ++ [0x22])

/-- Runs of spelled characters concatenate. -/
lemma Items.append {s t : List UInt8} {cs ds : List Char} (hs : Items s cs) (ht : Items t ds) :
    Items (s ++ t) (cs ++ ds) := by
  induction hs with
  | nil => exact ht
  | cons hu _ ih =>
    rw [List.append_assoc, List.cons_append]
    exact Items.cons hu ih

/-- One spelled character is a run. -/
lemma Item.items {u : List UInt8} {c : Char} (h : Item u c) : Items u [c] := by
  simpa using Items.cons h Items.nil

/-- A hexadecimal digit is ASCII. -/
lemma lt_of_hexDigit {b : UInt8} {n : ℕ} (h : hexDigit b = some n) : b < 0x80 := by
  have hle : ∀ c : UInt8, c < 0x80 → b ≤ c → b < 0x80 := by
    intro c hc hb
    rw [UInt8.lt_iff_toNat_lt] at hc ⊢
    exact lt_of_le_of_lt (UInt8.le_iff_toNat_le.mp hb) hc
  unfold hexDigit at h
  split_ifs at h with h1 h2 h3
  · exact hle 0x39 (by decide) h1.2
  · exact hle 0x66 (by decide) h2.2
  · exact hle 0x46 (by decide) h3.2

/-- A four-digit escape is valid UTF-8. -/
lemma valid_hexEscape {a b c d : UInt8} {n : ℕ} (h : hexQuad a b c d = some n) :
    Utf8.Valid [0x5C, 0x75, a, b, c, d] := by
  simp only [hexQuad, Option.bind_eq_bind, Option.bind_eq_some_iff] at h
  obtain ⟨_, ha, _, hb, _, hc, _, hd, -⟩ := h
  refine Utf8.valid_of_ascii ?_
  simp only [List.mem_cons, List.not_mem_nil, or_false]
  rintro x (rfl | rfl | rfl | rfl | rfl | rfl)
  · decide
  · decide
  · exact lt_of_hexDigit ha
  · exact lt_of_hexDigit hb
  · exact lt_of_hexDigit hc
  · exact lt_of_hexDigit hd

/-- The letter of a one-letter escape is ASCII. -/
lemma lt_of_shortEscape {e b : UInt8} (h : shortEscape e = some b) : e < 0x80 := by
  unfold shortEscape at h
  split_ifs at h with h1 h2 h3 h4 h5 h6
  · rcases h1 with rfl | rfl | rfl <;> decide
  all_goals subst e; decide

/-- A spelling is valid UTF-8. -/
lemma Item.valid {u : List UInt8} {c : Char} (h : Item u c) : Utf8.Valid u := by
  cases h with
  | raw hlo hhi hq hb => exact Utf8.valid_of_ascii (by simpa using hhi)
  | multibyte h => exact ⟨[c], by simp⟩
  | short h =>
    refine Utf8.valid_of_ascii ?_
    simp only [List.mem_cons, List.not_mem_nil, or_false]
    rintro b (rfl | rfl)
    · decide
    · exact lt_of_shortEscape h
  | hex h => exact valid_hexEscape h
  | pair hhi hlo _ _ _ _ _ => exact (valid_hexEscape hhi).append (valid_hexEscape hlo)

/-- A run of spelled characters is valid UTF-8. -/
lemma Items.valid {s : List UInt8} {cs : List Char} (h : Items s cs) : Utf8.Valid s := by
  induction h with
  | nil => exact Utf8.valid_nil
  | cons hu _ ih => exact hu.valid.append ih

/-- A spelling is never empty. -/
lemma Item.length_pos {u : List UInt8} {c : Char} (h : Item u c) : 0 < u.length := by
  cases h with
  | multibyte h =>
    rw [String.length_utf8EncodeChar]
    exact Char.utf8Size_pos c
  | _ => simp

/-! ## Numbers -/

/-- The exponent part of a number: the marker's case, the sign if one is written, and at least
one digit. -/
structure Exponent where
  /-- The marker is `E` rather than `e`. -/
  upper : Bool
  /-- `some true` for a minus sign, `some false` for a plus sign. -/
  sign : Option Bool
  /-- The digits. -/
  digits : List UInt8
  digits_ne : digits ≠ []
  digits_ok : Digits digits

/-- A number token in parts: the integer part is `0` or starts with a nonzero digit, and a
fraction has at least one digit. -/
structure Number where
  /-- A minus sign is written. -/
  negative : Bool
  /-- The integer part. -/
  whole : List UInt8
  /-- The digits after the point, if there is one. -/
  fraction : Option (List UInt8)
  /-- The exponent part, if there is one. -/
  exponent : Option Exponent
  whole_ok : Digits whole
  whole_ne : whole ≠ []
  whole_lead : ∀ d ds, whole = d :: ds → d = 0x30 → ds = []
  fraction_ne : ∀ f, fraction = some f → f ≠ []
  fraction_ok : ∀ f, fraction = some f → Digits f

/-- The text of an exponent sign. -/
def signText : Option Bool → List UInt8
  | none => []
  | some true => [0x2D]
  | some false => [0x2B]

/-- The text of an exponent part. -/
def Exponent.render (e : Exponent) : List UInt8 :=
  (if e.upper then 0x45 else 0x65) :: (signText e.sign ++ e.digits)

/-- The exponent as an integer. -/
def Exponent.value (e : Exponent) : ℤ :=
  if e.sign = some true then -(natValue e.digits : ℤ) else natValue e.digits

/-- The text of a fraction part. -/
def fractionText : Option (List UInt8) → List UInt8
  | none => []
  | some f => 0x2E :: f

/-- The text of an optional exponent part. -/
def exponentText : Option Exponent → List UInt8
  | none => []
  | some e => e.render

namespace Number

/-- The text of a number. -/
def render (n : Number) : List UInt8 :=
  (if n.negative then [0x2D] else []) ++
    (n.whole ++ (fractionText n.fraction ++ exponentText n.exponent))

/-- The token has neither a fraction nor an exponent. -/
def integral (n : Number) : Bool := n.fraction.isNone && n.exponent.isNone

/-- The integer an integral token denotes. -/
def intValue (n : Number) : ℤ :=
  if n.negative then -(natValue n.whole : ℤ) else natValue n.whole

/-- The magnitude of a number, exactly. -/
def magnitude (n : Number) : ℚ :=
  (natValue (n.whole ++ n.fraction.getD []) : ℚ) *
    (10 : ℚ) ^ ((n.exponent.elim 0 Exponent.value) - ((n.fraction.getD []).length : ℤ))

/-- The number a token denotes, exactly. -/
def value (n : Number) : ℚ := if n.negative then -n.magnitude else n.magnitude

/-- The text that follows does not prolong the token: no further digit, no exponent marker
unless there is an exponent already, no point unless there is a fraction or an exponent. -/
def Ends (n : Number) (t : List UInt8) : Prop :=
  ∀ b ∈ t.head?, isDigit b = false ∧
    (n.exponent = none → b ≠ 0x65 ∧ b ≠ 0x45) ∧
    (n.fraction = none → n.exponent = none → b ≠ 0x2E)

/-- A text that starts like a number and then leaves the grammar at a byte that a number could
only have gone on with: a digit after a leading zero, a point after the integer part without a
digit after it, or an exponent marker without a digit, signed or not, after it. -/
inductive DeadEnd : List UInt8 → Prop
  | leadingZero {n : Number} {d : UInt8} {t : List UInt8} (hw : n.whole = [0x30])
      (hf : n.fraction = none) (he : n.exponent = none) (hd : isDigit d = true) :
      DeadEnd (n.render ++ d :: t)
  | point {n : Number} {t : List UInt8} (hf : n.fraction = none) (he : n.exponent = none)
      (ht : ∀ b ∈ t.head?, isDigit b = false) : DeadEnd (n.render ++ 0x2E :: t)
  | marker {n : Number} {c : UInt8} {t : List UInt8} (he : n.exponent = none)
      (hc : c = 0x65 ∨ c = 0x45) (ht : ∀ s d u, t = signText s ++ d :: u → isDigit d = false) :
      DeadEnd (n.render ++ c :: t)

/-- A text that starts with no digit, point or exponent marker prolongs no number. -/
lemma ends_of_head {n : Number} {t : List UInt8}
    (h : ∀ b ∈ t.head?, isDigit b = false ∧ b ≠ 0x65 ∧ b ≠ 0x45 ∧ b ≠ 0x2E) : n.Ends t := by
  intro b hb
  obtain ⟨h1, h2, h3, h4⟩ := h b hb
  exact ⟨h1, fun _ => ⟨h2, h3⟩, fun _ _ => h4⟩

/-- The text of a number is ASCII. -/
lemma lt_of_mem_render {n : Number} : ∀ b ∈ n.render, b < 0x80 := by
  intro b hb
  simp only [render, List.mem_append] at hb
  rcases hb with hb | hb | hb | hb
  · split_ifs at hb
    · simp only [List.mem_singleton] at hb
      subst hb
      decide
    · simp at hb
  · exact lt_of_isDigit (n.whole_ok b hb)
  · cases hf : n.fraction with
    | none => simp [hf, fractionText] at hb
    | some f =>
      simp only [hf, fractionText, List.mem_cons] at hb
      rcases hb with rfl | hb
      · decide
      · exact lt_of_isDigit (n.fraction_ok f hf b hb)
  · cases he : n.exponent with
    | none => simp [he, exponentText] at hb
    | some e =>
      simp only [he, exponentText, Exponent.render, List.mem_cons, List.mem_append] at hb
      rcases hb with rfl | hb | hb
      · split_ifs <;> decide
      · cases hs : e.sign with
        | none => simp [hs, signText] at hb
        | some s =>
          cases s <;> simp only [hs, signText, List.mem_singleton] at hb <;> subst hb <;> decide
      · exact lt_of_isDigit (e.digits_ok b hb)

/-- The bytes of a number are digits, signs, the point and the exponent marker. -/
lemma mem_render {n : Number} : ∀ b ∈ n.render, isDigit b = true ∨
    b = 0x2D ∨ b = 0x2B ∨ b = 0x2E ∨ b = 0x65 ∨ b = 0x45 := by
  intro b hb
  simp only [render, List.mem_append] at hb
  rcases hb with hb | hb | hb | hb
  · split_ifs at hb
    · exact Or.inr (Or.inl (List.mem_singleton.mp hb))
    · simp at hb
  · exact Or.inl (n.whole_ok b hb)
  · cases hf : n.fraction with
    | none => simp [hf, fractionText] at hb
    | some f =>
      simp only [hf, fractionText, List.mem_cons] at hb
      rcases hb with rfl | hb
      · simp
      · exact Or.inl (n.fraction_ok f hf b hb)
  · cases he : n.exponent with
    | none => simp [he, exponentText] at hb
    | some e =>
      simp only [he, exponentText, Exponent.render, List.mem_cons, List.mem_append] at hb
      rcases hb with rfl | hb | hb
      · split_ifs <;> simp
      · cases hs : e.sign with
        | none => simp [hs, signText] at hb
        | some s =>
          cases s <;> simp only [hs, signText, List.mem_singleton] at hb <;> simp [hb]
      · exact Or.inl (e.digits_ok b hb)

/-- The first byte of a number is a minus sign or a digit. -/
lemma head_render (n : Number) :
    ∃ b t, n.render = b :: t ∧ (b = 0x2D ∨ isDigit b = true) := by
  cases hw : n.whole with
  | nil => exact absurd hw n.whole_ne
  | cons d ds =>
    have hd : isDigit d = true := n.whole_ok d (by simp [hw])
    cases hn : n.negative with
    | true => exact ⟨0x2D, _, by rw [render, hn]; rfl, Or.inl rfl⟩
    | false => exact ⟨d, _, by rw [render, hn, hw]; rfl, Or.inr hd⟩

end Number

/-! ## Comma-separated sequences -/

/-- What stands before an item of a sequence: blanks before the first one, and a comma that
blanks may surround before every other. -/
def Lead (first : Bool) (s : List UInt8) : Prop :=
  if first then Blank s else ∃ w w', Blank w ∧ Blank w' ∧ s = w ++ 0x2C :: w'

/-- A sequence of items separated by commas, read from the left. -/
inductive Listing {α : Type} (item : List UInt8 → α → Prop) : List α → List UInt8 → Prop
  | nil : Listing item [] []
  | snoc {as : List α} {c s tok : List UInt8} {a : α} (hc : Listing item as c)
      (hs : Lead as.isEmpty s) (ha : item tok a) : Listing item (as ++ [a]) (c ++ (s ++ tok))

/-- What leads an item is blanks and a comma. -/
lemma Lead.mem {first : Bool} {s : List UInt8} (h : Lead first s) :
    ∀ b ∈ s, isSpace b = true ∨ b = 0x2C := by
  intro b hb
  cases first with
  | true => exact Or.inl (h b hb)
  | false =>
    obtain ⟨w, w', hw, hw', rfl⟩ := h
    rcases List.mem_append.mp hb with hb | hb
    · exact Or.inl (hw b hb)
    · rcases List.mem_cons.mp hb with rfl | hb
      · exact Or.inr rfl
      · exact Or.inl (hw' b hb)

/-- What holds of the tokens, of what leads them, and of two texts in a row, holds of a
listing. -/
lemma Listing.of_append {α : Type} {item : List UInt8 → α → Prop} {Q : List UInt8 → Prop}
    (hnil : Q []) (happend : ∀ s t, Q s → Q t → Q (s ++ t))
    (hlead : ∀ first s, Lead first s → Q s) (hitem : ∀ tok a, item tok a → Q tok) {as : List α}
    {c : List UInt8} (h : Listing item as c) : Q c := by
  induction h with
  | nil => exact hnil
  | snoc _ hs ha ih => exact happend _ _ ih (happend _ _ (hlead _ _ hs) (hitem _ _ ha))

/-- The text of no items is empty. -/
lemma Listing.nil_inv {α : Type} {item : List UInt8 → α → Prop} {c : List UInt8}
    (h : Listing item [] c) : c = [] := by
  generalize hbs : ([] : List α) = bs at h
  cases h with
  | nil => rfl
  | snoc _ _ _ => simp at hbs

/-- A listing of one more item ends with that item. -/
lemma Listing.snoc_inv {α : Type} {item : List UInt8 → α → Prop} {l : List α} {a : α}
    {c : List UInt8} (h : Listing item (l ++ [a]) c) :
    ∃ c' s tok, Listing item l c' ∧ Lead l.isEmpty s ∧ item tok a ∧ c = c' ++ (s ++ tok) := by
  generalize hbs : l ++ [a] = bs at h
  cases h with
  | nil => simp at hbs
  | snoc hc hs ha =>
    obtain ⟨rfl, h⟩ := List.append_inj' hbs rfl
    obtain rfl : a = _ := by simpa using h
    exact ⟨_, _, _, hc, hs, ha, rfl⟩

/-- A listing around one of its items: what is listed before it, what leads it, its token, and
the text after it. -/
lemma Listing.split {α : Type} {item : List UInt8 → α → Prop} {as bs : List α} {a : α}
    {c : List UInt8} (h : Listing item (as ++ a :: bs) c) :
    ∃ c₁ s tok c₂, Listing item as c₁ ∧ Lead as.isEmpty s ∧ item tok a ∧
      c = c₁ ++ (s ++ (tok ++ c₂)) := by
  induction bs using List.reverseRecOn generalizing c with
  | nil =>
    obtain ⟨c', s, tok, hc, hs, ha, rfl⟩ := h.snoc_inv
    exact ⟨c', s, tok, [], hc, hs, ha, by rw [List.append_nil]⟩
  | append_singleton bs b ih =>
    rw [← List.cons_append, ← List.append_assoc] at h
    obtain ⟨c', s', tok', hc, -, -, rfl⟩ := h.snoc_inv
    obtain ⟨c₁, s, tok, c₂, hc₁, hs, ha, rfl⟩ := ih hc
    exact ⟨c₁, s, tok, c₂ ++ (s' ++ tok'), hc₁, hs, ha, by simp only [List.append_assoc]⟩

/-- Listings are monotone in the items. -/
lemma Listing.mono {α : Type} {item item' : List UInt8 → α → Prop}
    (h : ∀ tok a, item tok a → item' tok a) {as : List α} {c : List UInt8}
    (hl : Listing item as c) : Listing item' as c := by
  induction hl with
  | nil => exact Listing.nil
  | snoc _ hs ha ih => exact Listing.snoc ih hs (h _ _ ha)

/-- Every item of a listing has its token. -/
lemma Listing.exists_token {α : Type} {item : List UInt8 → α → Prop} {as : List α}
    {c : List UInt8} (h : Listing item as c) {a : α} (ha : a ∈ as) : ∃ tok, item tok a := by
  induction h with
  | nil => simp at ha
  | snoc _ _ htok ih =>
    rcases List.mem_append.mp ha with ha | ha
    · exact ih ha
    · obtain rfl := List.mem_singleton.mp ha
      exact ⟨_, htok⟩

/-- The tokens of items with distinct keys are disjoint parts of the listing: lower bounds on
their lengths add up to one on the listing's.

**Proof sketch.** Induction on the listing. Its last item accounts for its own key if the bound
of that key is one on its token; all other keys have their items before it. -/
lemma Listing.sum_le {α ι : Type} [DecidableEq ι] {item : List UInt8 → α → Prop} {as : List α}
    {c : List UInt8} (h : Listing item as c) (key : α → ι) (bound : ι → ℕ) {ks : List ι}
    (hks : ks.Nodup)
    (hbound : ∀ k ∈ ks, ∃ a ∈ as, key a = k ∧ ∀ tok, item tok a → bound k ≤ tok.length) :
    (ks.map bound).sum ≤ c.length := by
  induction h generalizing ks with
  | nil =>
    have hnil : ks = [] := List.eq_nil_iff_forall_not_mem.mpr fun k hk => by
      obtain ⟨a, ha, -⟩ := hbound k hk
      simp at ha
    simp [hnil]
  | @snoc as c s tok a _ _ htok ih =>
    simp only [List.length_append]
    by_cases hlast : key a ∈ ks ∧ ∀ tok, item tok a → bound (key a) ≤ tok.length
    · have hrest : ((ks.erase (key a)).map bound).sum ≤ c.length := by
        refine ih (hks.erase _) fun k hk => ?_
        obtain ⟨hne, hk⟩ := (List.Nodup.mem_erase_iff hks).mp hk
        obtain ⟨b, hb, hkey, hlen⟩ := hbound k hk
        rcases List.mem_append.mp hb with hb | hb
        · exact ⟨b, hb, hkey, hlen⟩
        · obtain rfl := List.mem_singleton.mp hb
          exact absurd hkey.symm hne
      have hsum := List.sum_map_erase bound hlast.1
      have htok := hlast.2 tok htok
      omega
    · have hrest : (ks.map bound).sum ≤ c.length := by
        refine ih hks fun k hk => ?_
        obtain ⟨b, hb, hkey, hlen⟩ := hbound k hk
        rcases List.mem_append.mp hb with hb | hb
        · exact ⟨b, hb, hkey, hlen⟩
        · obtain rfl := List.mem_singleton.mp hb
          subst hkey
          exact absurd ⟨hk, hlen⟩ hlast
      omega

/-- A byte that can follow a token inside a container: whitespace, a comma or a closing
bracket. -/
def isDelimiter (b : UInt8) : Bool := isSpace b || b == 0x2C || b == 0x5D || b == 0x7D

/-- A text that prolongs no token: it is empty or starts with a delimiter. -/
def Stops (t : List UInt8) : Prop := ∀ b ∈ t.head?, isDelimiter b = true

/-- Blanks before a text that stops stop too. -/
lemma stops_blank {w t : List UInt8} (hw : Blank w) (ht : Stops t) : Stops (w ++ t) := by
  intro b hb
  cases w with
  | nil => exact ht b hb
  | cons c w =>
    obtain rfl : c = b := by simpa using hb
    simp [isDelimiter, hw c (by simp)]

/-- A text that stops prolongs no number. -/
lemma Stops.ends {t : List UInt8} (ht : Stops t) (n : Number) : n.Ends t := by
  refine Number.ends_of_head fun b hb => ?_
  have h := ht b hb
  simp only [isDelimiter, isSpace, Bool.or_eq_true, beq_iff_eq] at h
  rcases h with (((((rfl | rfl) | rfl) | rfl) | rfl) | rfl) | rfl <;> decide

end JsonText
