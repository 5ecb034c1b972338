import Mathlib.Data.List.TakeWhile
import Mathlib.Data.Nat.Digits.Lemmas
import Hotpath.Lib.JsonText

set_option relaxedAutoImplicit false
set_option autoImplicit false

/-!
# Decimal numerals

The decimal text of a natural number and of an integer, reading an integer back from text
within a range, and scientific notation: a digit string with a decimal exponent, the form in
which shortest round-trip conversions are delivered.

## Main definitions

* `JsonText.decimal`, `JsonText.intText` — decimal text.
* `JsonText.FromChars`, `JsonText.fromCharsInt` — reading an integer back.
* `JsonText.exactValue` — reading a number as an exact rational.
* `JsonText.Scientific` — sign, digits and exponent, with `Scientific.text` and
  `Scientific.magnitude`.

## Main results

* `JsonText.natValue_decimal` — the decimal text denotes its number.
* `JsonText.fromCharsInt_render` — an integer token reads back as its value, in range.
* `JsonText.exactValue_render` — every number token reads back as its value.
* `JsonText.length_intText_le` — an integer within `±10^k` takes at most `k + 1` bytes.
-/

namespace JsonText

/-! ## The value of a digit run -/

/-- Reading a run after a first part shifts the first part by the run's length. -/
private lemma foldl_digits (n : ℕ) (ds : List UInt8) :
    ds.foldl (fun n b => n * 10 + (b.toNat - 0x30)) n = n * 10 ^ ds.length + natValue ds := by
  induction ds using List.reverseRecOn with
  | nil => simp [natValue]
  | append_singleton ds d ih =>
    simp only [natValue, List.foldl_append, List.foldl_cons, List.foldl_nil, List.length_append,
      List.length_singleton] at ih ⊢
    rw [ih, pow_succ]
    ring

/-- The value of two runs written one after the other. -/
lemma natValue_append (ds es : List UInt8) :
    natValue (ds ++ es) = natValue ds * 10 ^ es.length + natValue es := by
  rw [natValue, List.foldl_append, foldl_digits]
  rfl

/-- The empty run is zero. -/
@[simp] lemma natValue_nil : natValue [] = 0 := rfl

/-- A single digit. -/
@[simp] lemma natValue_singleton (b : UInt8) : natValue [b] = b.toNat - 0x30 := by
  simp [natValue]

/-- A run of zeros is zero. -/
@[simp] lemma natValue_zeros (k : ℕ) : natValue (List.replicate k 0x30) = 0 := by
  induction k with
  | zero => rfl
  | succ k ih => rw [List.replicate_succ', natValue_append, ih]; simp

/-! ## Decimal text -/

/-- The byte of a decimal digit. -/
def digitByte (d : ℕ) : UInt8 := UInt8.ofNat (0x30 + d)

/-- The decimal text of a natural number. -/
def decimal (n : ℕ) : List UInt8 :=
  if n = 0 then [0x30] else ((Nat.digits 10 n).map digitByte).reverse

/-- The decimal text of an integer. -/
def intText (z : ℤ) : List UInt8 :=
  if z < 0 then 0x2D :: decimal z.natAbs else decimal z.natAbs

/-- The number of a digit's byte. -/
lemma toNat_digitByte {d : ℕ} (h : d < 10) : (digitByte d).toNat = 0x30 + d := by
  rw [digitByte, UInt8.toNat_ofNat']
  exact Nat.mod_eq_of_lt (by omega)

/-- A digit's byte is a digit. -/
lemma isDigit_digitByte {d : ℕ} (h : d < 10) : isDigit (digitByte d) = true := by
  rw [isDigit_iff, UInt8.le_iff_toNat_le, UInt8.le_iff_toNat_le, toNat_digitByte h]
  simp only [UInt8.reduceToNat]
  omega

/-- Decimal text is digits. -/
lemma digits_decimal (n : ℕ) : Digits (decimal n) := by
  intro b hb
  unfold decimal at hb
  split_ifs at hb with h
  · simp only [List.mem_singleton] at hb
    subst hb
    decide
  · simp only [List.mem_reverse, List.mem_map] at hb
    obtain ⟨d, hd, rfl⟩ := hb
    exact isDigit_digitByte (Nat.digits_lt_base (by decide) hd)

/-- Decimal text is not empty. -/
lemma decimal_ne_nil (n : ℕ) : decimal n ≠ [] := by
  unfold decimal
  split_ifs with h
  · simp
  · simpa [Nat.digits_eq_nil_iff_eq_zero] using h

/-- Decimal text has no leading zero, unless it is that of zero. -/
lemma decimal_lead (n : ℕ) : ∀ d ds, decimal n = d :: ds → d = 0x30 → ds = [] := by
  intro d ds h hd
  unfold decimal at h
  split_ifs at h with h0
  · simp only [List.cons.injEq] at h
    exact h.2.symm
  · exfalso
    have hne : Nat.digits 10 n ≠ [] := by simpa [Nat.digits_eq_nil_iff_eq_zero] using h0
    have hlast := Nat.getLast_digit_ne_zero 10 h0
    have hlt : (Nat.digits 10 n).getLast hne < 10 :=
      Nat.digits_lt_base (by decide) (List.getLast_mem hne)
    have hhead : (((Nat.digits 10 n).map digitByte).reverse).head? =
        some (digitByte ((Nat.digits 10 n).getLast hne)) := by
      rw [List.head?_reverse, List.getLast?_map, List.getLast?_eq_some_getLast hne]
      rfl
    rw [h, List.head?_cons, Option.some.injEq] at hhead
    have := toNat_digitByte hlt
    rw [← hhead, hd] at this
    simp only [UInt8.reduceToNat] at this
    omega

/-- Decimal text denotes its number.

**Proof sketch.** The digits of `n`, least significant first, fold back to `n`; the text is
their reverse, so its left fold is that right fold. -/
lemma natValue_decimal (n : ℕ) : natValue (decimal n) = n := by
  unfold decimal
  split_ifs with h
  · simp [h]
  · have hfold : ∀ ds : List ℕ, (∀ d ∈ ds, d < 10) →
        natValue ((ds.map digitByte).reverse) = Nat.ofDigits 10 ds := by
      intro ds
      induction ds with
      | nil => simp
      | cons d ds ih =>
        intro hds
        rw [List.map_cons, List.reverse_cons, natValue_append, ih fun e he => hds e (by simp [he]),
          Nat.ofDigits_cons, natValue_singleton, toNat_digitByte (hds d (by simp))]
        simp only [List.length_singleton, pow_one]
        omega
    rw [hfold _ fun d hd => Nat.digits_lt_base (by decide) hd, Nat.ofDigits_digits]

/-- A number below `10^k` takes at most `k` digits, at least one. -/
lemma length_decimal_le {n k : ℕ} (hk : 0 < k) (h : n < 10 ^ k) : (decimal n).length ≤ k := by
  unfold decimal
  split_ifs with h0
  · simpa using Nat.succ_le_of_lt hk
  · rw [List.length_reverse, List.length_map]
    exact (Nat.digits_length_le_iff (by decide) n).mpr h

/-- An integer within `±10^k` takes at most `k + 1` bytes. -/
lemma length_intText_le {z : ℤ} {k : ℕ} (hk : 0 < k) (h : z.natAbs < 10 ^ k) :
    (intText z).length ≤ k + 1 := by
  have := length_decimal_le hk h
  unfold intText
  split_ifs
  · simpa using this
  · omega

/-! ## Reading an integer -/

/-- What a `from_chars` conversion yields: a value, or one of its two error codes. -/
inductive FromChars (α : Type) where
  | value (a : α)
  | outOfRange
  | invalid

/-- `from_chars` for an integer type with range `[lo, hi]`: an optional minus sign and the
longest run of digits after it. -/
def fromCharsInt (lo hi : ℤ) (text : List UInt8) : FromChars ℤ :=
  let negative := text.head? == some 0x2D
  let digits := (if negative then text.tail else text).takeWhile isDigit
  let v : ℤ := if negative then -(natValue digits : ℤ) else natValue digits
  if digits.isEmpty then .invalid
  else if lo ≤ v ∧ v ≤ hi then .value v
  else .outOfRange

/-- A run of digits is its own longest run. -/
lemma takeWhile_digits {ds : List UInt8} (h : Digits ds) : ds.takeWhile isDigit = ds :=
  List.takeWhile_eq_self_iff.mpr h

/-- An integral number token is its sign and its integer part. -/
lemma Number.render_of_integral {n : Number} (h : n.integral = true) :
    n.render = (if n.negative then [0x2D] else []) ++ n.whole := by
  simp only [Number.integral, Bool.and_eq_true, Option.isNone_iff_eq_none] at h
  simp [Number.render, h.1, h.2, fractionText, exponentText]

/-- A sign and a run of digits read back as the number they denote, or are out of range when
it is. -/
lemma fromCharsInt_digits {ds : List UInt8} (hd : Digits ds) (hne : ds ≠ []) (negative : Bool)
    (lo hi : ℤ) :
    fromCharsInt lo hi ((if negative then [0x2D] else []) ++ ds) =
      let v : ℤ := if negative then -(natValue ds : ℤ) else natValue ds
      if lo ≤ v ∧ v ≤ hi then .value v else .outOfRange := by
  have hrun := takeWhile_digits hd
  rw [fromCharsInt]
  cases negative with
  | true => simp [hrun, hne]
  | false =>
    have hhead : ¬ ds.head? = some 0x2D := by
      intro hh
      have := hd 0x2D (List.mem_of_mem_head? hh)
      exact absurd this (by decide)
    simp [hrun, hne, hhead]

/-- **An integral token reads back as its value**, or is out of range when that value is. -/
lemma fromCharsInt_render {n : Number} (h : n.integral = true) (lo hi : ℤ) :
    fromCharsInt lo hi n.render =
      if lo ≤ n.intValue ∧ n.intValue ≤ hi then .value n.intValue else .outOfRange := by
  rw [Number.render_of_integral h, fromCharsInt_digits n.whole_ok n.whole_ne]
  rfl

/-- The number token of an integer. -/
def intNumber (z : ℤ) : Number where
  negative := decide (z < 0)
  whole := decimal z.natAbs
  fraction := none
  exponent := none
  whole_ok := digits_decimal _
  whole_ne := decimal_ne_nil _
  whole_lead := decimal_lead _
  fraction_ne := by simp
  fraction_ok := by simp

/-- The token of an integer is its decimal text. -/
lemma render_intNumber (z : ℤ) : (intNumber z).render = intText z := by
  rw [Number.render_of_integral rfl, intText]
  by_cases h : z < 0 <;> simp [intNumber, h]

/-- The token of an integer denotes it. -/
lemma intValue_intNumber (z : ℤ) : (intNumber z).intValue = z := by
  simp only [Number.intValue, intNumber, natValue_decimal, decide_eq_true_eq]
  split_ifs <;> omega

/-! ## Reading a number exactly -/

/-- The digits after a point, if there is one, and what follows them. -/
def splitFraction (text : List UInt8) : List UInt8 × List UInt8 :=
  if text.head? = some 0x2E then (text.tail.takeWhile isDigit, text.tail.dropWhile isDigit)
  else ([], text)

/-- The value of an exponent part, or zero if there is none. -/
def exponentValue (text : List UInt8) : ℤ :=
  if text.tail.head? = some 0x2D then -(natValue text.tail.tail : ℤ)
  else if text.tail.head? = some 0x2B then natValue text.tail.tail
  else natValue text.tail

/-- The exact value of a number without its sign. -/
def exactMagnitude (text : List UInt8) : ℚ :=
  let fraction := splitFraction (text.dropWhile isDigit)
  (natValue (text.takeWhile isDigit ++ fraction.1) : ℚ) *
    (10 : ℚ) ^ (exponentValue fraction.2 - (fraction.1.length : ℤ))

/-- The exact value of a number. -/
def exactValue (text : List UInt8) : ℚ :=
  if text.head? = some 0x2D then -exactMagnitude text.tail else exactMagnitude text

/-- A run of digits ends where no digit follows. -/
private lemma takeWhile_digits_append {ds t : List UInt8} (hd : Digits ds)
    (ht : ∀ b ∈ t.head?, isDigit b = false) :
    (ds ++ t).takeWhile isDigit = ds ∧ (ds ++ t).dropWhile isDigit = t := by
  rw [List.takeWhile_append_of_pos hd, List.dropWhile_append_of_pos hd]
  cases t with
  | nil => simp
  | cons b t => simp [ht b (by simp)]

/-- No digit starts an exponent part. -/
private lemma head_exponentText (e : Option Exponent) :
    ∀ b ∈ (exponentText e).head?, isDigit b = false ∧ b ≠ 0x2E := by
  cases e with
  | none => simp [exponentText]
  | some e =>
    cases hu : e.upper <;> simp only [exponentText, Exponent.render, hu, if_true,
      Bool.false_eq_true, if_false, List.head?_cons, Option.mem_some_iff, forall_eq'] <;> decide

/-- An exponent part reads back as its value. -/
private lemma exponentValue_exponentText (e : Option Exponent) :
    exponentValue (exponentText e) = e.elim 0 Exponent.value := by
  cases e with
  | none => rfl
  | some e =>
    obtain ⟨upper, sign, digits, hne, hok⟩ := e
    simp only [exponentText, Exponent.render, exponentValue, List.tail_cons, Option.elim_some,
      Exponent.value]
    cases sign with
    | some s => cases s <;> simp [signText]
    | none =>
      cases digits with
      | nil => exact absurd rfl hne
      | cons d ds =>
        have hd : isDigit d = true := hok d (by simp)
        have hminus : d ≠ 0x2D := by
          rintro rfl
          exact absurd hd (by decide)
        have hplus : d ≠ 0x2B := by
          rintro rfl
          exact absurd hd (by decide)
        simp [signText, hminus, hplus]

/-- A fraction and an exponent part are split where the fraction ends. -/
private lemma splitFraction_text (n : Number) :
    splitFraction (fractionText n.fraction ++ exponentText n.exponent) =
      (n.fraction.getD [], exponentText n.exponent) := by
  have hexp := head_exponentText n.exponent
  cases hf : n.fraction with
  | none =>
    have hpoint : (exponentText n.exponent).head? ≠ some 0x2E := fun h => (hexp 0x2E h).2 rfl
    simp [splitFraction, fractionText, hpoint]
  | some f =>
    obtain ⟨htake, hdrop⟩ := takeWhile_digits_append (n.fraction_ok f hf) fun b hb => (hexp b hb).1
    simp [splitFraction, fractionText, htake, hdrop]

/-- **A number token reads back as its exact value.** -/
lemma exactValue_render (n : Number) : exactValue n.render = n.value := by
  have htail : ∀ b ∈ (fractionText n.fraction ++ exponentText n.exponent).head?,
      isDigit b = false := by
    cases hf : n.fraction with
    | none =>
      exact fun b hb => (head_exponentText n.exponent b (by simpa [fractionText] using hb)).1
    | some f =>
      intro b hb
      obtain rfl : 0x2E = b := by simpa [fractionText] using hb
      decide
  obtain ⟨htake, hdrop⟩ := takeWhile_digits_append n.whole_ok htail
  have hmagnitude : exactMagnitude (n.whole ++
      (fractionText n.fraction ++ exponentText n.exponent)) = n.magnitude := by
    rw [exactMagnitude, htake, hdrop, splitFraction_text, exponentValue_exponentText]
    rfl
  cases hn : n.negative with
  | true => simp [exactValue, Number.value, Number.render, hn, hmagnitude]
  | false =>
    have hhead : (n.whole ++ (fractionText n.fraction ++ exponentText n.exponent)).head? ≠
        some 0x2D := by
      cases hw : n.whole with
      | nil => exact absurd hw n.whole_ne
      | cons d ds =>
        have hd := n.whole_ok d (by simp [hw])
        rintro hhead
        obtain rfl : d = 0x2D := by simpa using hhead
        exact absurd hd (by decide)
    rw [Number.render, hn, if_neg (by simp), List.nil_append, exactValue, if_neg hhead, hmagnitude,
      Number.value, hn, if_neg (by simp)]

/-! ## Scientific notation -/

/-- A decimal in scientific form, as a shortest round-trip conversion of a binary64 value
delivers it: at most 17 digits, no leading zero and no trailing one (zero itself is the one
digit `0` with exponent `0`), and an exponent in the range of the format. -/
structure Scientific where
  negative : Bool
  digits : List UInt8
  /-- The decimal exponent of the first digit. -/
  exponent : ℤ
  digits_ok : Digits digits
  digits_ne : digits ≠ []
  digits_len : digits.length ≤ 17
  digits_lead : ∀ d ds, digits = d :: ds → d = 0x30 → ds = [] ∧ exponent = 0
  digits_last : 1 < digits.length → digits.getLast? ≠ some 0x30
  exponent_lo : -324 ≤ exponent
  exponent_hi : exponent ≤ 308

namespace Scientific

/-- The magnitude a scientific form denotes. -/
def magnitude (s : Scientific) : ℚ :=
  (natValue s.digits : ℚ) * (10 : ℚ) ^ (s.exponent - ((s.digits.length : ℤ) - 1))

/-- The digits of an exponent, at least two of them. -/
def exponentDigits (e : ℕ) : List UInt8 := if e < 10 then 0x30 :: decimal e else decimal e

/-- The digits after the first, if there are any, behind a point. -/
def tailText : List UInt8 → List UInt8
  | [] => []
  | d :: ds => 0x2E :: d :: ds

/-- The text of a scientific form: `[-]d[.ddd]e(+|-)dd`. -/
def text (s : Scientific) : List UInt8 :=
  (if s.negative then [0x2D] else []) ++ (s.digits.head s.digits_ne :: tailText s.digits.tail) ++
    0x65 :: (if s.exponent < 0 then 0x2D else 0x2B) :: exponentDigits s.exponent.natAbs

end Scientific

end JsonText
