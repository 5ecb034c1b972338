import Hotpath.Lib.Utf8

set_option relaxedAutoImplicit false
set_option autoImplicit false

/-!
# Base64

The encoding with padding and without line breaks: three bytes are four digits, and the last one
or two bytes are padded to four characters.

## Main definitions

* `Base64.encode`, `Base64.decode`.

## Main results

* `Base64.length_encode` — four characters for every three bytes begun.
* `Base64.decode_encode` — the round trip.
-/

namespace Base64

/-- The digits, in order. -/
def alphabet : List UInt8 :=
  Utf8.bytes "ABCDEFGHIJKLMNOPQRSTUVWXYZabcdefghijklmnopqrstuvwxyz0123456789+/"

/-- The digit of a value, which counts modulo 64. -/
def digit (n : ℕ) : UInt8 := alphabet.getD (n % 64) 0

/-- The value of a digit. -/
def value (c : UInt8) : Option ℕ := alphabet.idxOf? c

/-- What fills the last group. -/
def pad : UInt8 := 0x3D

/-- The text for some bytes. -/
def encode : List UInt8 → List UInt8
  | [] => []
  | [a] => [digit (a.toNat / 4), digit (a.toNat * 16), pad, pad]
  | [a, b] =>
    [digit (a.toNat / 4), digit (a.toNat * 16 + b.toNat / 16), digit (b.toNat * 4), pad]
  | a :: b :: c :: bytes =>
    digit (a.toNat / 4) :: digit (a.toNat * 16 + b.toNat / 16) ::
      digit (b.toNat * 4 + c.toNat / 64) :: digit c.toNat :: encode bytes

/-- The first, the second and the third byte of a group. -/
def first (i j : ℕ) : UInt8 := UInt8.ofNat (i * 4 + j / 16)

@[inherit_doc first]
def second (j k : ℕ) : UInt8 := UInt8.ofNat (j * 16 + k / 4)

@[inherit_doc first]
def third (k l : ℕ) : UInt8 := UInt8.ofNat (k * 64 + l)

/-- The bytes of a text, if it is one. Padding ends it. -/
def decode : List UInt8 → Option (List UInt8)
  | [] => some []
  | [w, x, y, z] => do
    let i ← value w
    let j ← value x
    if y = pad then
      if z = pad then some [first i j] else none
    else do
      let k ← value y
      if z = pad then some [first i j, second j k]
      else do
        let l ← value z
        some [first i j, second j k, third k l]
  | w :: x :: y :: z :: text => do
    let i ← value w
    let j ← value x
    let k ← value y
    let l ← value z
    let bytes ← decode text
    some (first i j :: second j k :: third k l :: bytes)
  | _ => none

/-! ## Lengths -/

/-- **Four characters for every three bytes begun.** -/
theorem length_encode (bytes : List UInt8) :
    (encode bytes).length = 4 * ((bytes.length + 2) / 3) := by
  fun_induction encode bytes with
  | case1 => rfl
  | case2 => simp
  | case3 => simp
  | case4 a b c bytes ih =>
    simp only [List.length_cons, ih]
    omega

/-! ## The round trip -/

/-- A digit has its value, and is no padding. -/
private lemma value_digit (n : ℕ) : value (digit n) = some (n % 64) ∧ digit n ≠ pad := by
  have hall : ∀ m : Fin 64, value (digit m.val) = some m.val ∧ digit m.val ≠ pad := by decide
  have hn := hall ⟨n % 64, Nat.mod_lt n (by decide)⟩
  have hdigit : digit (n % 64) = digit n := by rw [digit, digit, Nat.mod_mod]
  rwa [hdigit] at hn

/-- The value of a digit is what it was made of, modulo 64. -/
@[simp]
private lemma value_digit_eq (n : ℕ) : value (digit n) = some (n % 64) := (value_digit n).1

/-- No digit is the padding. -/
@[simp]
private lemma digit_ne_pad (n : ℕ) : digit n ≠ pad := (value_digit n).2

/-- A byte is known by its value. -/
private lemma ofNat_eq {n : ℕ} {a : UInt8} (h : n % 256 = a.toNat) : UInt8.ofNat n = a := by
  apply UInt8.toNat_inj.mp
  rw [UInt8.toNat_ofNat']
  exact h

/-- The first byte of a group is read back from the first two digits. -/
private lemma first_eq (a : UInt8) (m : ℕ) (hm : m < 16) :
    first (a.toNat / 4 % 64) ((a.toNat * 16 + m) % 64) = a := by
  have ha := a.toNat_lt
  apply ofNat_eq
  omega

/-- The second byte of a group is read back from the two digits in the middle. -/
private lemma second_eq (b : UInt8) (l m : ℕ) (hm : m < 4) :
    second ((l * 16 + b.toNat / 16) % 64) ((b.toNat * 4 + m) % 64) = b := by
  have hb := b.toNat_lt
  apply ofNat_eq
  omega

/-- The third byte of a group is read back from the last two digits. -/
private lemma third_eq (c : UInt8) (l : ℕ) :
    third ((l * 4 + c.toNat / 64) % 64) (c.toNat % 64) = c := by
  have hc := c.toNat_lt
  apply ofNat_eq
  omega

/-- **The round trip.**

**Proof sketch.** Induction on the bytes, three at a time. Each of them is put together again from
the bits of two digits. -/
@[simp]
theorem decode_encode (bytes : List UInt8) : decode (encode bytes) = some bytes := by
  fun_induction encode bytes with
  | case1 => rfl
  | case2 a =>
    have h := first_eq a 0 (by decide)
    simpa [decode] using h
  | case3 a b =>
    have hb := b.toNat_lt
    have h := first_eq a (b.toNat / 16) (by omega)
    have h' := second_eq b a.toNat 0 (by decide)
    simpa [decode] using ⟨h, h'⟩
  | case4 a b c bytes ih =>
    have hb := b.toNat_lt
    have hc := c.toNat_lt
    have h := first_eq a (b.toNat / 16) (by omega)
    have h' := second_eq b a.toNat (c.toNat / 64) (by omega)
    have h'' := third_eq c b.toNat
    cases hrest : encode bytes with
    | nil =>
      rw [hrest] at ih
      obtain rfl : bytes = [] := by simpa [decode] using ih.symm
      simpa [decode] using ⟨h, h', h''⟩
    | cons d text =>
      rw [hrest] at ih
      simpa [decode, ih] using ⟨h, h', h''⟩

end Base64
