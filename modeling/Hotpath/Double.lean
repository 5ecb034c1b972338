import Mathlib.Data.Rat.Floor
import Hotpath.Lib.Decimal
import Hotpath.Lib.Rounding

set_option relaxedAutoImplicit false
set_option autoImplicit false

/-!
# What the code asks of `double`

The program is generic in its floating-point type: pricing uses a handful of operations, the
JSON layer uses the two conversions of `<charconv>`. The two classes of this file name them,
so that a statement about exact prices is the program at `ℚ`, and a statement about the wire
is the program at any type whose conversions behave as documented.

## Main definitions

* `Hotpath.Double` — the operations and literals of the pricing code, with `ℚ` an instance.
* `Hotpath.CharConv` — `std::isfinite`, `std::to_chars` in scientific form and
  `std::from_chars`, with the documented facts the wire format rests on.
* `Hotpath.SignedZero` — a small format with such conversions, of the two zeros; `ℚ` reads
  exactly.
* `Hotpath.Sole` — the smallest format with such conversions, of any one value.
-/

namespace Hotpath

open JsonText

/-- The operations and literals the code uses on `double`, without any law. -/
class Double (F : Type) extends OfScientific F, Sub F, Mul F, Div F, LT F, LE F, BEq F where
  decLT : DecidableLT F
  decLE : DecidableLE F
  /-- `std::fabs`. -/
  fabs : F → F
  /-- `std::round`: to the nearest integer, halves away from zero. -/
  round : F → F
  /-- `static_cast<double>` of an integer. -/
  ofInt : ℤ → F

attribute [reducible, instance] Double.decLT Double.decLE

/-- The operations on exact rationals. -/
instance : Double ℚ where
  decLT := inferInstance
  decLE := inferInstance
  fabs x := |x|
  round x := Rounding.halfAway x
  ofInt z := z

/-- The conversions between `double` and text that the wire format uses. The laws are what the
standard documents of them on the texts that reach them:

* `from_chars` takes a JSON number token whole, so on one it either yields a value or reports
  it out of range;
* what it does depends only on the sign and the exact decimal value of the token;
* `to_chars` yields the shortest digits of a finite value in scientific form, and `from_chars`
  reads that text back as the value. -/
class CharConv (F : Type) where
  /-- `std::isfinite`. -/
  isFinite : F → Bool
  /-- `std::to_chars` with `std::chars_format::scientific`. -/
  toChars : F → List UInt8
  /-- `std::from_chars`. -/
  fromChars : List UInt8 → FromChars F
  fromChars_ne_invalid : ∀ n : Number, fromChars n.render ≠ .invalid
  fromChars_congr : ∀ n n' : Number, n.negative = n'.negative → n.magnitude = n'.magnitude →
    fromChars n.render = fromChars n'.render
  toChars_spec : ∀ x, isFinite x = true →
    ∃ s : Scientific, toChars x = s.text ∧ fromChars s.text = .value x

/-- Reading numbers exactly. Nothing is said about writing them: a rational need not have a
finite decimal text, so none counts as finite. -/
instance : CharConv ℚ where
  isFinite _ := false
  toChars _ := []
  fromChars text := .value (exactValue text)
  fromChars_ne_invalid _ := nofun
  fromChars_congr n n' hsign hmagnitude := by
    rw [exactValue_render, exactValue_render, Number.value, Number.value, hsign, hmagnitude]
  toChars_spec x h := by simp at h

/-- The number format of the two zeros. -/
inductive SignedZero where
  | plus
  | minus
  deriving DecidableEq, Repr

/-- Every literal is the positive zero. -/
instance : OfScientific SignedZero := ⟨fun _ _ _ => .plus⟩

/-- The operations on the two zeros, as far as their results are zeros; a quotient is not, and is
some zero all the same. -/
instance : Double SignedZero where
  sub x y := if x = .minus ∧ y = .plus then .minus else .plus
  mul x y := if x = y then .plus else .minus
  div x y := if x = y then .plus else .minus
  lt _ _ := False
  le _ _ := True
  beq _ _ := true
  decLT _ _ := inferInstanceAs (Decidable False)
  decLE _ _ := inferInstanceAs (Decidable True)
  fabs _ := .plus
  round x := x
  ofInt _ := .plus

/-- A number token starts with a minus sign exactly when it is negative. -/
lemma head?_render_eq_minus (n : Number) : n.render.head? = some 0x2D ↔ n.negative = true := by
  cases hn : n.negative with
  | true => simp [Number.render, hn]
  | false =>
    cases hw : n.whole with
    | nil => exact absurd hw n.whole_ne
    | cons d ds =>
      have hd := n.whole_ok d (by simp [hw])
      simp only [Number.render, hn, hw, Bool.false_eq_true, if_false, List.nil_append,
        List.cons_append, List.head?_cons, Option.some.injEq, iff_false]
      rintro rfl
      exact absurd hd (by decide)

/-- The conversions of the two zeros: every token rounds to the zero of its sign. -/
instance : CharConv SignedZero where
  isFinite _ := true
  toChars
    | .plus => [0x30, 0x65, 0x2B, 0x30, 0x30]
    | .minus => [0x2D, 0x30, 0x65, 0x2B, 0x30, 0x30]
  fromChars text := .value (if text.head? = some 0x2D then .minus else .plus)
  fromChars_ne_invalid _ := nofun
  fromChars_congr n n' h _ := by simp only [head?_render_eq_minus, h]
  toChars_spec x _ := by
    cases x with
    | plus => exact ⟨⟨false, [0x30], 0, by unfold Digits; decide, by decide, by decide, by simp,
        by decide, by decide, by decide⟩, rfl, rfl⟩
    | minus => exact ⟨⟨true, [0x30], 0, by unfold Digits; decide, by decide, by decide, by simp,
        by decide, by decide, by decide⟩, rfl, rfl⟩

/-- The number format whose only value has a given scientific form. -/
inductive Sole (s : Scientific) where
  | value

/-- The conversions of the only value: every token rounds to it. -/
instance (s : Scientific) : CharConv (Sole s) where
  isFinite _ := true
  toChars _ := s.text
  fromChars _ := .value .value
  fromChars_ne_invalid _ := nofun
  fromChars_congr _ _ _ _ := rfl
  toChars_spec _ _ := ⟨s, rfl, rfl⟩

end Hotpath
