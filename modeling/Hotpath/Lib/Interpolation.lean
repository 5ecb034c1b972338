import Mathlib.Algebra.Order.Floor.Semiring
import Mathlib.Algebra.Order.Floor.Ring
import Mathlib.Data.List.GetD
import Mathlib.Data.List.Pairwise
import Mathlib.Tactic.Linarith
import Mathlib.Tactic.Ring
import Mathlib.Tactic.NormNum

set_option relaxedAutoImplicit false
set_option autoImplicit false

/-!
# Linear interpolation between the terms of a sequence

A sequence is read at a point between two indices by the straight line through the two terms.
The segments agree where they meet, so a monotone sequence gives a monotone function.

## Main definitions

* `Interpolation.linear` — the value at a point.
* `Interpolation.extended` — a non-empty list as a sequence that ends in its last element.

## Main results

* `Interpolation.linear_of_segment` — either segment may be used where two meet.
* `Interpolation.linear_mono` — a monotone sequence gives a monotone function.
* `Interpolation.extended_mono` — an ascending list is a monotone sequence.
-/

namespace Interpolation

variable {K : Type} [Field K] [LinearOrder K] [IsStrictOrderedRing K] [FloorRing K]

/-- The value at `x`, on the line through the terms before and after it. -/
def linear (f : ℕ → K) (x : K) : K := f ⌊x⌋₊ + (f (⌊x⌋₊ + 1) - f ⌊x⌋₊) * (x - ⌊x⌋₊)

/-- At an index the value is the term. -/
@[simp] lemma linear_natCast (f : ℕ → K) (i : ℕ) : linear f i = f i := by
  rw [linear, Nat.floor_natCast, sub_self, mul_zero, add_zero]

/-- On the closed segment after the index `i` the value is on the line of that segment. -/
lemma linear_of_segment (f : ℕ → K) {x : K} {i : ℕ} (hlo : (i : K) ≤ x) (hhi : x ≤ i + 1) :
    linear f x = f i + (f (i + 1) - f i) * (x - i) := by
  rcases hhi.lt_or_eq with hlt | rfl
  · have hfloor : ⌊x⌋₊ = i :=
      (Nat.floor_eq_iff ((Nat.cast_nonneg i).trans hlo)).mpr ⟨hlo, hlt⟩
    rw [linear, hfloor]
  · rw [← Nat.cast_succ, linear_natCast, Nat.cast_succ]
    ring

section Monotone

variable {f : ℕ → K} (hf : Monotone f)
include hf

/-- A line between two terms stays between them. -/
lemma linear_between {x : K} {i : ℕ} (hlo : (i : K) ≤ x) (hhi : x ≤ i + 1) :
    f i ≤ linear f x ∧ linear f x ≤ f (i + 1) := by
  have hrise : 0 ≤ f (i + 1) - f i := sub_nonneg.mpr (hf (Nat.le_succ i))
  rw [linear_of_segment f hlo hhi]
  constructor
  · have h := mul_nonneg hrise (sub_nonneg.mpr hlo)
    linarith
  · have h := mul_le_mul_of_nonneg_left (show x - i ≤ 1 by linarith) hrise
    linarith

/-- **The interpolation of a monotone sequence is monotone.**

**Proof sketch.** Two points of one segment are on one line that rises. Between points of
different segments lies a term of the sequence, above the first value and below the second. -/
theorem linear_mono {x y : K} (hx : 0 ≤ x) (hxy : x ≤ y) : linear f x ≤ linear f y := by
  have hy := hx.trans hxy
  have hxlo := Nat.floor_le hx
  have hxhi := (Nat.lt_floor_add_one x).le
  have hylo := Nat.floor_le hy
  have hyhi := (Nat.lt_floor_add_one y).le
  rcases (Nat.floor_le_floor hxy).lt_or_eq with hlt | heq
  · calc linear f x ≤ f (⌊x⌋₊ + 1) := (linear_between hf hxlo hxhi).2
      _ ≤ f ⌊y⌋₊ := hf hlt
      _ ≤ linear f y := (linear_between hf hylo hyhi).1
  · rw [← heq] at hylo hyhi
    rw [linear_of_segment f hxlo hxhi, linear_of_segment f hylo hyhi]
    have hrise : 0 ≤ f (⌊x⌋₊ + 1) - f ⌊x⌋₊ := sub_nonneg.mpr (hf (Nat.le_succ _))
    have h := mul_le_mul_of_nonneg_left (sub_le_sub_right hxy (⌊x⌋₊ : K)) hrise
    linarith

end Monotone

/-! ### Lists as sequences -/

section Extended

variable {α : Type} {l : List α} (h : l ≠ [])

/-- The list followed by its last element for ever. -/
def extended (i : ℕ) : α := l.getD i (l.getLast h)

/-- Within the list the sequence has its elements. -/
lemma extended_of_lt {i : ℕ} (hi : i < l.length) : extended h i = l[i] := by
  rw [extended, List.getD_eq_getElem _ _ hi]

/-- The sequence begins with the head of the list. -/
lemma extended_zero : extended h 0 = l.head h := by
  rw [extended_of_lt h (List.length_pos_of_ne_nil h), List.head_eq_getElem]

/-- The last index of the list has its last element. -/
lemma extended_last : extended h (l.length - 1) = l.getLast h := by
  have hpos := List.length_pos_of_ne_nil h
  rw [extended_of_lt h (by omega), List.getLast_eq_getElem]

/-- An ascending list is a monotone sequence. -/
lemma extended_mono [Preorder α] (hl : l.Pairwise (· ≤ ·)) : Monotone (extended h) := by
  intro i j hij
  rcases lt_or_ge j l.length with hj | hj
  · rw [extended_of_lt h (by omega), extended_of_lt h hj]
    rcases hij.lt_or_eq with hlt | rfl
    · exact List.pairwise_iff_getElem.mp hl i j _ hj hlt
    · exact le_rfl
  · have hlast : extended h j = l.getLast h := by
      rw [extended, List.getD_eq_default _ _ hj]
    rw [hlast]
    rcases lt_or_ge i l.length with hi | hi
    · rw [extended_of_lt h hi]
      exact hl.rel_getLast (List.getElem_mem hi)
    · rw [extended, List.getD_eq_default _ _ hi]

end Extended

end Interpolation
