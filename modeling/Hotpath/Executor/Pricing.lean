import Mathlib.Algebra.Order.Field.Basic
import Hotpath.Protocol.Message

set_option relaxedAutoImplicit false
set_option autoImplicit false

/-!
# Snapping a price to the grid

`src/pricing.cpp`. A price is snapped to the nearest multiple of the step of the first range
that contains it, or of one cent. Over exact rationals the result is such a multiple, its index
rounded half to even, and the prices whose result lies strictly between zero and one follow.

## Main definitions

* `Hotpath.roundHalfEven`, `Hotpath.snapToGrid`.
* `Hotpath.gridStep` — the step that a price is snapped by.
* `Hotpath.SnapsInside` — the prices that are snapped strictly between zero and one.

## Main results

* `Hotpath.snapToGrid_spec`, `Hotpath.snapToGrid_nearest` — the snapped price is the nearest
  multiple of the step, the even one of two.
* `Hotpath.snapToGrid_inside` — the snapped price lies strictly between zero and one exactly
  for those prices.
-/

namespace Hotpath

open Rounding

section Code

variable {F : Type} [Double F]

/-- The step where no range contains the price. -/
def kCentGrid : F := 0.01

/-- `round_half_even`. -/
def roundHalfEven (value : F) : F :=
  let rounded := Double.round value
  if Double.fabs (value - rounded) == 0.5 then 2.0 * Double.round (value / 2.0) else rounded

/-- `snap_to_grid`: the loop over the ranges, then the fallback. -/
def snapToGrid (price : F) : List (PriceRange F) → F
  | [] => roundHalfEven (price / kCentGrid) * kCentGrid
  | range :: ranges =>
    if range.step > 0.0 ∧ range.start ≤ price ∧ price ≤ range.end_ then
      roundHalfEven (price / range.step) * range.step
    else snapToGrid price ranges

end Code

/-! ## Over exact rationals -/

/-- A range that can snap the price: its step is positive and it contains the price. -/
def Snaps (price : ℚ) (range : PriceRange ℚ) : Prop :=
  0 < range.step ∧ range.start ≤ price ∧ price ≤ range.end_

/-- Whether a range snaps a price is decided by comparing rationals. -/
instance (price : ℚ) (range : PriceRange ℚ) : Decidable (Snaps price range) := by
  unfold Snaps
  infer_instance

/-- The step a price is snapped by: that of the first such range, or one cent. -/
def gridStep (price : ℚ) (ranges : List (PriceRange ℚ)) : ℚ :=
  (ranges.find? fun range => Snaps price range).elim (1 / 100) PriceRange.step

/-- The first range is asked first. -/
lemma gridStep_cons (price : ℚ) (range : PriceRange ℚ) (ranges : List (PriceRange ℚ)) :
    gridStep price (range :: ranges) =
      if Snaps price range then range.step else gridStep price ranges := by
  unfold gridStep
  split_ifs with h <;> simp [h]

/-- The step is positive. -/
lemma gridStep_pos (price : ℚ) (ranges : List (PriceRange ℚ)) : 0 < gridStep price ranges := by
  unfold gridStep
  cases h : ranges.find? fun range => Snaps price range with
  | none => norm_num
  | some range =>
    have hsnaps : Snaps price range := by simpa using List.find?_some h
    exact hsnaps.1

/-- `round_half_even` rounds half to even. -/
lemma roundHalfEven_spec (x : ℚ) : ∃ k : ℤ, IsNearestEven x k ∧ roundHalfEven x = k := by
  refine ⟨_, isNearestEven_halved x, ?_⟩
  have hcode : roundHalfEven x = if (|x - halfAway x| == (0.5 : ℚ)) = true then
      (2.0 : ℚ) * halfAway (x / (2.0 : ℚ)) else halfAway x := rfl
  have hhalf : (0.5 : ℚ) = 1 / 2 := by norm_num
  have htwo : (2.0 : ℚ) = 2 := by norm_num
  rw [hcode, hhalf, htwo]
  by_cases htie : |x - halfAway x| = 1 / 2 <;> simp [htie]

/-- The loop snaps by the step of the first range that can, or by one cent. -/
lemma snapToGrid_eq (price : ℚ) (ranges : List (PriceRange ℚ)) :
    snapToGrid price ranges =
      roundHalfEven (price / gridStep price ranges) * gridStep price ranges := by
  have hcent : (kCentGrid : ℚ) = 1 / 100 := by
    have hcode : (kCentGrid : ℚ) = (0.01 : ℚ) := rfl
    rw [hcode]
    norm_num
  induction ranges with
  | nil => rw [snapToGrid, hcent, gridStep, List.find?_nil, Option.elim_none]
  | cons range ranges ih =>
    have hguard : (range.step > (0.0 : ℚ) ∧ range.start ≤ price ∧ price ≤ range.end_) ↔
        Snaps price range := by
      have hzero : (0.0 : ℚ) = 0 := by norm_num
      rw [hzero]
      rfl
    have hcode : snapToGrid price (range :: ranges) =
        if range.step > (0.0 : ℚ) ∧ range.start ≤ price ∧ price ≤ range.end_ then
          roundHalfEven (price / range.step) * range.step else snapToGrid price ranges := rfl
    rw [hcode, ih, gridStep_cons]
    by_cases h : Snaps price range
    · rw [if_pos (hguard.mpr h), if_pos h]
    · rw [if_neg (fun hg => h (hguard.mp hg)), if_neg h]

/-- **The snapped price is the nearest multiple of the step**, the even one of two. -/
theorem snapToGrid_spec (price : ℚ) (ranges : List (PriceRange ℚ)) :
    ∃ k : ℤ, IsNearestEven (price / gridStep price ranges) k ∧
      snapToGrid price ranges = k * gridStep price ranges := by
  obtain ⟨k, hk, hround⟩ := roundHalfEven_spec (price / gridStep price ranges)
  exact ⟨k, hk, by rw [snapToGrid_eq, hround]⟩

/-- **Snapping is nearest-multiple rounding with ties to even.** The price becomes a multiple of
the step of the first range that can snap it, at most half a step away, an even multiple if the
price is halfway between two; the index that two roundings of halves away from zero compute is
the quotient rounded half to even, for every price and every list of ranges. -/
theorem snapToGrid_nearest (price : ℚ) (ranges : List (PriceRange ℚ)) :
    ∃ k : ℤ, snapToGrid price ranges = k * gridStep price ranges ∧
      |k * gridStep price ranges - price| ≤ gridStep price ranges / 2 ∧
      (∀ m : ℤ, price = (m + 1 / 2) * gridStep price ranges → Even k) ∧
      roundHalfEven (price / gridStep price ranges) = k ∧
      ∀ l : ℤ, IsNearestEven (price / gridStep price ranges) l ↔ l = k := by
  obtain ⟨k, hk, hround⟩ := roundHalfEven_spec (price / gridStep price ranges)
  have hsnap : snapToGrid price ranges = k * gridStep price ranges := by
    rw [snapToGrid_eq, hround]
  have hstep := gridStep_pos price ranges
  generalize gridStep price ranges = step at hk hround hsnap hstep ⊢
  refine ⟨k, hsnap, ?_, ?_, hround, fun l => ⟨fun hl => hl.unique hk, fun hl => hl ▸ hk⟩⟩
  · have hscale : (k : ℚ) * step - price = -(price / step - k) * step := by
      field_simp
      ring
    rw [hscale, abs_mul, abs_neg, abs_of_pos hstep]
    calc |price / step - k| * step ≤ 1 / 2 * step := mul_le_mul_of_nonneg_right hk.1 hstep.le
      _ = step / 2 := by ring
  · intro m hm
    exact hk.even_of_midpoint ((div_eq_iff hstep.ne').mpr hm)

/-- The index of the last multiple of a step below one. -/
def lastBelowOne (step : ℚ) : ℤ := ⌈1 / step⌉ - 1

/-- A price that is snapped strictly between zero and one: it is above half a step, and below
the midpoint after the last multiple of the step that is less than one, or it is that midpoint
and the index of the multiple is even. -/
def SnapsInside (price : ℚ) (ranges : List (PriceRange ℚ)) : Prop :=
  gridStep price ranges / 2 < price ∧
    (price < (lastBelowOne (gridStep price ranges) + 1 / 2) * gridStep price ranges ∨
      price = (lastBelowOne (gridStep price ranges) + 1 / 2) * gridStep price ranges ∧
        Even (lastBelowOne (gridStep price ranges)))

/-- A multiple of the step is less than one if its index is at most that of the last such. -/
private lemma mul_lt_one_iff {step : ℚ} (h : 0 < step) (k : ℤ) :
    (k : ℚ) * step < 1 ↔ k ≤ lastBelowOne step := by
  rw [lastBelowOne, Int.le_sub_one_iff, Int.lt_ceil, lt_div_iff₀ h]

/-- **Which prices are snapped strictly between zero and one.**

**Proof sketch.** The index of the snapped multiple is the quotient rounded half to even; the
two bounds on the multiple are bounds on that index, and those are bounds on the quotient. -/
theorem snapToGrid_inside (price : ℚ) (ranges : List (PriceRange ℚ)) :
    (0 < snapToGrid price ranges ∧ snapToGrid price ranges < 1) ↔ SnapsInside price ranges := by
  obtain ⟨k, hk, hsnap⟩ := snapToGrid_spec price ranges
  have hstep := gridStep_pos price ranges
  unfold SnapsInside
  generalize gridStep price ranges = step at hk hsnap hstep ⊢
  have hlow : 0 < (k : ℚ) * step ↔ step / 2 < price := by
    rw [mul_pos_iff_of_pos_right hstep, Int.cast_pos, hk.pos_iff, lt_div_iff₀ hstep]
    constructor <;> intro h <;> linarith
  have hhigh : (k : ℚ) * step < 1 ↔ price < (lastBelowOne step + 1 / 2) * step ∨
      price = (lastBelowOne step + 1 / 2) * step ∧ Even (lastBelowOne step) := by
    rw [mul_lt_one_iff hstep, hk.le_iff, div_lt_iff₀ hstep, div_eq_iff hstep.ne']
  rw [hsnap, hlow, hhigh]

end Hotpath
