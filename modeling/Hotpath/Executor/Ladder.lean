import Hotpath.Executor.Pricing

set_option relaxedAutoImplicit false
set_option autoImplicit false

/-!
# Snapping on a ladder of ranges

A market quotes its grid as a ladder: ranges that follow one another, each with its own step and
with both ends on its own grid. Where two ranges meet, the shared end is a multiple of both
steps, so a price that is snapped onto it stays there although the first of the two ranges then
takes it. On such a ladder snapping is a monotone projection.

## Main definitions

* `Hotpath.IsRung` — a range with a positive step and both ends on its grid.
* `Hotpath.IsLadder` — rungs, each of which starts where the one before ends.

## Main results

* `Hotpath.snapToGrid_ladder` — snapping stays in the range and is on its grid, keeps the order of
  the prices and does nothing the second time.
-/

namespace Hotpath

open Rounding

/-- A range as the market quotes it. -/
structure IsRung (range : PriceRange ℚ) : Prop where
  step_pos : 0 < range.step
  start_lt_end : range.start < range.end_
  start_on_grid : ∃ m : ℤ, range.start = m * range.step
  end_on_grid : ∃ m : ℤ, range.end_ = m * range.step

/-- A non-empty list of rungs, each of which starts where the one before ends. -/
structure IsLadder (ranges : List (PriceRange ℚ)) : Prop where
  nonempty : ranges ≠ []
  rung : ∀ range ∈ ranges, IsRung range
  joined : ranges.IsChain fun lower upper => lower.end_ = upper.start

/-- The range contains the price. -/
def Contains (range : PriceRange ℚ) (price : ℚ) : Prop :=
  range.start ≤ price ∧ price ≤ range.end_

/-! ### One rung -/

section Rung

variable {range : PriceRange ℚ} {ranges : List (PriceRange ℚ)} {p q : ℚ}

/-- A rung at the head of the list snaps the prices that it contains, by its own step. -/
lemma IsRung.gridStep_eq (h : IsRung range) (hp : Contains range p) :
    gridStep p (range :: ranges) = range.step := by
  rw [gridStep_cons, if_pos]
  exact ⟨h.step_pos, hp⟩

/-- Prices above a range are left to the ranges after it. -/
lemma snapToGrid_cons_of_lt (hp : range.end_ < p) :
    snapToGrid p (range :: ranges) = snapToGrid p ranges := by
  have hstep : gridStep p (range :: ranges) = gridStep p ranges := by
    rw [gridStep_cons, if_neg]
    intro h
    exact absurd h.2.2 (not_le.mpr hp)
  rw [snapToGrid_eq, snapToGrid_eq, hstep]

/-- A price on the grid of the rung that snaps it is left where it is. -/
lemma IsRung.snapToGrid_of_multiple (h : IsRung range) (hp : Contains range p)
    (hm : ∃ m : ℤ, p = m * range.step) : snapToGrid p (range :: ranges) = p := by
  obtain ⟨m, hm⟩ := hm
  obtain ⟨k, hk, hsnap⟩ := snapToGrid_spec p (range :: ranges)
  rw [h.gridStep_eq hp] at hk hsnap
  have hquot : p / range.step = m := by
    rw [hm, mul_div_assoc, div_self h.step_pos.ne', mul_one]
  rw [hquot] at hk
  obtain rfl := hk.unique (isNearestEven_intCast m)
  rw [hsnap, hm]

/-- One rung snaps to a multiple of its step. -/
lemma IsRung.snapToGrid_multiple (h : IsRung range) (hp : Contains range p) :
    ∃ m : ℤ, snapToGrid p (range :: ranges) = m * range.step := by
  obtain ⟨k, -, hsnap⟩ := snapToGrid_spec p (range :: ranges)
  rw [h.gridStep_eq hp] at hsnap
  exact ⟨k, hsnap⟩

/-- One rung keeps the order of the prices that it contains. -/
lemma IsRung.snapToGrid_mono (h : IsRung range) (hp : Contains range p) (hq : Contains range q)
    (hpq : p ≤ q) : snapToGrid p (range :: ranges) ≤ snapToGrid q (range :: ranges) := by
  obtain ⟨k, hk, hsnapp⟩ := snapToGrid_spec p (range :: ranges)
  obtain ⟨l, hl, hsnapq⟩ := snapToGrid_spec q (range :: ranges)
  rw [h.gridStep_eq hp] at hk hsnapp
  rw [h.gridStep_eq hq] at hl hsnapq
  have hkl : k ≤ l := hk.mono hl (div_le_div_of_nonneg_right hpq h.step_pos.le)
  rw [hsnapp, hsnapq]
  exact mul_le_mul_of_nonneg_right (by exact_mod_cast hkl) h.step_pos.le

/-- The ends of a rung are in it and are left where they are. -/
lemma IsRung.snapToGrid_start (h : IsRung range) :
    snapToGrid range.start (range :: ranges) = range.start :=
  h.snapToGrid_of_multiple ⟨le_rfl, h.start_lt_end.le⟩ h.start_on_grid

/-- The end of a rung is in it and is left where it is. -/
lemma IsRung.snapToGrid_end (h : IsRung range) :
    snapToGrid range.end_ (range :: ranges) = range.end_ :=
  h.snapToGrid_of_multiple ⟨h.start_lt_end.le, le_rfl⟩ h.end_on_grid

/-- A price stays in the rung that snaps it: the ends of the rung bound it and stay. -/
lemma IsRung.contains_snapToGrid (h : IsRung range) (hp : Contains range p) :
    Contains range (snapToGrid p (range :: ranges)) := by
  constructor
  · calc range.start = snapToGrid range.start (range :: ranges) := h.snapToGrid_start.symm
      _ ≤ snapToGrid p (range :: ranges) :=
        h.snapToGrid_mono ⟨le_rfl, h.start_lt_end.le⟩ hp hp.1
  · calc snapToGrid p (range :: ranges) ≤ snapToGrid range.end_ (range :: ranges) :=
        h.snapToGrid_mono hp ⟨h.start_lt_end.le, le_rfl⟩ hp.2
      _ = range.end_ := h.snapToGrid_end

end Rung

/-! ### The ladder, by induction from its lowest rung -/

/-- The ladder from `low` to `high`. -/
inductive Spans : List (PriceRange ℚ) → ℚ → ℚ → Prop where
  | last {range : PriceRange ℚ} (h : IsRung range) : Spans [range] range.start range.end_
  | step {range : PriceRange ℚ} {ranges : List (PriceRange ℚ)} {high : ℚ} (h : IsRung range)
      (rest : Spans ranges range.end_ high) : Spans (range :: ranges) range.start high

/-- A ladder spans the prices between its ends. -/
lemma IsLadder.spans {ranges : List (PriceRange ℚ)} (h : IsLadder ranges) :
    Spans ranges (ranges.head h.nonempty).start (ranges.getLast h.nonempty).end_ := by
  induction ranges with
  | nil => exact absurd rfl h.nonempty
  | cons range ranges ih =>
    have hrung : IsRung range := h.rung range List.mem_cons_self
    cases ranges with
    | nil => exact Spans.last hrung
    | cons next ranges =>
      obtain ⟨hjoin, hjoined⟩ := List.isChain_cons_cons.mp h.joined
      have hrest : IsLadder (next :: ranges) :=
        ⟨List.cons_ne_nil _ _, fun r hr => h.rung r (List.mem_cons_of_mem _ hr), hjoined⟩
      have hspans := ih hrest
      rw [List.head_cons, ← hjoin] at hspans
      exact Spans.step hrung hspans

namespace Spans

variable {ranges : List (PriceRange ℚ)} {low high p q : ℚ}

/-- A ladder goes up. -/
lemma lt (h : Spans ranges low high) : low < high := by
  induction h with
  | last h => exact h.start_lt_end
  | step h rest ih => exact h.start_lt_end.trans ih

/-- The ranges of a ladder are rungs. -/
lemma rung (h : Spans ranges low high) {range : PriceRange ℚ} (hr : range ∈ ranges) :
    IsRung range := by
  induction h with
  | last h => rwa [List.mem_singleton.mp hr]
  | step h rest ih =>
    rcases List.mem_cons.mp hr with rfl | hr
    · exact h
    · exact ih hr

/-- The ranges of a ladder lie between its ends. -/
lemma low_le (h : Spans ranges low high) {range : PriceRange ℚ} (hr : range ∈ ranges) :
    low ≤ range.start := by
  induction h with
  | last h => rw [List.mem_singleton.mp hr]
  | step h rest ih =>
    rcases List.mem_cons.mp hr with rfl | hr
    · exact le_rfl
    · exact h.start_lt_end.le.trans (ih hr)

/-- Every price between the ends is in one of the ranges. -/
lemma exists_contains (h : Spans ranges low high) (hlow : low ≤ p) (hhigh : p ≤ high) :
    ∃ range ∈ ranges, Contains range p := by
  induction h with
  | last h => exact ⟨_, List.mem_cons_self, hlow, hhigh⟩
  | @step range ranges high h rest ih =>
    rcases le_or_gt p range.end_ with hle | hgt
    · exact ⟨_, List.mem_cons_self, hlow, hle⟩
    · obtain ⟨r, hr, hcontains⟩ := ih hgt.le hhigh
      exact ⟨r, List.mem_cons_of_mem _ hr, hcontains⟩

/-- A price stays between the ends of the ladder. -/
lemma between (h : Spans ranges low high) (hlow : low ≤ p) (hhigh : p ≤ high) :
    low ≤ snapToGrid p ranges ∧ snapToGrid p ranges ≤ high := by
  induction h with
  | last h => exact h.contains_snapToGrid ⟨hlow, hhigh⟩
  | @step range ranges high h rest ih =>
    rcases le_or_gt p range.end_ with hle | hgt
    · have hin : Contains range (snapToGrid p (range :: ranges)) :=
        h.contains_snapToGrid ⟨hlow, hle⟩
      exact ⟨hin.1, hin.2.trans rest.lt.le⟩
    · rw [snapToGrid_cons_of_lt hgt]
      obtain ⟨hl, hu⟩ := ih hgt.le hhigh
      exact ⟨h.start_lt_end.le.trans hl, hu⟩

/-- A price stays in every range that contains it. Where two ranges share it, it is their common
end, which the first of them leaves where it is. -/
lemma contains (h : Spans ranges low high) {range : PriceRange ℚ} (hr : range ∈ ranges)
    (hp : Contains range p) : Contains range (snapToGrid p ranges) := by
  induction h with
  | last h =>
    obtain rfl := List.mem_singleton.mp hr
    exact h.contains_snapToGrid hp
  | @step first ranges high h rest ih =>
    rcases List.mem_cons.mp hr with rfl | hr
    · exact h.contains_snapToGrid hp
    · have hle : first.end_ ≤ p := (rest.low_le hr).trans hp.1
      rcases hle.lt_or_eq with hgt | heq
      · rw [snapToGrid_cons_of_lt hgt]
        exact ih hr
      · rw [← heq, h.snapToGrid_end, heq]
        exact hp

/-- What a price in a range is snapped to is a multiple of the step of the range. Where two ranges
share the price, it is their common end, which is on the grid of both. -/
lemma multiple (h : Spans ranges low high) {range : PriceRange ℚ} (hr : range ∈ ranges)
    (hp : Contains range p) : ∃ m : ℤ, snapToGrid p ranges = m * range.step := by
  induction h with
  | last h =>
    obtain rfl := List.mem_singleton.mp hr
    exact h.snapToGrid_multiple hp
  | @step first ranges high h rest ih =>
    rcases List.mem_cons.mp hr with rfl | hr
    · exact h.snapToGrid_multiple hp
    · have hle : first.end_ ≤ p := (rest.low_le hr).trans hp.1
      rcases hle.lt_or_eq with hgt | heq
      · rw [snapToGrid_cons_of_lt hgt]
        exact ih hr
      · -- the price is the end of the first range and the start of the other
        have hstart : p = range.start := le_antisymm (heq ▸ rest.low_le hr) hp.1
        rw [← heq, h.snapToGrid_end, heq, hstart]
        exact (rest.rung hr).start_on_grid

/-- Snapping keeps the order: within one range by its own step, and across ranges because what
is snapped below a shared end stays below it and what is snapped above it stays above. -/
lemma mono (h : Spans ranges low high) (hlow : low ≤ p) (hpq : p ≤ q) (hhigh : q ≤ high) :
    snapToGrid p ranges ≤ snapToGrid q ranges := by
  induction h with
  | last h => exact h.snapToGrid_mono ⟨hlow, hpq.trans hhigh⟩ ⟨hlow.trans hpq, hhigh⟩ hpq
  | @step range ranges high h rest ih =>
    rcases le_or_gt q range.end_ with hq | hq
    · exact h.snapToGrid_mono ⟨hlow, hpq.trans hq⟩ ⟨hlow.trans hpq, hq⟩ hpq
    · rw [snapToGrid_cons_of_lt hq]
      rcases le_or_gt p range.end_ with hp | hp
      · exact (h.contains_snapToGrid ⟨hlow, hp⟩).2.trans (rest.between hq.le hhigh).1
      · rw [snapToGrid_cons_of_lt hp]
        exact ih hp.le hhigh

/-- Snapping twice is snapping once. The case to look at is a price above a range that is snapped
down onto the end of that range: the range takes it then, and has it on its own grid. -/
lemma idempotent (h : Spans ranges low high) (hlow : low ≤ p) (hhigh : p ≤ high) :
    snapToGrid (snapToGrid p ranges) ranges = snapToGrid p ranges := by
  induction h with
  | last h =>
    exact h.snapToGrid_of_multiple (h.contains_snapToGrid ⟨hlow, hhigh⟩)
      (h.snapToGrid_multiple ⟨hlow, hhigh⟩)
  | @step range ranges high h rest ih =>
    rcases le_or_gt p range.end_ with hp | hp
    · exact h.snapToGrid_of_multiple (h.contains_snapToGrid ⟨hlow, hp⟩)
        (h.snapToGrid_multiple ⟨hlow, hp⟩)
    · rw [snapToGrid_cons_of_lt hp]
      rcases (rest.between hp.le hhigh).1.lt_or_eq with hgt | heq
      · rw [snapToGrid_cons_of_lt hgt]
        exact ih hp.le hhigh
      · rw [← heq]
        exact h.snapToGrid_end

end Spans

/-- **On a ladder snapping is a monotone projection onto the grid.** Every price between the ends
of the ladder is in one of its ranges; it stays in each that it is in, and is snapped to a multiple
of the step of this range; the order of the prices is kept; and a snapped price is left where it
is, also where it is snapped onto an end that two ranges with different steps share. -/
theorem snapToGrid_ladder {ranges : List (PriceRange ℚ)} (h : IsLadder ranges) {p q : ℚ}
    (hlow : (ranges.head h.nonempty).start ≤ p) (hpq : p ≤ q)
    (hhigh : q ≤ (ranges.getLast h.nonempty).end_) :
    (∃ range ∈ ranges, Contains range p) ∧
      (∀ range ∈ ranges, Contains range p → Contains range (snapToGrid p ranges) ∧
        ∃ m : ℤ, snapToGrid p ranges = m * range.step) ∧
      snapToGrid p ranges ≤ snapToGrid q ranges ∧
      snapToGrid (snapToGrid p ranges) ranges = snapToGrid p ranges :=
  ⟨h.spans.exists_contains hlow (hpq.trans hhigh),
    fun _ hr hp => ⟨h.spans.contains hr hp, h.spans.multiple hr hp⟩,
    h.spans.mono hlow hpq hhigh, h.spans.idempotent hlow (hpq.trans hhigh)⟩

/-- Three ranges with different steps, and a price just above the end of the first. -/
theorem snapToGrid_ladder_coarse :
    let ladder : List (PriceRange ℚ) :=
      [⟨0, 1 / 5, 1 / 100⟩, ⟨1 / 5, 4 / 5, 1 / 20⟩, ⟨4 / 5, 1, 1 / 50⟩]
    snapToGrid (21 / 100) ladder ≤ snapToGrid (17 / 20) ladder ∧
      snapToGrid (snapToGrid (21 / 100) ladder) ladder = snapToGrid (21 / 100) ladder := by
  intro ladder
  have h : IsLadder ladder := by
    refine ⟨by simp [ladder], ?_, by simp [ladder]⟩
    intro range hr
    simp only [ladder, List.mem_cons, List.not_mem_nil, or_false] at hr
    rcases hr with rfl | rfl | rfl
    · exact ⟨by norm_num, by norm_num, ⟨0, by norm_num⟩, ⟨20, by norm_num⟩⟩
    · exact ⟨by norm_num, by norm_num, ⟨4, by norm_num⟩, ⟨16, by norm_num⟩⟩
    · exact ⟨by norm_num, by norm_num, ⟨40, by norm_num⟩, ⟨50, by norm_num⟩⟩
  have hlow : (ladder.head h.nonempty).start ≤ 21 / 100 := by norm_num [ladder]
  have hhigh : (17 / 20 : ℚ) ≤ (ladder.getLast h.nonempty).end_ := by norm_num [ladder]
  exact (snapToGrid_ladder h hlow (by norm_num) hhigh).2.2

end Hotpath
