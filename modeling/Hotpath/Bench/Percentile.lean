import Mathlib.Data.List.Sort
import Mathlib.Data.Rat.Floor
import Hotpath.Lib.Interpolation

set_option relaxedAutoImplicit false
set_option autoImplicit false

/-!
# The percentile estimator of the benchmark

`bench/percentile.cpp` over exact rationals. Samples are discarded, sorted and read at three
ranks by the type-7 estimator, which interpolates linearly between neighbours. The estimate
stays within the samples and rises with the probability.

## Main definitions

* `Hotpath.percentile`, `Hotpath.Stats.fromSamples`.
* `Hotpath.typeSeven` — the estimator as a function of the rank.

## Main results

* `Hotpath.percentile_eq` — `percentile` is the type-7 estimator.
* `Hotpath.percentile_in_order` — its order and bounds, and what they say of the three values.
-/

namespace Hotpath

open Interpolation

/-- How a call ends without a value: by the exception `std::invalid_argument`, or outside the
behaviour that the language defines. -/
inductive BenchFailure where
  | invalidArgument (what : String)
  | undefined
  deriving DecidableEq, Repr

/-- `ordered[i]`, which must be an element. -/
def sampleAt (ordered : List ℚ) (i : ℕ) : Except BenchFailure ℚ :=
  match ordered[i]? with
  | some x => pure x
  | none => throw .undefined

/-- `static_cast<std::size_t>`, which a negative value must not reach. -/
def toSize (x : ℤ) : Except BenchFailure ℕ :=
  if 0 ≤ x then pure x.toNat else throw .undefined

/-- `rank`: `static_cast<double>(ordered.size() - 1) * p`. -/
def rank (ordered : List ℚ) (p : ℚ) : ℚ := (ordered.length - 1 : ℕ) * p

/-- `percentile`. -/
def percentile (ordered : List ℚ) (p : ℚ) : Except BenchFailure ℚ :=
  if ordered.isEmpty then throw (.invalidArgument "percentile of an empty sample")
  else if ordered.length = 1 then sampleAt ordered 0
  else do
    let lo ← toSize ⌊rank ordered p⌋
    let hi ← toSize ⌈rank ordered p⌉
    if lo = hi then sampleAt ordered lo
    else
      let below ← sampleAt ordered lo
      let above ← sampleAt ordered hi
      return below + (above - below) * (rank ordered p - lo)

/-- `Stats`. -/
structure Stats where
  p50_ms : ℚ
  p90_ms : ℚ
  p99_ms : ℚ
  n : ℕ
  warmup : ℕ
  deriving DecidableEq, Repr

/-- `Stats::from_samples`: its result, and the samples as it leaves them. -/
def Stats.fromSamples (samples_ms : List ℚ) (warmup : ℕ) :
    Except BenchFailure Stats × List ℚ :=
  let dropped := min warmup samples_ms.length
  let kept := (samples_ms.drop dropped).mergeSort (· ≤ ·)
  let stats := do
    let p50 ← percentile kept 0.50
    let p90 ← percentile kept 0.90
    let p99 ← percentile kept 0.99
    return ⟨p50, p90, p99, kept.length, dropped⟩
  (stats, samples_ms.take dropped ++ kept)

/-! ## The estimator -/

/-- The type-7 estimate: the interpolated samples at the rank `(n - 1) * p`. -/
def typeSeven {ordered : List ℚ} (h : ordered ≠ []) (p : ℚ) : ℚ :=
  linear (extended h) (rank ordered p)

section Estimator

variable {ordered : List ℚ} {p : ℚ}

/-- The rank lies between the first index and the last. -/
lemma rank_bounds (ordered : List ℚ) (hp0 : 0 ≤ p) (hp1 : p ≤ 1) :
    0 ≤ rank ordered p ∧ rank ordered p ≤ (ordered.length - 1 : ℕ) :=
  ⟨mul_nonneg (Nat.cast_nonneg _) hp0, mul_le_of_le_one_right (Nat.cast_nonneg _) hp1⟩

/-- The indices on both sides of the rank are indices of samples. -/
lemma rank_indices (h : ordered ≠ []) (hp0 : 0 ≤ p) (hp1 : p ≤ 1) :
    toSize ⌊rank ordered p⌋ = .ok ⌊rank ordered p⌋₊ ∧
      toSize ⌈rank ordered p⌉ = .ok ⌈rank ordered p⌉₊ ∧
      ⌊rank ordered p⌋₊ ≤ ⌈rank ordered p⌉₊ ∧ ⌈rank ordered p⌉₊ < ordered.length := by
  obtain ⟨hlo, hhi⟩ := rank_bounds ordered hp0 hp1
  have hpos := List.length_pos_of_ne_nil h
  have hceil : ⌈rank ordered p⌉₊ ≤ ordered.length - 1 := Nat.ceil_le.mpr hhi
  refine ⟨?_, ?_, Nat.floor_le_ceil _, by omega⟩
  · rw [toSize, if_pos (Int.floor_nonneg.mpr hlo), Int.floor_toNat]
    rfl
  · rw [toSize, if_pos (Int.ceil_nonneg hlo), Int.ceil_toNat]
    rfl

/-- A sample is read at an index of the list. -/
lemma sampleAt_of_lt (h : ordered ≠ []) {i : ℕ} (hi : i < ordered.length) :
    sampleAt ordered i = .ok (extended h i) := by
  rw [sampleAt, List.getElem?_eq_getElem hi, extended_of_lt h hi]
  rfl

/-- **`percentile` is the type-7 estimator**, for a sample of any size and a rank that is an
index or lies between two. -/
theorem percentile_eq (h : ordered ≠ []) (hp0 : 0 ≤ p) (hp1 : p ≤ 1) :
    percentile ordered p = .ok (typeSeven h p) := by
  have hne : ordered.isEmpty = false := by simpa using h
  have hpos := List.length_pos_of_ne_nil h
  obtain ⟨hlo, -⟩ := rank_bounds ordered hp0 hp1
  obtain ⟨hfloor, hceil, hle, hlt⟩ := rank_indices h hp0 hp1
  rw [percentile, hne, if_neg (by decide)]
  by_cases hone : ordered.length = 1
  · -- with one element the rank is zero, whatever the probability
    have hrank : rank ordered p = (0 : ℕ) := by rw [rank, hone]; simp
    rw [if_pos hone, sampleAt_of_lt h hpos, typeSeven, hrank, linear_natCast]
  · rw [if_neg hone, hfloor, hceil]
    simp only [bind, Except.bind]
    by_cases heq : ⌊rank ordered p⌋₊ = ⌈rank ordered p⌉₊
    · -- the rank is an index
      have hrank : rank ordered p = ⌊rank ordered p⌋₊ := by
        apply le_antisymm
        · rw [heq]
          exact Nat.le_ceil _
        · exact Nat.floor_le hlo
      rw [if_pos heq, sampleAt_of_lt h (by omega), typeSeven]
      conv_rhs => rw [hrank, linear_natCast]
    · have hnext : ⌈rank ordered p⌉₊ = ⌊rank ordered p⌋₊ + 1 := by
        have := Nat.ceil_le_floor_add_one (rank ordered p)
        omega
      rw [if_neg heq, sampleAt_of_lt h (by omega), sampleAt_of_lt h hlt, hnext]
      rfl

/-- The estimate rises with the probability. -/
lemma typeSeven_mono (h : ordered ≠ []) (hs : ordered.Pairwise (· ≤ ·)) {q : ℚ} (hp0 : 0 ≤ p)
    (hpq : p ≤ q) : typeSeven h p ≤ typeSeven h q := by
  apply linear_mono (extended_mono h hs)
  · exact mul_nonneg (Nat.cast_nonneg _) hp0
  · exact mul_le_mul_of_nonneg_left hpq (Nat.cast_nonneg _)

/-- The estimate for probability zero is the first sample. -/
lemma typeSeven_zero (h : ordered ≠ []) : typeSeven h 0 = ordered.head h := by
  have hrank : rank ordered 0 = (0 : ℕ) := by rw [rank, mul_zero, Nat.cast_zero]
  rw [typeSeven, hrank, linear_natCast, extended_zero]

/-- The estimate for probability one is the last sample. -/
lemma typeSeven_one (h : ordered ≠ []) : typeSeven h 1 = ordered.getLast h := by
  rw [typeSeven, rank, mul_one, linear_natCast, extended_last]

end Estimator

/-! ## The three values of a run -/

section Stats

/-- The samples that are read: those after the warmup prefix, sorted. -/
def keptOf (samples_ms : List ℚ) (warmup : ℕ) : List ℚ :=
  (samples_ms.drop (min warmup samples_ms.length)).mergeSort (· ≤ ·)

/-- The warm-up takes as many samples away as it counts, if there are so many. -/
lemma length_keptOf (samples_ms : List ℚ) (warmup : ℕ) :
    (keptOf samples_ms warmup).length = samples_ms.length - min warmup samples_ms.length := by
  rw [keptOf, List.length_mergeSort, List.length_drop]

/-- Neither the warmup prefix nor the order of the rest matters. -/
lemma keptOf_congr {rest rest' : List ℚ} (warm warm' : List ℚ) (hrest : rest.Perm rest') :
    keptOf (warm ++ rest) warm.length = keptOf (warm' ++ rest') warm'.length := by
  have hdrop : ∀ warm rest : List ℚ,
      keptOf (warm ++ rest) warm.length = rest.mergeSort (· ≤ ·) := by
    intro warm rest
    rw [keptOf, List.length_append, min_eq_left (Nat.le_add_right _ _), List.drop_left]
  rw [hdrop, hdrop]
  apply List.Perm.eq_of_pairwise' (r := (· ≤ ·)) (List.pairwise_mergeSort' _ _)
    (List.pairwise_mergeSort' _ _)
  exact (List.mergeSort_perm _ _).trans (hrest.trans (List.mergeSort_perm _ _).symm)

/-- What is kept are the samples after the warm-up, in ascending order. -/
lemma keptOf_sorted (samples_ms : List ℚ) (warmup : ℕ) :
    (keptOf samples_ms warmup).Pairwise (· ≤ ·) ∧
      (keptOf samples_ms warmup).Perm (samples_ms.drop (min warmup samples_ms.length)) :=
  ⟨List.pairwise_mergeSort' _ _, List.mergeSort_perm _ _⟩

/-- With a sample after the warmup the three values are type-7 estimates. -/
lemma fromSamples_ok {samples_ms : List ℚ} {warmup : ℕ} (h : keptOf samples_ms warmup ≠ []) :
    (Stats.fromSamples samples_ms warmup).1 = .ok ⟨typeSeven h 0.50, typeSeven h 0.90,
      typeSeven h 0.99, (keptOf samples_ms warmup).length, min warmup samples_ms.length⟩ := by
  have h50 := percentile_eq (p := 0.50) h (by norm_num) (by norm_num)
  have h90 := percentile_eq (p := 0.90) h (by norm_num) (by norm_num)
  have h99 := percentile_eq (p := 0.99) h (by norm_num) (by norm_num)
  unfold keptOf at h50 h90 h99
  rw [Stats.fromSamples, h50, h90, h99]
  rfl

/-- Without one the estimator refuses the empty sample. -/
lemma fromSamples_error {samples_ms : List ℚ} {warmup : ℕ} (h : keptOf samples_ms warmup = []) :
    (Stats.fromSamples samples_ms warmup).1 =
      .error (.invalidArgument "percentile of an empty sample") := by
  unfold keptOf at h
  rw [Stats.fromSamples, h]
  rfl

/-- No sample is kept when all of them are warm-up. -/
lemma keptOf_eq_nil_iff (samples_ms : List ℚ) (warmup : ℕ) :
    keptOf samples_ms warmup = [] ↔ samples_ms.length ≤ warmup := by
  rw [← List.length_eq_zero_iff, length_keptOf]
  omega

end Stats

/-- **The percentile estimator stays in range and in order.** On an ascending list both indices
are indices of samples, the result is the type-7 estimate, and estimates rise with the
probability from the first sample to the last. So the three values of a run, which are the
estimates of the samples after the warmup prefix in ascending order, are in order; they depend
neither on the warmup prefix nor on the order of the samples after it; and the call throws
`std::invalid_argument` exactly if the warmup leaves no sample. -/
theorem percentile_in_order :
    (∀ (ordered : List ℚ) (h : ordered ≠ []) (p q : ℚ), ordered.Pairwise (· ≤ ·) → 0 ≤ p →
      p ≤ q → q ≤ 1 →
        (∃ lo hi, toSize ⌊rank ordered p⌋ = .ok lo ∧ toSize ⌈rank ordered p⌉ = .ok hi ∧
          lo < ordered.length ∧ hi < ordered.length) ∧
        percentile ordered p = .ok (typeSeven h p) ∧ percentile ordered q = .ok (typeSeven h q) ∧
        ordered.head h ≤ typeSeven h p ∧ typeSeven h p ≤ typeSeven h q ∧
        typeSeven h q ≤ ordered.getLast h) ∧
      (∀ (samples_ms : List ℚ) (warmup : ℕ), warmup < samples_ms.length →
        ∃ (kept : List ℚ) (h : kept ≠ []), kept.Pairwise (· ≤ ·) ∧
          kept.Perm (samples_ms.drop warmup) ∧
          (Stats.fromSamples samples_ms warmup).1 = .ok ⟨typeSeven h 0.50, typeSeven h 0.90,
            typeSeven h 0.99, kept.length, warmup⟩ ∧
          typeSeven h 0.50 ≤ typeSeven h 0.90 ∧ typeSeven h 0.90 ≤ typeSeven h 0.99) ∧
      (∀ warm warm' rest rest' : List ℚ, warm.length = warm'.length → rest.Perm rest' →
        (Stats.fromSamples (warm ++ rest) warm.length).1 =
          (Stats.fromSamples (warm' ++ rest') warm'.length).1) ∧
      ∀ (samples_ms : List ℚ) (warmup : ℕ),
        (Stats.fromSamples samples_ms warmup).1 =
          .error (.invalidArgument "percentile of an empty sample") ↔
          samples_ms.length ≤ warmup := by
  refine ⟨?_, ?_, ?_, ?_⟩
  · intro ordered h p q hs hp0 hpq hq1
    have hp1 := hpq.trans hq1
    have hq0 := hp0.trans hpq
    obtain ⟨hfloor, hceil, hle, hlt⟩ := rank_indices h hp0 hp1
    refine ⟨⟨_, _, hfloor, hceil, by omega, hlt⟩, percentile_eq h hp0 hp1,
      percentile_eq h hq0 hq1, ?_, typeSeven_mono h hs hp0 hpq, ?_⟩
    · rw [← typeSeven_zero h]
      exact typeSeven_mono h hs le_rfl hp0
    · rw [← typeSeven_one h]
      exact typeSeven_mono h hs hq0 hq1
  · intro samples_ms warmup hlt
    have h : keptOf samples_ms warmup ≠ [] := by
      rw [Ne, keptOf_eq_nil_iff]
      omega
    obtain ⟨hs, hperm⟩ := keptOf_sorted samples_ms warmup
    have hvalues := fromSamples_ok h
    rw [min_eq_left hlt.le] at hperm hvalues
    exact ⟨_, h, hs, hperm, hvalues, typeSeven_mono h hs (by norm_num) (by norm_num),
      typeSeven_mono h hs (by norm_num) (by norm_num)⟩
  · intro warm warm' rest rest' hwarm hrest
    have hkept := keptOf_congr warm warm' hrest
    have hdropped : min warm.length (warm ++ rest).length =
        min warm'.length (warm' ++ rest').length := by
      rw [List.length_append, List.length_append, hwarm, hrest.length_eq]
    unfold keptOf at hkept
    unfold Stats.fromSamples
    simp only
    rw [hkept, hdropped]
  · intro samples_ms warmup
    rw [← keptOf_eq_nil_iff]
    constructor
    · intro hthrows
      by_contra h
      rw [fromSamples_ok h] at hthrows
      cases hthrows
    · exact fromSamples_error

/-- Three samples after a warmup of one. -/
theorem percentile_in_order_three : ∃ (kept : List ℚ) (h : kept ≠ []),
    kept.Pairwise (· ≤ ·) ∧ kept.Perm [3, 1, 2] ∧
      (Stats.fromSamples [9, 3, 1, 2] 1).1 = .ok ⟨typeSeven h 0.50, typeSeven h 0.90,
        typeSeven h 0.99, kept.length, 1⟩ ∧
      typeSeven h 0.50 ≤ typeSeven h 0.90 ∧ typeSeven h 0.90 ≤ typeSeven h 0.99 :=
  percentile_in_order.2.1 [9, 3, 1, 2] 1 (by decide)

end Hotpath
