import Mathlib.Algebra.Order.Floor.Ring
import Mathlib.Algebra.Ring.Int.Parity
import Mathlib.Tactic.Linarith
import Mathlib.Tactic.Ring
import Mathlib.Tactic.FieldSimp
import Mathlib.Tactic.NormNum

set_option relaxedAutoImplicit false
set_option autoImplicit false

/-!
# Rounding to an integer

The two roundings to a nearest integer that differ on ties: halves away from zero, and halves
to the even neighbour. The second is stated as a relation, which determines its integer, and
is computed from the first by rounding the half of a tie again.

## Main definitions

* `Rounding.halfAway` — the nearest integer, halves away from zero.
* `Rounding.IsNearestEven` — the integer is nearest, and even if two are.

## Main results

* `Rounding.IsNearestEven.unique` — there is only one such integer.
* `Rounding.isNearestEven_halved` — how the second rounding is computed from the first.
* `Rounding.IsNearestEven.le_iff` — which numbers round to at most a given integer.
* `Rounding.IsNearestEven.mono`, `Rounding.isNearestEven_intCast` — rounding is monotone and
  leaves the integers where they are.
-/

namespace Rounding

variable {K : Type} [Field K] [LinearOrder K] [IsStrictOrderedRing K]

/-- The integer `k` is nearest to `x`, and even if `x` is halfway between two integers. -/
def IsNearestEven (x : K) (k : ℤ) : Prop := |x - k| ≤ 1 / 2 ∧ (|x - k| = 1 / 2 → Even k)

/-- A midpoint is half away from both its neighbours. -/
private lemma abs_sub_of_midpoint {x : K} {m k : ℤ} (hx : x = m + 1 / 2)
    (hk : k = m ∨ k = m + 1) : |x - k| = 1 / 2 := by
  rcases hk with rfl | rfl
  · rw [hx, add_sub_cancel_left, abs_of_pos (by norm_num)]
  · rw [hx, Int.cast_add, Int.cast_one, show (m : K) + 1 / 2 - (m + 1) = -(1 / 2) by ring,
      abs_neg, abs_of_pos (by norm_num)]

/-- **Which numbers round to at most `m`**: those below the midpoint after `m`, and the midpoint
itself if `m` is even. -/
theorem IsNearestEven.le_iff {x : K} {k : ℤ} (h : IsNearestEven x k) (m : ℤ) :
    k ≤ m ↔ x < m + 1 / 2 ∨ x = m + 1 / 2 ∧ Even m := by
  obtain ⟨hle, heven⟩ := h
  obtain ⟨hlo, hhi⟩ := abs_le.mp hle
  constructor
  · intro hk
    have hk' : (k : K) ≤ m := by exact_mod_cast hk
    rcases lt_or_eq_of_le (show x ≤ m + 1 / 2 by linarith) with hlt | heq
    · exact Or.inl hlt
    · have hkm : (k : K) = m := le_antisymm hk' (by linarith)
      obtain rfl : k = m := by exact_mod_cast hkm
      exact Or.inr ⟨heq, heven (abs_sub_of_midpoint heq (Or.inl rfl))⟩
  · intro hx
    by_contra hk
    have hk' : (m : K) + 1 ≤ k := by exact_mod_cast (by omega : m + 1 ≤ k)
    rcases hx with hlt | ⟨heq, hm⟩
    · linarith
    · have hkm : (k : K) = m + 1 := le_antisymm (by linarith) hk'
      have hkm' : k = m + 1 := by exact_mod_cast hkm
      have hkeven := heven (abs_sub_of_midpoint heq (Or.inr hkm'))
      rw [hkm'] at hkeven
      exact absurd hm (by simpa [Int.even_add_one] using hkeven)

/-- Only one integer is the nearest with ties to even. -/
theorem IsNearestEven.unique {x : K} {k l : ℤ} (hk : IsNearestEven x k) (hl : IsNearestEven x l) :
    k = l := by
  have hkl := (hk.le_iff l).mpr ((hl.le_iff l).mp le_rfl)
  have hlk := (hl.le_iff k).mpr ((hk.le_iff k).mp le_rfl)
  omega

/-- A number rounds to a positive integer if it is above one half. -/
lemma IsNearestEven.pos_iff {x : K} {k : ℤ} (h : IsNearestEven x k) : 0 < k ↔ 1 / 2 < x := by
  have hle := h.le_iff 0
  simp only [Int.cast_zero, zero_add, Even.zero, and_true] at hle
  rw [← not_le, hle, ← le_iff_lt_or_eq, not_le]

/-- A larger number rounds to no smaller integer. -/
theorem IsNearestEven.mono {x y : K} {k l : ℤ} (hk : IsNearestEven x k) (hl : IsNearestEven y l)
    (hxy : x ≤ y) : k ≤ l := by
  apply (hk.le_iff l).mpr
  rcases (hl.le_iff l).mp le_rfl with hlt | ⟨heq, heven⟩
  · exact Or.inl (hxy.trans_lt hlt)
  · rcases hxy.lt_or_eq with hlt | rfl
    · exact Or.inl (hlt.trans_eq heq)
    · exact Or.inr ⟨heq, heven⟩

/-- An integer rounds to itself. -/
lemma isNearestEven_intCast (m : ℤ) : IsNearestEven (m : K) m := by
  constructor
  · rw [sub_self, abs_zero]
    norm_num
  · intro h
    rw [sub_self, abs_zero] at h
    norm_num at h

/-- Half an odd integer rounds to an even one. -/
lemma IsNearestEven.even_of_midpoint {x : K} {k m : ℤ} (h : IsNearestEven x k)
    (hx : x = m + 1 / 2) : Even k := by
  apply h.2
  obtain ⟨hlo, hhi⟩ := abs_le.mp h.1
  have h1 : k ≤ m + 1 := by exact_mod_cast (show (k : K) ≤ m + 1 by linarith)
  have h2 : m ≤ k := by exact_mod_cast (show (m : K) ≤ k by linarith)
  exact abs_sub_of_midpoint hx (by omega)

variable [FloorRing K]

/-- The nearest integer, halves away from zero. -/
def halfAway (x : K) : ℤ := if 0 ≤ x then ⌊x + 1 / 2⌋ else ⌈x - 1 / 2⌉

/-- Rounding halves away gives a nearest integer. -/
lemma abs_sub_halfAway_le (x : K) : |x - halfAway x| ≤ 1 / 2 := by
  unfold halfAway
  rw [abs_le]
  split_ifs with h
  · have hle := Int.floor_le (x + 1 / 2)
    have hlt := Int.lt_floor_add_one (x + 1 / 2)
    constructor <;> linarith
  · have hle := Int.le_ceil (x - 1 / 2)
    have hlt := Int.ceil_lt_add_one (x - 1 / 2)
    constructor <;> linarith

/-- On a tie, twice the rounded half is a nearest integer too.

**Proof sketch.** It differs from the number by at most one, and from a midpoint by half an
odd integer. -/
private lemma abs_sub_two_mul_halfAway {x : K} (h : |x - halfAway x| = 1 / 2) :
    |x - (2 * halfAway (x / 2) : ℤ)| = 1 / 2 := by
  obtain ⟨n, hn⟩ : ∃ n : ℤ, x = n + 1 / 2 := by
    rcases abs_eq (by norm_num : (0 : K) ≤ 1 / 2) |>.mp h with h | h
    · exact ⟨halfAway x, by linarith⟩
    · refine ⟨halfAway x - 1, ?_⟩
      push_cast
      linarith
  have hhalf := abs_sub_halfAway_le (x / 2)
  generalize halfAway (x / 2) = k at hhalf ⊢
  obtain ⟨hlo, hhi⟩ := abs_le.mp hhalf
  have hlo' : (2 * k : K) < n + 2 := by linarith
  have hhi' : (n : K) - 1 < 2 * k := by linarith
  have h1 : 2 * k < n + 2 := by exact_mod_cast hlo'
  have h2 : n - 1 < 2 * k := by exact_mod_cast hhi'
  exact abs_sub_of_midpoint hn (by omega)

/-- **Half to even from half away from zero**: a number that is not halfway rounds the same
way, and one that is rounds to twice the rounded half. -/
theorem isNearestEven_halved (x : K) :
    IsNearestEven x (if |x - halfAway x| = 1 / 2 then 2 * halfAway (x / 2) else halfAway x) := by
  split_ifs with h
  · have htie := abs_sub_two_mul_halfAway h
    exact ⟨htie.le, fun _ => even_two_mul _⟩
  · exact ⟨abs_sub_halfAway_le x, fun htie => absurd htie h⟩

end Rounding
