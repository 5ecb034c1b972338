import Mathlib.Data.Int.Notation
import Mathlib.Tactic.SplitIfs

set_option relaxedAutoImplicit false
set_option autoImplicit false

/-!
# The kill switch

`src/killswitch.cpp`. The switch is the presence of a file, and a check asks the file system at
most once in the time to live of its answer. Readings of the monotonic clock are integers, so
the difference of two of them is exact.

## Main definitions

* `Hotpath.KillSwitch` — the cached answer and when it was obtained.
* `Hotpath.KillSwitch.isEngaged`, `Hotpath.KillSwitch.invalidate`.
-/

namespace Hotpath

/-- What `std::filesystem::exists` answers: its result, and whether it set `ec`. -/
structure Stat where
  found : Bool
  failed : Bool

/-- `KillSwitch`, less its path: which file is meant is up to the environment. -/
structure KillSwitch where
  ttlNs : ℤ
  checkedAtNs : ℤ
  cached : Bool
  hasCached : Bool

namespace KillSwitch

/-- How long a cached answer is good by default. -/
def kDefaultTtlNs : ℤ := 1000000000

/-- A constructed switch. -/
def new (ttlNs : ℤ) : KillSwitch where
  ttlNs := ttlNs
  checkedAtNs := 0
  cached := false
  hasCached := false

/-- `is_engaged`, at a reading of the clock and with what the file system would answer. -/
def isEngaged (k : KillSwitch) (now : ℤ) (stat : Stat) : Bool × KillSwitch :=
  if k.hasCached ∧ now - k.checkedAtNs < k.ttlNs then (k.cached, k)
  else
    let cached := stat.found && !stat.failed
    (cached, { k with cached := cached, hasCached := true, checkedAtNs := now })

/-- `invalidate`: the next query looks at the file. -/
def invalidate (k : KillSwitch) : KillSwitch := { k with hasCached := false, checkedAtNs := 0 }

/-- **What a check can do**: answer from the cache, within the time to live of its answer, or
ask the file system and remember the answer. -/
lemma isEngaged_cases (k : KillSwitch) (now : ℤ) (stat : Stat) :
    (k.hasCached = true ∧ now - k.checkedAtNs < k.ttlNs ∧ k.isEngaged now stat = (k.cached, k)) ∨
    k.isEngaged now stat = (stat.found && !stat.failed,
      { k with cached := stat.found && !stat.failed, hasCached := true, checkedAtNs := now }) := by
  unfold isEngaged
  split_ifs with h
  · exact Or.inl ⟨h.1, h.2, rfl⟩
  · exact Or.inr rfl

end KillSwitch

end Hotpath
