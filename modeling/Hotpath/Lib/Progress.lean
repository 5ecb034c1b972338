import Hotpath.Lib.System

set_option relaxedAutoImplicit false
set_option autoImplicit false

/-!
# How far one thread gets

In a system of several threads a bound on the steps of one of them holds whatever the others do
in between. The steps of a run that are of a kind are counted; the ranking rule bounds them by a
relation that says how many are left at most, which the steps of the kind lower and the others keep.

## Main definitions

* `System.Takes` — a run with so many steps of a kind.

## Main results

* `System.Takes.le` — the ranking rule.
* `System.Takes.run` — what is counted is a run.
* `System.Run.length_le` — the rule for all steps of a run.
-/

namespace System

variable {σ α : Type} {step own : σ → α → σ → Prop} {s₀ : σ}

/-- A run from `s₀` to a state, with the number of its steps that are `own`. -/
inductive Takes (step own : σ → α → σ → Prop) (s₀ : σ) : ℕ → σ → Prop
  | nil : Takes step own s₀ 0 s₀
  | own {n : ℕ} {s s' : σ} {a : α} (ht : Takes step own s₀ n s) (hs : step s a s')
      (ho : own s a s') : Takes step own s₀ (n + 1) s'
  | other {n : ℕ} {s s' : σ} {a : α} (ht : Takes step own s₀ n s) (hs : step s a s')
      (ho : ¬ own s a s') : Takes step own s₀ n s'

/-- What is counted is a run. -/
theorem Takes.run {n : ℕ} {s : σ} (ht : Takes step own s₀ n s) : ∃ h, Run step s₀ h s := by
  induction ht with
  | nil => exact ⟨[], .nil⟩
  | own _ hs _ ih =>
    obtain ⟨h, hr⟩ := ih
    exact ⟨_, hr.snoc hs⟩
  | other _ hs _ ih =>
    obtain ⟨h, hr⟩ := ih
    exact ⟨_, hr.snoc hs⟩

/-- **The ranking rule.** Let `L s m` say that at most `m` steps of a kind are left. If every
step of the kind lowers the bound and every other step keeps it, a run takes no more of them.

**Proof sketch.** The bound at the end and the steps taken so far add up to at most the first. -/
theorem Takes.le {L : σ → ℕ → Prop}
    (hown : ∀ s a s' m, L s m → step s a s' → own s a s' → ∃ m' < m, L s' m')
    (hother : ∀ s a s' m, L s m → step s a s' → ¬ own s a s' → ∃ m' ≤ m, L s' m')
    {m n : ℕ} {s : σ} (h₀ : L s₀ m) (ht : Takes step own s₀ n s) : n ≤ m := by
  suffices h : ∃ m', n + m' ≤ m ∧ L s m' by
    obtain ⟨m', hle, -⟩ := h
    omega
  induction ht with
  | nil => exact ⟨m, by omega, h₀⟩
  | own _ hs ho ih =>
    obtain ⟨k, hle, hk⟩ := ih
    obtain ⟨k', hlt, hk'⟩ := hown _ _ _ k hk hs ho
    exact ⟨k', by omega, hk'⟩
  | other _ hs ho ih =>
    obtain ⟨k, hle, hk⟩ := ih
    obtain ⟨k', hle', hk'⟩ := hother _ _ _ k hk hs ho
    exact ⟨k', by omega, hk'⟩

/-- A run, with all of its steps counted. -/
theorem Run.takes {h : List (σ × α)} {s : σ} (hr : Run step s₀ h s) :
    Takes step (fun _ _ _ => True) s₀ h.length s := by
  induction hr with
  | nil => exact .nil
  | snoc _ hs ih =>
    rw [List.length_append, List.length_singleton]
    exact ih.own hs trivial

/-- **The ranking rule for whole runs**, of which the actions are all of a kind. -/
theorem Run.length_le {L : σ → ℕ → Prop} {P : α → Prop}
    (hstep : ∀ s a s' m, L s m → step s a s' → P a → ∃ m' < m, L s' m')
    {m : ℕ} {h : List (σ × α)} {s : σ} (h₀ : L s₀ m) (hr : Run step s₀ h s)
    (hP : ∀ p ∈ h, P p.2) : h.length ≤ m := by
  refine (hr.restrict hP).takes.le (L := L) ?_ ?_ h₀
  · rintro s a s' m hm ⟨hs, ha⟩ -
    exact hstep s a s' m hm hs ha
  · exact fun _ _ _ _ _ _ ho => absurd trivial ho

end System
