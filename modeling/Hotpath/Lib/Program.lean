import Mathlib.Data.Nat.Notation
import Mathlib.Order.Nat
import Mathlib.Tactic.Lemma

set_option relaxedAutoImplicit false
set_option autoImplicit false

/-!
# Programs that make calls

A program that calls an environment it does not control is a tree: it has returned, or it makes a
call and goes on depending on the answer. The environment is a relation, which says in which
states a call may get which answer. The same tree serves two readings: a whole execution, and one
call after the other, for a program that runs next to others.

## Main definitions

* `Program` — the trees, and their sequential composition.
* `Program.Exec` — the executions in an environment.
* `Program.After` — the weakest precondition, for all answers the environment may give.
* `Program.Within` — the same, and every call is one that is allowed where it is made.
* `Program.Calls` — the calls an execution makes, finished or not.
* `Program.Costs` — a bound on how many there are.

## Main results

* `Program.After.of_exec` — the precondition is sound for executions.
* `Program.after_bind`, `Program.After.imp` — the rules of composition and of consequence.
* `Program.After.exists_end` — what a program may still come to if it is answered quietly.
* `Program.exec_total` — where the environment always answers, every program returns.
* `Program.Within.of_calls`, `Program.Within.of_exec` — the bounds are kept in every execution.
* `Program.within_bind`, `Program.Within.and_invariant` — the rule of composition, and what the
  allowed calls keep.
* `Program.Costs.bind`, `Program.Costs.of_call` — the rules of the bound.
-/

/-- A program with calls from `C`, each with its type of answers, that returns an `α`. -/
inductive Program (C : Type) (R : C → Type) (α : Type) : Type where
  | pure (a : α)
  | call (c : C) (next : R c → Program C R α)

namespace Program

variable {C : Type} {R : C → Type} {α β σ : Type}

/-- One program after the other. -/
def bind : Program C R α → (α → Program C R β) → Program C R β
  | .pure a, f => f a
  | .call c next, f => .call c fun r => (next r).bind f

/-- A program goes on with another by doing the calls of both in turn. -/
instance : Monad (Program C R) where
  pure := .pure
  bind := bind

/-- The program that makes one call and returns the answer. -/
def perform (c : C) : Program C R (R c) := .call c .pure

/-- After a return the next program has its turn. -/
@[simp]
lemma pure_bind (a : α) (f : α → Program C R β) : (Pure.pure a >>= f) = f a := rfl

/-- What follows a program follows every answer to its first call. -/
@[simp]
lemma call_bind (c : C) (next : R c → Program C R α) (f : α → Program C R β) :
    (call c next >>= f) = call c fun r => next r >>= f := rfl

/-- A single call is followed by what is made of its answer. -/
@[simp]
lemma perform_bind (c : C) (f : R c → Program C R β) : (perform c >>= f) = call c f := rfl

variable (step : σ → (c : C) → R c → σ → Prop)

/-- A whole execution of a program, from a state to its result and the state after it. -/
inductive Exec : Program C R α → σ → α → σ → Prop
  | pure {a : α} {s : σ} : Exec (.pure a) s a s
  | call {c : C} {next : R c → Program C R α} {r : R c} {a : α} {s s' s'' : σ}
      (hs : step s c r s') (hr : Exec (next r) s' a s'') : Exec (.call c next) s a s''

/-- Whatever the environment answers, `Q` holds when the program returns. -/
def After (Q : α → σ → Prop) : Program C R α → σ → Prop
  | .pure a, s => Q a s
  | .call c next, s => ∀ r s', step s c r s' → After Q (next r) s'

/-- Whatever the environment answers, `ok` allows every call in the state it is made in, and `Q`
holds when the program returns. -/
def Within (ok : σ → C → Prop) (Q : α → σ → Prop) : Program C R α → σ → Prop
  | .pure a, s => Q a s
  | .call c next, s => ok s c ∧ ∀ r s', step s c r s' → Within ok Q (next r) s'

/-- From the first state, some execution comes to make a call in the second. -/
inductive Calls : Program C R α → σ → σ → C → Prop
  | here {c : C} {next : R c → Program C R α} {s : σ} : Calls (.call c next) s s c
  | later {c c' : C} {next : R c → Program C R α} {r : R c} {s s' s'' : σ}
      (hs : step s c r s') (hc : Calls (next r) s' s'' c') : Calls (.call c next) s s'' c'

variable {step} {p : Program C R α} {s s' : σ} {a : α} {c : C}

/-- **Termination.** A program returns if its environment always answers. -/
theorem exec_total (hstep : ∀ s c, ∃ r s', step s c r s') (p : Program C R α) (s : σ) :
    ∃ a s', Exec step p s a s' := by
  induction p generalizing s with
  | pure a => exact ⟨a, s, .pure⟩
  | call c next ih =>
    obtain ⟨r, s', hs⟩ := hstep s c
    obtain ⟨a, s'', hr⟩ := ih r s'
    exact ⟨a, s'', .call hs hr⟩

/-- No call is its own continuation. -/
lemma next_ne {c : C} (next : R c → Program C R α) (r : R c) : next r ≠ call c next := by
  have h : ∀ (p : Program C R α) (c : C) (next : R c → Program C R α) (r : R c),
      p = call c next → next r ≠ p := by
    intro p
    induction p with
    | pure a =>
      intro c next r hp
      cases hp
    | call c' next' ih =>
      intro c next r hp hnext
      injection hp with hc hn
      subst hc
      obtain rfl := eq_of_heq hn
      exact ih r c' next' r hnext rfl
  exact h _ c next r rfl

/-! ## Calls within bounds -/

section Within

variable {ok : σ → C → Prop}

/-- **Soundness, call by call.** -/
theorem Within.of_calls {Q : α → σ → Prop} (hp : Within step ok Q p s)
    (hc : Calls step p s s' c) : ok s' c := by
  induction hc with
  | here => exact hp.1
  | later hs _ ih => exact ih (hp.2 _ _ hs)

/-- **Soundness, at the end.** -/
theorem Within.of_exec {Q : α → σ → Prop} (hp : Within step ok Q p s)
    (hr : Exec step p s a s') : Q a s' := by
  induction hr with
  | pure => exact hp
  | call hs _ ih => exact ih (hp.2 _ _ hs)

/-- **The rule of composition**, within bounds. -/
theorem within_bind {Q : β → σ → Prop} {f : α → Program C R β} :
    Within step ok Q (p >>= f) s ↔
      Within step ok (fun a s => Within step ok Q (f a) s) p s := by
  induction p generalizing s with
  | pure a => exact Iff.rfl
  | call c next ih =>
    exact and_congr_right fun _ =>
      forall_congr' fun r => forall_congr' fun s' => imp_congr_right fun _ => ih r

/-- **The rule of calls**, within bounds. -/
theorem within_perform_bind {Q : α → σ → Prop} {f : R c → Program C R α} :
    Within step ok Q (perform c >>= f) s ↔
      ok s c ∧ ∀ r s', step s c r s' → Within step ok Q (f r) s' := Iff.rfl

/-- **The rule of consequence**, within bounds. -/
theorem Within.imp {P Q : α → σ → Prop} (hp : Within step ok P p s) (h : ∀ a s, P a s → Q a s) :
    Within step ok Q p s := by
  induction p generalizing s with
  | pure a => exact h a s hp
  | call c next ih => exact ⟨hp.1, fun r s' hs => ih r (hp.2 r s' hs)⟩

/-- **What the allowed calls keep** still holds at the end. -/
theorem Within.and_invariant {I : σ → Prop}
    (hI : ∀ s c r s', ok s c → step s c r s' → I s → I s') {Q : α → σ → Prop}
    (hp : Within step ok Q p s) (hs : I s) : Within step ok (fun a s => Q a s ∧ I s) p s := by
  induction p generalizing s with
  | pure a => exact ⟨hp, hs⟩
  | call c next ih =>
    exact ⟨hp.1, fun r s' hstep => ih r (hp.2 r s' hstep) (hI s c r s' hp.1 hstep hs)⟩

/-- **What the allowed calls keep** holds wherever a call is made. -/
theorem Within.invariant_of_calls {I : σ → Prop}
    (hI : ∀ s c r s', ok s c → step s c r s' → I s → I s') {Q : α → σ → Prop}
    (hp : Within step ok Q p s) (hs : I s) (hc : Calls step p s s' c) : I s' := by
  induction hc with
  | here => exact hs
  | later hstep _ ih => exact ih (hp.2 _ _ hstep) (hI _ _ _ _ hp.1 hstep hs)

end Within

/-! ## Weakest preconditions -/

/-- Where every call is allowed, only the end matters. -/
lemma after_iff_within {Q : α → σ → Prop} :
    After step Q p s ↔ Within step (fun _ _ => True) Q p s := by
  induction p generalizing s with
  | pure a => exact Iff.rfl
  | call c next ih =>
    rw [After, Within, true_and]
    exact forall_congr' fun r => forall_congr' fun s' => imp_congr_right fun _ => ih r

/-- **Soundness.** -/
theorem After.of_exec {Q : α → σ → Prop} (hp : After step Q p s) (hr : Exec step p s a s') :
    Q a s' := (after_iff_within.mp hp).of_exec hr

/-- **The rule of composition.** -/
theorem after_bind {Q : β → σ → Prop} {f : α → Program C R β} :
    After step Q (p >>= f) s ↔ After step (fun a s => After step Q (f a) s) p s := by
  simp only [after_iff_within]
  exact within_bind

/-- **The rule of consequence.** -/
theorem After.imp {P Q : α → σ → Prop} (hp : After step P p s) (h : ∀ a s, P a s → Q a s) :
    After step Q p s := after_iff_within.mpr ((after_iff_within.mp hp).imp h)

/-- **The rule of a quiet end.** If every call may get an answer that keeps a preorder, then what
holds whenever a program returns holds of a state that is above the one it starts in. -/
theorem After.exists_end {Q : α → σ → Prop} {L : σ → σ → Prop} (hrefl : ∀ s, L s s)
    (htrans : ∀ s s' s'', L s s' → L s' s'' → L s s'')
    (hstep : ∀ s c, ∃ r s', step s c r s' ∧ L s s') (hp : After step Q p s) :
    ∃ a s', Q a s' ∧ L s s' := by
  induction p generalizing s with
  | pure a => exact ⟨a, s, hp, hrefl s⟩
  | call c next ih =>
    obtain ⟨r, s', hs, hle⟩ := hstep s c
    obtain ⟨a, s'', hQ, hle'⟩ := ih r (hp r s' hs)
    exact ⟨a, s'', hQ, htrans s s' s'' hle hle'⟩

/-! ## Budgets -/

/-- A call takes one unit of a budget. -/
def Spend (n : ℕ) (c : C) (_ : R c) (n' : ℕ) : Prop := n = n' + 1

/-- A program makes at most `k` calls: with any budget from `k` on it always has a unit for the
next call, and leaves the rest. -/
def Costs (k : ℕ) (p : Program C R α) : Prop :=
  ∀ n, Within Spend (fun n _ => 0 < n) (fun _ n' => n ≤ n') p (n + k)

/-- A return costs nothing. -/
lemma costs_pure (a : α) : Costs 0 (.pure a : Program C R α) := fun _ => le_rfl

/-- A single call costs one. -/
lemma costs_perform (c : C) : Costs 1 (perform c : Program C R (R c)) := by
  refine fun n => ⟨Nat.succ_pos n, ?_⟩
  rintro r n' h
  exact (Nat.succ.inj h).le

/-- One program after the other costs the sum. -/
lemma Costs.bind {k l : ℕ} {f : α → Program C R β} (hp : Costs k p) (hf : ∀ a, Costs l (f a)) :
    Costs (k + l) (p >>= f) := by
  intro n
  have hassoc : n + (k + l) = n + l + k := by omega
  rw [within_bind, hassoc]
  refine (hp (n + l)).imp fun a n' hle => ?_
  obtain ⟨d, rfl⟩ := Nat.exists_eq_add_of_le hle
  have hsum : n + l + d = n + d + l := by omega
  rw [hsum]
  exact (hf a (n + d)).imp fun _ _ h => Nat.le_trans (Nat.le_add_right n d) h

/-- A larger budget does as well. -/
lemma Costs.mono {k l : ℕ} (hp : Costs k p) (hle : k ≤ l) : Costs l p := by
  intro n
  obtain ⟨d, rfl⟩ := Nat.exists_eq_add_of_le hle
  have hsum : n + (k + d) = n + d + k := by omega
  rw [hsum]
  exact (hp (n + d)).imp fun _ _ h => Nat.le_trans (Nat.le_add_right n d) h

/-- A call leaves a program that costs less. -/
lemma Costs.of_call {k : ℕ} {next : R c → Program C R α} (h : Costs k (.call c next)) (r : R c) :
    ∃ l, k = l + 1 ∧ Costs l (next r) := by
  obtain ⟨l, rfl⟩ : ∃ l, k = l + 1 := Nat.exists_eq_succ_of_ne_zero (by have := (h 0).1; omega)
  exact ⟨l, rfl, fun n => (h n).2 r (n + l) rfl⟩

end Program
