import Mathlib.Data.Nat.Notation
import Mathlib.Logic.Relation

set_option relaxedAutoImplicit false
set_option autoImplicit false

/-!
# Loops with an explicit body

A `while (true)` loop is a body that, from a loop state, either leaves the loop with a result
or goes round again with a new state. Running it takes a bound on the number of iterations,
so that running is structural and evaluates; the two rules of this file remove the bound: a
loop whose body decreases a measure does return within that bound.

## Main definitions

* `Loop.Step` — the outcome of one iteration.
* `Loop.run` — the loop, cut off after a number of iterations.
* `Loop.Reaches` — one loop state is reached from another by whole iterations.

## Main results

* `Loop.run_total`, `Loop.run_of_cases` — the total correctness rule: an invariant and a
  decreasing measure.
* `Loop.run_eq_of_reaches`, `Loop.exists_done` — a loop answers what it answers from any state
  it reaches, and what an iteration answers that it reaches.
-/

namespace Loop

/-- The outcome of one iteration: leave with a result, or go round with a new state. -/
inductive Step (σ α : Type) where
  | done (result : α)
  | more (state : σ)

variable {σ α : Type}

/-- The loop with body `body`, cut off after `fuel` iterations. -/
def run (body : σ → Step σ α) : ℕ → σ → Option α
  | 0, _ => none
  | fuel + 1, s =>
    match body s with
    | .done a => some a
    | .more s' => run body fuel s'

variable (body : σ → Step σ α)

/-- One whole iteration of the loop leads from the first state to the second. -/
def Next (s s' : σ) : Prop := body s = .more s'

/-- Whole iterations of the loop lead from the first state to the second. -/
def Reaches : σ → σ → Prop := Relation.ReflTransGen (Next body)

variable {body}

/-- An iteration that leaves the loop ends the run. -/
lemma run_of_done {s : σ} {a : α} (h : body s = .done a) (n : ℕ) :
    run body (n + 1) s = some a := by
  simp [run, h]

/-- An iteration that goes round costs one unit of the bound. -/
lemma run_of_more {s s' : σ} (h : body s = .more s') (n : ℕ) :
    run body (n + 1) s = run body n s' := by
  simp [run, h]

/-- **Total correctness.** If the body keeps an invariant and decreases a measure whenever it
goes round, and leaves the loop only with results satisfying `Q`, then the loop returns a
result satisfying `Q` within any bound above the measure.

**Proof sketch.** Induction on the bound; an iteration that goes round lowers the measure, so
the bound one lower still suffices. -/
theorem run_total {I : σ → Prop} (μ : σ → ℕ) {Q : α → Prop}
    (hmore : ∀ s s', I s → body s = .more s' → I s' ∧ μ s' < μ s)
    (hdone : ∀ s a, I s → body s = .done a → Q a) :
    ∀ n s, I s → μ s < n → ∃ a, run body n s = some a ∧ Q a := by
  intro n
  induction n with
  | zero => intro s _ hn; omega
  | succ n ih =>
    intro s hs hn
    cases hb : body s with
    | done a => exact ⟨a, run_of_done hb n, hdone s a hs hb⟩
    | more s' =>
      obtain ⟨hs', hlt⟩ := hmore s s' hs hb
      obtain ⟨a, ha, hQ⟩ := ih s' hs' (by omega)
      exact ⟨a, by rw [run_of_more hb, ha], hQ⟩

/-- A loop that returns does so in an iteration that whole iterations lead to. -/
theorem exists_done {n : ℕ} {s : σ} {a : α} (h : run body n s = some a) :
    ∃ s', Reaches body s s' ∧ body s' = .done a := by
  induction n generalizing s with
  | zero => cases h
  | succ n ih =>
    cases hb : body s with
    | done b =>
      rw [run_of_done hb] at h
      obtain rfl := Option.some.inj h
      exact ⟨s, Relation.ReflTransGen.refl, hb⟩
    | more s₁ =>
      rw [run_of_more hb] at h
      obtain ⟨s', hs', hdone⟩ := ih h
      exact ⟨s', Relation.ReflTransGen.head hb hs', hdone⟩

/-- **Total correctness, by cases on one iteration**: it leaves with a result satisfying `Q`, or
goes round, keeps the invariant and decreases the measure. -/
theorem run_of_cases {I : σ → Prop} (μ : σ → ℕ) {Q : α → Prop}
    (h : ∀ s, I s → (∃ a, body s = .done a ∧ Q a) ∨
      ∃ s', body s = .more s' ∧ I s' ∧ μ s' < μ s)
    {n : ℕ} {s : σ} (hs : I s) (hn : μ s < n) : ∃ a, run body n s = some a ∧ Q a := by
  refine run_total μ ?_ ?_ n s hs hn
  · intro s s' hs hb
    rcases h s hs with ⟨a, ha, -⟩ | ⟨s'', hs'', hI⟩
    · rw [hb] at ha
      cases ha
    · rw [hb] at hs''
      cases hs''
      exact hI
  · intro s a hs hb
    rcases h s hs with ⟨a', ha', hQ⟩ | ⟨s', hs', -⟩
    · rw [hb] at ha'
      cases ha'
      exact hQ
    · rw [hb] at hs'
      cases hs'

/-- **The loop from a reached state.** If whole iterations lead from `s` to a state whose
iteration leaves the loop with `a`, and the body decreases a measure on the states satisfying
`I`, then the loop from `s` returns `a`.

**Proof sketch.** Induction on the iterations, from the front; each costs one unit of the
bound and lowers the measure by at least one. -/
theorem run_eq_of_reaches {I : σ → Prop} (μ : σ → ℕ)
    (hmore : ∀ s s', I s → body s = .more s' → I s' ∧ μ s' < μ s)
    {s s' : σ} {a : α} (hr : Reaches body s s') (hd : body s' = .done a) :
    ∀ n, I s → μ s < n → run body n s = some a := by
  induction hr using Relation.ReflTransGen.head_induction_on with
  | refl =>
    intro n _ hn
    obtain ⟨m, rfl⟩ : ∃ m, n = m + 1 := ⟨n - 1, by omega⟩
    exact run_of_done hd m
  | head h _ ih =>
    intro n hI hn
    obtain ⟨hI', hlt⟩ := hmore _ _ hI h
    obtain ⟨m, rfl⟩ : ∃ m, n = m + 1 := ⟨n - 1, by omega⟩
    rw [run_of_more h]
    exact ih m hI' (by omega)

end Loop
