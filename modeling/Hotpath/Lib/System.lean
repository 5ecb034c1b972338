import Hotpath.Lib.Loop
import Mathlib.Data.List.Basic
import Mathlib.Data.List.Forall2

set_option relaxedAutoImplicit false
set_option autoImplicit false

/-!
# Runs of a transition system

A system is a step relation between states, labelled with actions. A run keeps its history: the
actions taken, each with the state it was taken in, so that a statement can speak about what
held at the instants of a run. Two induction rules serve all runs, one for invariants of the
state and one for invariants that relate the state to the history.

## Main definitions

* `System.Run` — the runs from a state, with their history.
* `System.During` — what held at some instant of the time a history spent in certain states.

## Main results

* `System.Run.invariant`, `System.Run.history_invariant` — the two rules.
* `System.Run.grows` — what is only added to.
* `System.Run.since` — what has held since an instant of a run.
* `System.Run.of_append` — every beginning of a history is the history of a run.
* `System.Run.simulate` — a forward simulation carries a run over to another system.
* `System.Run.lockstep` — and if every step is matched by one, at related states throughout.
* `System.Run.project` — a part of the state carries a run over too.
* `System.Run.of_loop` — a loop is a run if each of its iterations is.
-/

namespace System

variable {σ α : Type} {step : σ → α → σ → Prop} {s₀ : σ}

/-- A run from `s₀` to a state, with the history of its actions: each one, in order, together
with the state it was taken in. -/
inductive Run (step : σ → α → σ → Prop) (s₀ : σ) : List (σ × α) → σ → Prop
  | nil : Run step s₀ [] s₀
  | snoc {h : List (σ × α)} {s s' : σ} {a : α} (hr : Run step s₀ h s) (hs : step s a s') :
      Run step s₀ (h ++ [(s, a)]) s'

/-- A run after a first action. -/
theorem Run.cons {s s' s'' : σ} {a : α} {h : List (σ × α)} (hs : step s a s')
    (hr : Run step s' h s'') : Run step s ((s, a) :: h) s'' := by
  induction hr with
  | nil => exact Run.snoc (h := []) Run.nil hs
  | snoc _ hs' ih => exact Run.snoc ih hs'

/-- A run whose actions are all of a kind is a run of the steps of this kind. -/
theorem Run.restrict {P : α → Prop} {h : List (σ × α)} {s : σ} (hr : Run step s₀ h s)
    (hP : ∀ p ∈ h, P p.2) : Run (fun s a s' => step s a s' ∧ P a) s₀ h s := by
  induction hr with
  | nil => exact .nil
  | @snoc h s s' a _ hs ih =>
    refine (ih fun p hp => hP p (List.mem_append_left _ hp)).snoc ⟨hs, ?_⟩
    exact hP (s, a) (List.mem_append_right _ (List.mem_singleton_self _))

/-- A run goes on with a run from where it ends. -/
theorem Run.append {s s' : σ} {h h' : List (σ × α)} (hr : Run step s₀ h s)
    (hr' : Run step s h' s') : Run step s₀ (h ++ h') s' := by
  induction hr' with
  | nil => rwa [List.append_nil]
  | snoc _ hs ih =>
    rw [← List.append_assoc]
    exact ih.snoc hs

/-- **The history rule.** A relation between histories and states holds at the end of every run
if it holds at its start and one more action keeps it. -/
theorem Run.history_invariant {I : List (σ × α) → σ → Prop} (hnil : I [] s₀)
    (hsnoc : ∀ h s a s', Run step s₀ h s → I h s → step s a s' → I (h ++ [(s, a)]) s')
    {h : List (σ × α)} {s : σ} (hr : Run step s₀ h s) : I h s := by
  induction hr with
  | nil => exact hnil
  | snoc hr hs ih => exact hsnoc _ _ _ _ hr ih hs

/-- **The invariant rule.** What holds at the start and is kept by every step holds at the end of
every run. -/
theorem Run.invariant {I : σ → Prop} (h₀ : I s₀) (hstep : ∀ s a s', I s → step s a s' → I s')
    {h : List (σ × α)} {s : σ} (hr : Run step s₀ h s) : I s :=
  hr.history_invariant (I := fun _ s => I s) h₀ fun _ s a s' _ hs hst => hstep s a s' hs hst

/-- **The rule of what grows.** What every step leaves or adds to at its end is left or added to
by every run. -/
theorem Run.grows {β : Type} (f : σ → List β)
    (hstep : ∀ s a s', step s a s' → ∃ l, f s' = f s ++ l) {h : List (σ × α)} {s : σ}
    (hr : Run step s₀ h s) : ∃ l, f s = f s₀ ++ l := by
  refine hr.invariant (I := fun s => ∃ l, f s = f s₀ ++ l) ⟨[], (List.append_nil _).symm⟩ ?_
  rintro s a s' ⟨l, hl⟩ hs
  obtain ⟨l', hl'⟩ := hstep s a s' hs
  exact ⟨l ++ l', by rw [hl', hl, List.append_assoc]⟩

/-- **The rule of what follows an instant.** What the action of an instant brings about and every
later step keeps holds of the instant and the end of the run. -/
theorem Run.since {P : σ × α → Prop} {J : σ × α → σ → Prop}
    (hfirst : ∀ h s a s', Run step s₀ h s → P (s, a) → step s a s' → J (s, a) s')
    (hnext : ∀ h p s a s', Run step s₀ h s → P p → J p s → step s a s' → J p s')
    {h : List (σ × α)} {s : σ} (hr : Run step s₀ h s) : ∀ p ∈ h, P p → J p s := by
  refine hr.history_invariant (I := fun h s => ∀ p ∈ h, P p → J p s) (by simp) ?_
  intro h s a s' hr ih hs p hp hP
  rcases List.mem_append.mp hp with hp | hp
  · exact hnext h p s a s' hr hP (ih p hp hP) hs
  · obtain rfl := List.mem_singleton.mp hp
    exact hfirst h s a s' hr hP hs

/-- A beginning of a history is the history of a run, to the state its next action was taken
in. -/
theorem Run.of_append {h₁ h₂ : List (σ × α)} {p : σ × α} {s : σ}
    (hr : Run step s₀ (h₁ ++ p :: h₂) s) : Run step s₀ h₁ p.1 := by
  generalize hh : h₁ ++ p :: h₂ = h at hr
  induction hr generalizing h₂ with
  | nil => simp at hh
  | @snoc h s s' a hr _ ih =>
    rcases List.eq_nil_or_concat h₂ with rfl | ⟨h₂', q, rfl⟩
    · obtain ⟨rfl, hp⟩ := List.append_inj' hh rfl
      obtain rfl := List.singleton_inj.mp hp
      exact hr
    · rw [List.concat_eq_append, ← List.cons_append, ← List.append_assoc] at hh
      obtain ⟨hh, -⟩ := List.append_inj' hh rfl
      exact ih hh

/-- **The simulation rule.** If every step is one of another system, on related states and with
the label that is observed of it, or is not observed and keeps the relation, then every run has a
run of the other system with the observed labels.

**Proof sketch.** Induction on the run, from its end. -/
theorem Run.simulate {τ β : Type} {step' : τ → β → τ → Prop} {t₀ : τ} {R : σ → τ → Prop}
    (obs : α → Option β) (h₀ : R s₀ t₀)
    (hsilent : ∀ s a s' t, R s t → step s a s' → obs a = none → R s' t)
    (hseen : ∀ s a s' t b, R s t → step s a s' → obs a = some b → ∃ t', step' t b t' ∧ R s' t')
    {h : List (σ × α)} {s : σ} (hr : Run step s₀ h s) :
    ∃ h' t, Run step' t₀ h' t ∧ R s t ∧ h'.map Prod.snd = h.filterMap (fun p => obs p.2) := by
  induction hr with
  | nil => exact ⟨[], t₀, Run.nil, h₀, rfl⟩
  | @snoc h s s' a _ hs ih =>
    obtain ⟨h', t, hr', hR, hlabels⟩ := ih
    obtain hobs | ⟨b, hobs⟩ : obs a = none ∨ ∃ b, obs a = some b := by
      cases obs a <;> simp
    · exact ⟨h', t, hr', hsilent s a s' t hR hs hobs, by simp [hlabels, hobs]⟩
    · obtain ⟨t', ht, hR'⟩ := hseen s a s' t b hR hs hobs
      exact ⟨h' ++ [(t, b)], t', hr'.snoc ht, hR', by simp [hlabels, hobs]⟩

/-- **The lockstep rule.** If every step is one of another system with the same label, from related
states to related states, then every run has a run of the other system with the same labels that
visits related states at the same instants.

**Proof sketch.** Induction on the run, from its end. -/
theorem Run.lockstep {τ : Type} {step' : τ → α → τ → Prop} {t₀ : τ} {R : σ → τ → Prop}
    (h₀ : R s₀ t₀)
    (hstep : ∀ s a s' t, R s t → step s a s' → ∃ t', step' t a t' ∧ R s' t')
    {h : List (σ × α)} {s : σ} (hr : Run step s₀ h s) :
    ∃ h' t, Run step' t₀ h' t ∧ List.Forall₂ (fun p q => R p.1 q.1 ∧ p.2 = q.2) h h' ∧ R s t := by
  induction hr with
  | nil => exact ⟨[], t₀, Run.nil, .nil, h₀⟩
  | @snoc h s s' a _ hs ih =>
    obtain ⟨h', t, hr', hrel, hR⟩ := ih
    obtain ⟨t', ht, hR'⟩ := hstep s a s' t hR hs
    exact ⟨h' ++ [(t, a)], t', hr'.snoc ht, List.rel_append hrel (.cons ⟨hR, rfl⟩ .nil), hR'⟩

/-- **The projection rule.** A part of the state that every step keeps, or changes by a step of
another system with the label that is observed, makes a run of that system. -/
theorem Run.project {τ β : Type} {step' : τ → β → τ → Prop} (f : σ → τ) (obs : α → Option β)
    (hstep : ∀ s a s', step s a s' →
      (obs a = none ∧ f s' = f s) ∨ ∃ b, obs a = some b ∧ step' (f s) b (f s'))
    {h : List (σ × α)} {s : σ} (hr : Run step s₀ h s) :
    Run step' (f s₀) (h.filterMap fun p => (obs p.2).map fun b => (f p.1, b)) (f s) := by
  induction hr with
  | nil => exact Run.nil
  | @snoc h s s' a _ hs ih =>
    rw [List.filterMap_append]
    rcases hstep s a s' hs with ⟨hobs, heq⟩ | ⟨b, hobs, hs'⟩
    · simpa [hobs, heq] using ih
    · simpa [hobs] using ih.snoc hs'

/-- **The rule of loops.** If every iteration of a loop is matched by a run of the system, from
related states to related states, then so is the loop, from its start to its result.

**Proof sketch.** Induction on the bound of the loop. -/
theorem Run.of_loop {β γ : Type} {body : β → Loop.Step β γ} {R : β → σ → Prop}
    {Q : γ → σ → Prop}
    (hbody : ∀ b s, R b s → (∃ c h s', body b = .done c ∧ Run step s h s' ∧ Q c s') ∨
      ∃ b' h s', body b = .more b' ∧ Run step s h s' ∧ R b' s')
    {n : ℕ} {b : β} {c : γ} {s : σ} (hR : R b s) (hrun : Loop.run body n b = some c) :
    ∃ h s', Run step s h s' ∧ Q c s' := by
  induction n generalizing b s with
  | zero => cases hrun
  | succ n ih =>
    rcases hbody b s hR with ⟨c', h, s', hdone, hr, hQ⟩ | ⟨b', h, s', hmore, hr, hR'⟩
    · rw [Loop.run_of_done hdone] at hrun
      obtain rfl := Option.some.inj hrun
      exact ⟨h, s', hr, hQ⟩
    · rw [Loop.run_of_more hmore] at hrun
      obtain ⟨h', s'', hr', hQ⟩ := ih hR' hrun
      exact ⟨h ++ h', s'', hr.append hr', hQ⟩

/-! ## Instants of a stretch of time -/

/-- At some instant of the last stretch of the history in which all states are `busy`, `P` holds
of the history up to it and the state. -/
def During (busy : σ → Prop) (P : List (σ × α) → σ → Prop) (h : List (σ × α)) : Prop :=
  ∃ h₁ p h₂, h = h₁ ++ p :: h₂ ∧ (∀ q ∈ p :: h₂, busy q.1) ∧ P h₁ p.1

/-- The last instant of a history is one. -/
lemma During.last {busy : σ → Prop} {P : List (σ × α) → σ → Prop} {h : List (σ × α)}
    {p : σ × α} (hbusy : busy p.1) (hP : P h p.1) : During busy P (h ++ [p]) :=
  ⟨h, p, [], rfl, by simpa using hbusy, hP⟩

/-- An instant stays one while the stretch goes on. -/
lemma During.snoc {busy : σ → Prop} {P : List (σ × α) → σ → Prop} {h : List (σ × α)}
    {p : σ × α} (hd : During busy P h) (hbusy : busy p.1) : During busy P (h ++ [p]) := by
  obtain ⟨h₁, q, h₂, rfl, hall, hP⟩ := hd
  refine ⟨h₁, q, h₂ ++ [p], by simp, fun r hr => ?_, hP⟩
  rcases List.mem_append.mp (show r ∈ (q :: h₂) ++ [p] from hr) with hr | hr
  · exact hall r hr
  · rwa [List.mem_singleton.mp hr]

/-- What holds of an instant of a run's history may use that a run leads to it. -/
lemma Run.during_imp {busy : σ → Prop} {P Q : List (σ × α) → σ → Prop} {h : List (σ × α)} {s : σ}
    (hr : Run step s₀ h s) (hd : During busy P h)
    (himp : ∀ h₁ s₁, Run step s₀ h₁ s₁ → P h₁ s₁ → Q h₁ s₁) : During busy Q h := by
  obtain ⟨h₁, p, h₂, rfl, hall, hP⟩ := hd
  exact ⟨h₁, p, h₂, rfl, hall, himp h₁ p.1 hr.of_append hP⟩

end System
