import Hotpath.Executor.StopSpec

set_option relaxedAutoImplicit false
set_option autoImplicit false

/-!
# When the server stops serving

`serve_one_connection` returns false, and `serve_forever` returns with it, once the server was
asked to stop. It does so as well when `poll` or `accept` fails with an error other than `EINTR`,
which a peer or a full table of descriptors can bring about.

## Main definitions

* `Hotpath.Executor.ReturnedUnasked`, `Hotpath.Executor.GivesUp`.

## Main results

* `Hotpath.Executor.keeps_serving_iff` — the server returns unasked exactly if it gives up.
-/

namespace Hotpath

open System
open Utf8 (bytes)

variable {F ι : Type}

namespace Executor

/-- `serve_forever` has returned and `stop` was not called. -/
def ReturnedUnasked (s : Executor F ι) : Prop :=
  s.control = .returned ∧ ∀ i, s.stoppers i = .idle

/-- While the flag is not set, `poll` fails with an error other than `EINTR`, or the check behind
an `accept` that failed with one is made. -/
def GivesUp (p : Executor F ι × ServerAction ι) : Prop :=
  p.1.server.stopping = false ∧
    (p.2 = .poll .failed ∨ p.1.control = .acceptFailed false ∧ p.2 = .serve)

variable [DecidableEq ι] [Double F] [CharConv F]

/-- What is known of a request to stop: it is the store of a caller, and the wake pipe and a
`poll` that found it readable tell of one. -/
structure Asked (s : Executor F ι) : Prop where
  stored : s.server.stopping = true → ∃ i, s.stoppers i ≠ .idle
  rung : 0 < s.pipe → s.server.stopping = true
  woken : ∀ listening, s.control = .polled true listening → s.server.stopping = true

/-- A step to the end of `serve_forever` is one the server gives up with, or follows a request. -/
lemma Step.returns {s s' : Executor F ι} {a : ServerAction ι} (hs : Step s a s')
    (hc' : s'.control = .returned) :
    s.control = .returned ∨ s.server.stopping = true ∨ s.descriptors.listenFd < 0 ∨
      (∃ listening, s.control = .polled true listening) ∨ GivesUp (s, a) := by
  cases hstopping : s.server.stopping with
  | true => exact Or.inr (Or.inl rfl)
  | false =>
    cases hs with
    | start hc =>
      simp only [hstopping, Bool.false_eq_true, false_or] at hc'
      split_ifs at hc' with h
      exact Or.inr (Or.inr (Or.inl h))
    | pollFailed _ => exact Or.inr (Or.inr (Or.inr (Or.inr ⟨hstopping, Or.inl rfl⟩)))
    | pollAgain _ => simp [hstopping] at hc'
    | @polled woken listening hc =>
      cases woken with
      | true => exact Or.inr (Or.inr (Or.inr (Or.inl ⟨listening, hc⟩)))
      | false =>
        simp only [hstopping, Bool.false_eq_true, or_self, if_false] at hc'
        split_ifs at hc'
    | @acceptReturn interrupted hc =>
      cases interrupted with
      | true => simp [hstopping] at hc'
      | false => exact Or.inr (Or.inr (Or.inr (Or.inr ⟨hstopping, Or.inr ⟨hc, rfl⟩⟩)))
    | finish _ => simp [hstopping] at hc'
    | stopStore _ => exact Or.inl hc'
    | stopWrite _ => exact Or.inl hc'
    | stopLoad _ => exact Or.inl hc'
    | stopShutdown _ => exact Or.inl hc'
    | _ => cases hc'

/-- A step into a woken `poll` finds a byte in the pipe, or is none of the serving thread. -/
lemma Step.wakes {s s' : Executor F ι} {a : ServerAction ι} (hs : Step s a s') {listening : Bool}
    (hc' : s'.control = .polled true listening) :
    0 < s.pipe ∨ s.control = .polled true listening := by
  cases hs with
  | start _ => simp only at hc'; split_ifs at hc'
  | poll _ listening =>
    left
    have := (Control.polled.inj hc').1
    exact (by simpa using this : _ ∧ 0 < s.pipe).2
  | pollAgain _ => simp only at hc'; split_ifs at hc'
  | polled _ => simp only at hc'; split_ifs at hc'
  | acceptReturn _ => simp only at hc'; split_ifs at hc'
  | finish _ => simp only at hc'; split_ifs at hc'
  | stopStore _ => exact Or.inr hc'
  | stopWrite _ => exact Or.inr hc'
  | stopLoad _ => exact Or.inr hc'
  | stopShutdown _ => exact Or.inr hc'
  | _ => cases hc'

/-- A caller of `stop` that takes a step has called it. -/
lemma Step.called {s s' : Executor F ι} {i : ι} (hs : Step s (.stop i) s') :
    s'.stoppers i ≠ .idle := by
  have hmoved : ∀ {t : Executor F ι} {at' : Stopper}, at' ≠ .idle →
      (t.stopper i at').stoppers i ≠ .idle := by
    intro t at' hat
    rw [show (t.stopper i at').stoppers i = at' from Function.update_self _ _ _]
    exact hat
  cases hs with
  | stopStore _ => exact hmoved (by rintro ⟨⟩)
  | stopWrite _ => exact hmoved (by rintro ⟨⟩)
  | stopLoad _ =>
    apply hmoved
    split_ifs <;> rintro ⟨⟩
  | stopShutdown _ => exact hmoved (by rintro ⟨⟩)

/-- Every step keeps what is known of a request. -/
lemma Asked.step {s s' : Executor F ι} {a : ServerAction ι} (h : Asked s) (hsignals : Signals s)
    (hs : Step s a s') : Asked s' := by
  have hstopping : s.server.stopping = true → s'.server.stopping = true := fun h => (hs.last h).1
  have hwoken : ∀ listening, s'.control = .polled true listening →
      s'.server.stopping = true := by
    intro listening hc'
    rcases hs.wakes hc' with hpipe | hc
    · exact hstopping (h.rung hpipe)
    · exact hstopping (h.woken listening hc)
  rcases hs.moves with ⟨i, rfl⟩ | ⟨-, hsame⟩
  swap
  · refine ⟨?_, ?_, hwoken⟩
    · rw [hsame.stopping, hsame.stoppers]
      exact h.stored
    · rw [hsame.stopping, hsame.pipe]
      exact h.rung
  have hcalled : s'.server.stopping = true → ∃ j, s'.stoppers j ≠ .idle := fun _ => ⟨i, hs.called⟩
  cases hs with
  | stopStore _ => exact ⟨hcalled, fun _ => rfl, hwoken⟩
  | stopWrite hi =>
    refine ⟨hcalled, fun _ => ?_, hwoken⟩
    show s.server.stopping = true
    by_contra hflag
    have := hsignals.idle (by simpa using hflag) i
    rw [hi] at this
    cases this
  | stopLoad _ => exact ⟨hcalled, h.rung, hwoken⟩
  | stopShutdown _ => exact ⟨hcalled, h.rung, hwoken⟩

/-- What is known of a request holds in all runs of a server that was made to listen. -/
lemma asked {killSwitch : Option KillSwitch} {dispatch recordWakeRecv : Bool} {d : Descriptors}
    (hd : d.Open) {h : List (Executor F ι × ServerAction ι)} {s : Executor F ι}
    (hr : Run Step (new (ExecutorServer.new killSwitch dispatch recordWakeRecv) d) h s) :
    Asked s := by
  refine hr.history_invariant (I := fun _ s => Asked s) ?_ ?_
  · exact ⟨by rintro ⟨⟩, by rintro ⟨⟩, by rintro _ ⟨⟩⟩
  · intro _ s a s' hr' hI hs
    exact hI.step (signals hd hr') hs

/-- A step with which the server gives up leaves it returned unasked. -/
lemma GivesUp.returnedUnasked {s s' : Executor F ι} {a : ServerAction ι} (h : GivesUp (s, a))
    (hsignals : Signals s) (hs : Step s a s') : ReturnedUnasked s' := by
  obtain ⟨hstopping, h⟩ := h
  have hidle := hsignals.idle hstopping
  have hreturned : s'.control = .returned := by
    rcases h with rfl | ⟨hc, rfl⟩
    · cases hs with
      | pollFailed _ => rfl
    · simp only at hc
      cases hs with
      | acceptReturn hc' =>
        rw [hc] at hc'
        cases hc'
        simp
      | _ => simp_all only [reduceCtorEq]
  refine ⟨hreturned, fun i => ?_⟩
  rcases hs.moves with ⟨j, rfl⟩ | ⟨-, hsame⟩
  · rcases h with h | ⟨-, h⟩ <;> cases h
  · rw [hsame.stoppers]
    exact hidle i

/-- A step to a state returned unasked is one the server gives up with, or starts in one. -/
lemma Step.givesUp {s s' : Executor F ι} {a : ServerAction ι} (hs : Step s a s')
    (hsignals : Signals s) (hasked : Asked s) (h' : ReturnedUnasked s') :
    ReturnedUnasked s ∨ GivesUp (s, a) := by
  have hidle : ∀ i, s.stoppers i = .idle := by
    rcases hs.moves with ⟨i, rfl⟩ | ⟨-, hsame⟩
    · exact absurd (h'.2 i) hs.called
    · exact hsame.stoppers ▸ h'.2
  have hflag : ¬ s.server.stopping = true := by
    intro hflag
    obtain ⟨i, hi⟩ := hasked.stored hflag
    exact hi (hidle i)
  rcases hs.returns h'.1 with hc | hstopping | hfd | ⟨listening, hc⟩ | hgives
  · exact Or.inl ⟨hc, hidle⟩
  · exact absurd hstopping hflag
  · have := hsignals.opened.1
    omega
  · exact absurd (hasked.woken listening hc) hflag
  · exact Or.inr hgives

/-- **The server keeps serving until it is asked to stop or gives up.** In a run after a
successful `listen`, however the system calls and the peers behave, `serve_forever` has returned
in no state before a call of `stop` if and only if the server never gave up. -/
theorem keeps_serving_iff {path : Bytes} {calls : ListenCalls} {d : Descriptors}
    (hlisten : Descriptors.closed.listen path calls = (none, d)) {killSwitch : Option KillSwitch}
    {dispatch recordWakeRecv : Bool} {h : List (Executor F ι × ServerAction ι)} {s : Executor F ι}
    (hr : Run Step (new (ExecutorServer.new killSwitch dispatch recordWakeRecv) d) h s) :
    ((∀ p ∈ h, ¬ p.1.ReturnedUnasked) ∧ ¬ s.ReturnedUnasked) ↔ ∀ p ∈ h, ¬ GivesUp p := by
  have hd := Descriptors.open_of_listen hlisten
  refine hr.history_invariant (I := fun h s =>
    ((∀ p ∈ h, ¬ p.1.ReturnedUnasked) ∧ ¬ s.ReturnedUnasked) ↔ ∀ p ∈ h, ¬ GivesUp p) ?_ ?_
  · refine ⟨fun _ => by simp, fun _ => ⟨by simp, ?_⟩⟩
    rintro ⟨hc, -⟩
    cases hc
  · intro h s a s' hr' ih hs
    have hsignals := signals hd hr'
    rw [List.forall_mem_append, List.forall_mem_append, List.forall_mem_singleton,
      List.forall_mem_singleton, ih, and_congr_right_iff]
    intro hnone
    have hs₀ : ¬ s.ReturnedUnasked := (ih.mpr hnone).2
    constructor
    · exact fun hs' hgives => hs' (hgives.returnedUnasked hsignals hs)
    · intro hgives hs'
      rcases hs.givesUp hsignals (asked hd hr') hs' with h | h
      · exact hs₀ h
      · exact hgives h

/-- A server whose `accept` is interrupted and which is asked to stop afterwards does not give up,
and returns asked. -/
theorem keeps_serving_interrupted :
    ∃ (h : List (Executor ℚ Unit × ServerAction Unit)) (s : Executor ℚ Unit),
      Run Step (new (ExecutorServer.new none true true) ⟨3, 4, 5⟩) h s ∧
        s.control = .returned ∧ ¬ s.ReturnedUnasked := by
  have hlisten := Descriptors.closed.listen_ok
    (show (bytes "executor.sock").length < kSunPathBytes by decide) 4 5 3
  obtain ⟨h, s, hr, hreturned, hgives⟩ : ∃ (h : List (Executor ℚ Unit × ServerAction Unit))
      (s : Executor ℚ Unit), Run Step (new (ExecutorServer.new none true true) ⟨3, 4, 5⟩) h s ∧
        s.control = .returned ∧ ∀ p ∈ h, ¬ GivesUp p := by
    refine ⟨_, _, Run.cons (.start rfl) (Run.cons (.poll rfl true) (Run.cons (.polled rfl)
      (Run.cons (.acceptInterrupted rfl) (Run.cons (.acceptReturn rfl)
        (Run.cons (.stopStore (i := ()) rfl) (Run.cons (.start rfl) Run.nil)))))), rfl, ?_⟩
    simp [GivesUp, new, ExecutorServer.new, stopper]
  exact ⟨h, s, hr, hreturned, ((keeps_serving_iff hlisten hr).mpr hgives).2⟩

/-- The server returns unasked at the first connection that `accept` fails to hand out, say for
want of a descriptor. -/
theorem returned_unasked : ∃ (path : Bytes) (calls : ListenCalls) (d : Descriptors)
    (h : List (Executor ℚ Unit × ServerAction Unit)) (s : Executor ℚ Unit),
    Descriptors.closed.listen path calls = (none, d) ∧
      Run Step (new (ExecutorServer.new none true true) d) h s ∧
      s.control = .returned ∧ s.stoppers () = .idle := by
  have hlisten := Descriptors.closed.listen_ok
    (show (bytes "executor.sock").length < kSunPathBytes by decide) 4 5 3
  exact ⟨_, _, _, _, _, hlisten, Run.cons (.start rfl) (Run.cons (.poll rfl true)
    (Run.cons (.polled rfl) (Run.cons (.acceptFailed rfl) (Run.cons (.acceptReturn rfl)
      Run.nil)))), rfl, rfl⟩

end Executor

end Hotpath
