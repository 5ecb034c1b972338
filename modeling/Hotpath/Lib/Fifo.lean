import Hotpath.Lib.System

set_option relaxedAutoImplicit false
set_option autoImplicit false

/-!
# Bounded queues

The sequential meaning of a bounded first-in first-out queue that refuses instead of waiting: a
push is accepted if there is room and refused if there is none, a pop takes the oldest value or
finds the queue empty.

## Main definitions

* `Fifo.Op` — a completed operation with its outcome.
* `Fifo.Step` — which operation may happen on which queue, and the queue after it.

## Main results

* `Fifo.pushed_eq` — the accepted values are the taken ones followed by the queue.
* `Fifo.length_le` — the queue is never longer than its capacity.
-/

namespace Fifo

variable {α : Type}

/-- An operation, with its outcome. -/
inductive Op (α : Type) where
  | push (value : α) (accepted : Bool)
  | pop (result : Option α)

namespace Op

/-- The value an operation puts into the queue. -/
def pushed : Op α → Option α
  | push value true => some value
  | _ => none

/-- The value an operation takes from the queue. -/
def popped : Op α → Option α
  | pop result => result
  | _ => none

end Op

/-- One operation on a queue of some capacity, oldest value first. -/
inductive Step (capacity : ℕ) : List α → Op α → List α → Prop
  | push {queue : List α} {value : α} (h : queue.length < capacity) :
      Step capacity queue (.push value true) (queue ++ [value])
  | full {queue : List α} {value : α} (h : queue.length = capacity) :
      Step capacity queue (.push value false) queue
  | pop {queue : List α} {value : α} : Step capacity (value :: queue) (.pop (some value)) queue
  | empty : Step capacity [] (.pop none) []

variable {capacity : ℕ} {h : List (List α × Op α)} {queue : List α}

/-- **First in, first out.** What was accepted is what was taken followed by what is still in the
queue. -/
theorem pushed_eq (hr : System.Run (Step capacity) [] h queue) :
    (h.map Prod.snd).filterMap Op.pushed = (h.map Prod.snd).filterMap Op.popped ++ queue := by
  induction hr with
  | nil => rfl
  | snoc _ hs ih =>
    rw [List.map_append, List.filterMap_append, List.filterMap_append, ih]
    cases hs <;> simp [List.filterMap_cons, Op.pushed, Op.popped]

/-- **Bounded**: a queue never holds more than its capacity. -/
theorem length_le (hr : System.Run (Step capacity) [] h queue) : queue.length ≤ capacity := by
  refine hr.invariant (I := fun queue => queue.length ≤ capacity) (Nat.zero_le _) ?_
  intro queue op queue' hle hs
  cases hs with
  | push h =>
    rw [List.length_append, List.length_singleton]
    omega
  | full _ => exact hle
  | pop => exact Nat.le_trans (Nat.le_succ _) hle
  | empty => exact hle

end Fifo
