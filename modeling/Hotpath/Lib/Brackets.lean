import Mathlib.Data.List.Count
import Mathlib.Data.Nat.Notation
import Mathlib.Tactic.Lemma

set_option relaxedAutoImplicit false
set_option autoImplicit false

/-!
# Brackets

Texts over an alphabet with an opening and a closing bracket, counted. A balanced text ends where
its first bracket is closed: none is a prefix of a text that leaves its first bracket open.

## Main definitions

* `Brackets.Balanced` — as many closing as opening brackets.
* `Brackets.Nested` — no prefix closes more than it opens.

## Main results

* `Brackets.Nested.not_balanced` — a nested text after an opening bracket never closes it.
-/

namespace Brackets

variable {α : Type} [DecidableEq α] {o c : α} {l l' : List α}

/-- There are as many closing brackets as opening ones. -/
def Balanced (o c : α) (l : List α) : Prop := l.count c = l.count o

/-- In every prefix there are at most as many closing brackets as opening ones. -/
def Nested (o c : α) (l : List α) : Prop := ∀ q, q <+: l → q.count c ≤ q.count o

/-! ## Balanced texts -/

/-- A text without brackets is balanced. -/
lemma balanced_of_not_mem (ho : o ∉ l) (hc : c ∉ l) : Balanced o c l := by
  rw [Balanced, List.count_eq_zero_of_not_mem ho, List.count_eq_zero_of_not_mem hc]

/-- Balanced texts concatenate. -/
lemma Balanced.append (h : Balanced o c l) (h' : Balanced o c l') : Balanced o c (l ++ l') := by
  unfold Balanced at *
  rw [List.count_append, List.count_append, h, h']

/-- A balanced text in brackets is balanced. -/
lemma Balanced.wrap (hoc : o ≠ c) (h : Balanced o c l) : Balanced o c (o :: (l ++ [c])) := by
  unfold Balanced at *
  rw [List.count_cons_of_ne hoc, List.count_cons_self, List.count_append, List.count_append,
    List.count_singleton_self, List.count_eq_zero_of_not_mem (l := [c]) (by simpa using hoc), h,
    Nat.add_zero]

/-! ## Nested texts -/

/-- A text without closing brackets is nested. -/
lemma nested_of_not_mem (hc : c ∉ l) : Nested o c l := by
  intro q hq
  have hcount : q.count c = 0 := List.count_eq_zero_of_not_mem fun h => hc (hq.subset h)
  omega

/-- Nested texts concatenate. -/
lemma Nested.append (h : Nested o c l) (h' : Nested o c l') : Nested o c (l ++ l') := by
  rintro q ⟨t, ht⟩
  rcases List.append_eq_append_iff.mp ht with ⟨u, hl, -⟩ | ⟨u, rfl, hl'⟩
  · exact h q ⟨u, hl.symm⟩
  · have hleft := h l (List.prefix_refl l)
    have hright := h' u ⟨t, hl'.symm⟩
    rw [List.count_append, List.count_append]
    omega

/-- A text without closing brackets, in brackets, is nested. -/
lemma nested_wrap (hoc : o ≠ c) (hc : c ∉ l) : Nested o c (o :: (l ++ [c])) := by
  intro q hq
  cases q with
  | nil => simp
  | cons x q =>
    obtain ⟨rfl, htail⟩ := List.cons_prefix_cons.mp hq
    have hle := htail.count_le c
    rw [List.count_append, List.count_eq_zero_of_not_mem hc, List.count_singleton_self] at hle
    rw [List.count_cons_of_ne hoc, List.count_cons_self]
    omega

/-- **A nested text never closes the bracket before it**: no prefix that has that bracket is
balanced. -/
theorem Nested.not_balanced (hoc : o ≠ c) (h : Nested o c l) {q : List α} (hq : o :: q <+: o :: l) :
    ¬ Balanced o c (o :: q) := by
  have hle := h q (List.cons_prefix_cons.mp hq).2
  intro hbalanced
  rw [Balanced, List.count_cons_of_ne hoc, List.count_cons_self] at hbalanced
  omega

end Brackets
