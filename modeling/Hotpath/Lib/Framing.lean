import Mathlib.Data.List.Infix

set_option relaxedAutoImplicit false
set_option autoImplicit false

/-!
# Words that delimit themselves

A stream of words can be taken apart without separators if no word is a proper beginning of
another. What a stream of such words has in common with one further word is then that word or
nothing.

## Main definitions

* `Framing.PrefixFree` — the words of a kind delimit themselves.

## Main results

* `Framing.PrefixFree.flatten_prefix`.
* `Framing.eq_of_flatten_eq` — how many words of a stream there are up to a point.
-/

namespace Framing

variable {α : Type} {P : List α → Prop}

/-- No word is empty, and none is a proper beginning of another. -/
structure PrefixFree (P : List α → Prop) : Prop where
  ne_nil : ∀ w, P w → w ≠ []
  eq_of_prefix : ∀ v w, P v → P w → v <+: w → v = w

/-- Words that together are the beginning of one word are that word, or none. -/
theorem PrefixFree.flatten_prefix (hP : PrefixFree P) {l : List (List α)} (hl : ∀ v ∈ l, P v)
    {w : List α} (hw : P w) (h : l.flatten <+: w) : l = [] ∨ l = [w] := by
  cases l with
  | nil => exact Or.inl rfl
  | cons v l =>
    right
    have hv := hl v (by simp)
    have hvw : v <+: w := (List.prefix_append v l.flatten).trans h
    obtain rfl := hP.eq_of_prefix v w hv hw hvw
    cases l with
    | nil => rfl
    | cons u l =>
      have hlen := h.length_le
      have hu := List.length_pos_iff.mpr (hP.ne_nil u (hl u (by simp)))
      simp only [List.flatten_cons, List.length_append] at hlen
      omega

/-- **A beginning of a stream is known by its letters**, if no word is empty. -/
theorem eq_of_flatten_eq {β : Type} {f : β → List α} {l₁ l₂ l₁' l₂' : List β}
    (heq : l₁ ++ l₂ = l₁' ++ l₂') (hne : ∀ b ∈ l₁ ++ l₂, f b ≠ [])
    (hflat : (l₁.map f).flatten = (l₁'.map f).flatten) : l₁ = l₁' := by
  -- one of them is a beginning of the other, and what it lacks has no letters
  have hnil : ∀ c : List β, (∀ b ∈ c, f b ≠ []) → (c.map f).flatten = [] → c = [] := by
    intro c hc hflat
    cases c with
    | nil => rfl
    | cons b c =>
      have hb := (List.append_eq_nil_iff.mp hflat).1
      exact absurd hb (hc b (by simp))
  rcases List.append_eq_append_iff.mp heq with ⟨c, rfl, rfl⟩ | ⟨c, rfl, rfl⟩
  · rw [List.map_append, List.flatten_append] at hflat
    rw [hnil c (fun b hb => hne b (by simp [hb])) (by simpa using hflat.symm), List.append_nil]
  · rw [List.map_append, List.flatten_append] at hflat
    rw [hnil c (fun b hb => hne b (by simp [hb])) (by simpa using hflat), List.append_nil]

end Framing
