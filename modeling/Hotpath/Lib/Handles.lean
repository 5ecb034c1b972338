import Mathlib.Logic.Function.Basic
import Mathlib.Data.List.Perm.Basic
import Mathlib.Data.List.Nodup

set_option relaxedAutoImplicit false
set_option autoImplicit false

/-!
# Handles to resources

An environment makes resources for its callers and hands out handles to them, such as pointers or
descriptors. A handle is in use until its resource is given back, and may be handed out again after
that, so giving a resource back twice may destroy one of somebody else. What a caller owns is told
against the table of the handles that were in use before it began.

## Main definitions

* `Handles` — the table of the handles in use, with what each stands for.
* `Handles.Owns` — what is in use is what was before and, apart from that, the listed resources.

## Main results

* `Handles.Owns.alloc`, `Handles.Owns.free`, `Handles.Owns.set` — the three ways a table changes.
* `Handles.owns_nil` — a caller that owns nothing has left the table as it was.
-/

/-- The table of the handles in use, with what each stands for. -/
abbrev Handles (H O : Type) : Type := H → Option O

namespace Handles

variable {H O : Type}

/-- What is in use is what was before and, apart from that, the listed resources. -/
structure Owns (base t : Handles H O) (hs : List (H × O)) : Prop where
  nodup : (hs.map Prod.fst).Nodup
  fresh : ∀ p ∈ hs, base p.1 = none
  live : ∀ p ∈ hs, t p.1 = some p.2
  frame : ∀ h, h ∉ hs.map Prod.fst → t h = base h

variable {base t : Handles H O} {hs hs' : List (H × O)} {h : H} {o o' : O}

/-- **Nothing owned** is nothing changed. -/
@[simp]
theorem owns_nil : Owns base t [] ↔ t = base := by
  constructor
  · intro hown
    funext h
    exact hown.frame h List.not_mem_nil
  · rintro rfl
    exact ⟨List.nodup_nil, by simp, by simp, fun h _ => rfl⟩

/-- The order of the list does not matter. -/
lemma Owns.perm (hown : Owns base t hs) (hp : hs.Perm hs') : Owns base t hs' where
  nodup := (hp.map Prod.fst).nodup_iff.mp hown.nodup
  fresh p hmem := hown.fresh p (hp.mem_iff.mpr hmem)
  live p hmem := hown.live p (hp.mem_iff.mpr hmem)
  frame h hnot := hown.frame h fun hmem => hnot ((hp.map Prod.fst).mem_iff.mp hmem)

/-- The first of the listed resources is in use. -/
lemma Owns.head (hown : Owns base t ((h, o) :: hs)) : t h = some o := hown.live (h, o) (by simp)

/-- A handle that is not listed is none of the listed. -/
private lemma ne_of_not_mem {p : H × O} (hnot : h ∉ hs.map Prod.fst) (hp : p ∈ hs) : p.1 ≠ h := by
  rintro rfl
  exact hnot (List.mem_map.mpr ⟨p, hp, rfl⟩)

/-- A handle that is not in use is not one of the listed. -/
private lemma Owns.not_mem (hown : Owns base t hs) (hfree : t h = none) : h ∉ hs.map Prod.fst := by
  intro hmem
  obtain ⟨p, hp, rfl⟩ := List.mem_map.mp hmem
  have hlive := hown.live p hp
  rw [hfree] at hlive
  cases hlive

variable [DecidableEq H]

/-- **A new resource** is one more. -/
theorem Owns.alloc (hown : Owns base t hs) (hfree : t h = none) (o : O) :
    Owns base (Function.update t h (some o)) ((h, o) :: hs) := by
  have hnot := hown.not_mem hfree
  refine ⟨List.nodup_cons.mpr ⟨hnot, hown.nodup⟩, ?_, ?_, ?_⟩
  · intro p hp
    rcases List.mem_cons.mp hp with rfl | hp
    · rw [← hown.frame h hnot]
      exact hfree
    · exact hown.fresh p hp
  · intro p hp
    rcases List.mem_cons.mp hp with rfl | hp
    · exact Function.update_self ..
    · rw [Function.update_of_ne (ne_of_not_mem hnot hp)]
      exact hown.live p hp
  · intro k hk
    rw [List.map_cons, List.mem_cons, not_or] at hk
    rw [Function.update_of_ne hk.1]
    exact hown.frame k hk.2

/-- **A resource given back** is one less. -/
theorem Owns.free (hown : Owns base t ((h, o) :: hs)) :
    Owns base (Function.update t h none) hs := by
  obtain ⟨hnot, hnodup⟩ := List.nodup_cons.mp hown.nodup
  refine ⟨hnodup, ?_, ?_, ?_⟩
  · exact fun p hp => hown.fresh p (List.mem_cons_of_mem _ hp)
  · intro p hp
    rw [Function.update_of_ne (ne_of_not_mem hnot hp)]
    exact hown.live p (List.mem_cons_of_mem _ hp)
  · intro k hk
    by_cases hkh : k = h
    · subst hkh
      rw [Function.update_self, hown.fresh (k, o) (by simp)]
    · rw [Function.update_of_ne hkh]
      refine hown.frame k fun hmem => ?_
      rw [List.map_cons, List.mem_cons] at hmem
      exact hmem.elim hkh hk

/-- **A resource that becomes another** stays under its handle. -/
theorem Owns.set (hown : Owns base t ((h, o) :: hs)) (o' : O) :
    Owns base (Function.update t h (some o')) ((h, o') :: hs) := by
  have hfree := hown.free.alloc (h := h) (by rw [Function.update_self]) o'
  rwa [Function.update_idem] at hfree

end Handles
