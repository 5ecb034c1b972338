import Hotpath.Json.ScanString

set_option relaxedAutoImplicit false
set_option autoImplicit false

/-!
# Objects and arrays, level by level

The reader keeps one flag for each open container: whether its next item is the first. This
file follows a reader into a container, from item to item, and out of it. Nothing is said
about the flags of containers that are not open, and a reader leaves alone those of the
containers around the one it works in.

## Main definitions

* `Reader.Goes` — from one reader to another: the text consumed and the levels opened.
* `Reader.flag` — the flag of the innermost open container.
* `Reader.Inside` — inside a container, at its first item or a later one.

## Main results

* `Reader.nextElement_item`, `nextElement_close`, `nextElement_ok` — the items of an array.
* `Reader.nextMember_item`, `nextMember_close`, `nextMember_ok` — the members of an object.
-/

namespace Hotpath.Json

open JsonText
open Utf8 (bytes encode)

namespace Reader

/-- From `r`, the text `u` is consumed and `k` levels are opened, which leads to `r'`. The
flags of the levels open at `r` stay as they are. -/
structure Goes (r : Reader) (u : Bytes) (k : ℕ) (r' : Reader) : Prop where
  text : r'.text = r.text
  pos : r'.pos = r.pos + u.length
  rest : r.rest = u ++ r'.rest
  depth : r'.depth = r.depth + k
  first : ∀ i : Fin kMaxDepth, i.val < r.depth → r'.first i = r.first i

/-- The flag of the innermost open level. -/
def flag (r : Reader) : Bool :=
  if h : r.depth - 1 < kMaxDepth then r.first ⟨r.depth - 1, h⟩ else false

/-- Advancing is a way on the same level. -/
lemma goes_adv {r : Reader} {u t : Bytes} (h : r.rest = u ++ t) :
    r.Goes u 0 (r.adv u.length) :=
  ⟨rfl, rfl, by rw [rest_adv_of h, h], rfl, fun _ _ => rfl⟩

/-- Two ways in a row are a way. -/
lemma Goes.trans {r r' r'' : Reader} {u v : Bytes} {j k : ℕ} (h : r.Goes u j r')
    (h' : r'.Goes v k r'') : r.Goes (u ++ v) (j + k) r'' where
  text := h'.text.trans h.text
  pos := by rw [h'.pos, h.pos, List.length_append, Nat.add_assoc]
  rest := by rw [h.rest, h'.rest, List.append_assoc]
  depth := by rw [h'.depth, h.depth, Nat.add_assoc]
  first i hi := by rw [h'.first i (by rw [h.depth]; omega), h.first i hi]

/-- Two ways in a row on one level are a way on it. -/
lemma Goes.trans_zero {r r' r'' : Reader} {u v : Bytes} {k : ℕ} (h : r.Goes u k r')
    (h' : r'.Goes v 0 r'') : r.Goes (u ++ v) k r'' := h.trans h'

/-- The text left is what it was, less what was consumed. -/
lemma Goes.rest_of {r r' : Reader} {u t : Bytes} {k : ℕ} (h : r.Goes u k r')
    (hr : r.rest = u ++ t) : r'.rest = t := by
  have := h.rest
  rw [hr] at this
  exact (List.append_cancel_left this).symm

/-- The flag of an open level survives what happens inside it. -/
lemma Goes.flag_eq {r r' : Reader} {u : Bytes} (h : r.Goes u 0 r') (hd : 0 < r.depth) :
    r'.flag = r.flag := by
  have hdepth : r'.depth = r.depth := h.depth
  unfold flag
  rw [hdepth]
  split_ifs with hlt
  · exact h.first _ (by simp only; omega)
  · rfl

/-- Whitespace is skipped on the same level. -/
lemma goes_blank {r : Reader} {w t : Bytes} {c : UInt8} (h : r.rest = w ++ c :: t) :
    r.Goes w 0 (r.adv w.length) := goes_adv h

/-- Whitespace and a byte are passed on the same level. -/
lemma goes_byte {r : Reader} {w t : Bytes} {c : UInt8} (h : r.rest = w ++ c :: t) :
    r.Goes (w ++ [c]) 0 (r.adv (w.length + 1)) := by
  have := goes_adv (r := r) (u := w ++ [c]) (t := t) (by simp [h])
  rwa [List.length_append, List.length_singleton] at this

/-! ## Opening and closing -/

/-- A level is opened, its next item the first. -/
lemma pushLevel_of {r : Reader} (h : r.depth < kMaxDepth) :
    ∃ r', r.pushLevel = .ok r' ∧ r.Goes [] 1 r' ∧ r'.flag = true := by
  refine ⟨{ r with first := Function.update r.first ⟨r.depth, h⟩ true, depth := r.depth + 1 },
    by rw [pushLevel, if_neg (by omega), dif_pos h], ⟨rfl, rfl, rfl, rfl, ?_⟩, ?_⟩
  · intro i hi
    have hne : i ≠ ⟨r.depth, h⟩ := by
      rintro rfl
      simp at hi
    simp [Function.update_of_ne hne]
  · simp [flag, h]

/-- Opening a level fails legibly if at all. -/
lemma pushLevel_error {r : Reader} {f : Failure} (hd : r.depth ≤ kMaxDepth)
    (h : r.pushLevel = .error f) : f.Plain := by
  rw [pushLevel] at h
  split_ifs at h with h1 h2
  · exact plain_of_fail (by decide) h
  · omega

/-- A level is closed. -/
lemma popLevel_of {r₀ r : Reader} {u : Bytes} {k : ℕ} (h : r₀.Goes u (k + 1) r) :
    ∃ r', r.popLevel = .ok r' ∧ r₀.Goes u k r' := by
  have hd : r.depth = r₀.depth + k + 1 := h.depth
  refine ⟨{ r with depth := r₀.depth + k }, by rw [popLevel, hd], ?_⟩
  exact ⟨h.text, h.pos, h.rest, rfl, h.first⟩

/-- Inside a container: it was opened somewhere after `r₀`, over the text `c` since then, and
its next item is the first one or not. -/
structure Inside (r₀ : Reader) (c : Bytes) (first : Bool) (r : Reader) : Prop where
  goes : r₀.Goes c 1 r
  flag : r.flag = first
  room : r₀.depth < kMaxDepth

/-- An item's value, read inside a container, leaves the reader there. -/
lemma Inside.goes_on {r₀ r r' : Reader} {c u : Bytes} {b : Bool} (h : Inside r₀ c b r)
    (hg : r.Goes u 0 r') : Inside r₀ (c ++ u) b r' where
  goes := h.goes.trans_zero hg
  flag := by rw [hg.flag_eq (by have := h.goes.depth; omega), h.flag]
  room := h.room

/-- The opening bracket of a container. -/
lemma open_of {r : Reader} {w t : Bytes} {c : UInt8} (hr : r.rest = w ++ c :: t) (hw : Blank w)
    (hc : isSpace c = false) (hd : r.depth < kMaxDepth) :
    ∃ r', (r.expect c >>= pushLevel) = .ok r' ∧ Inside r (w ++ [c]) true r' := by
  obtain ⟨r', hr', hg, hf⟩ := pushLevel_of (r := r.adv (w.length + 1)) hd
  refine ⟨r', by rw [expect_of hr hw hc, ok_bind, hr'], ?_, hf, hd⟩
  simpa using (goes_byte hr).trans hg

/-- What opens a container is its bracket. -/
lemma open_ok {r r' : Reader} {c : UInt8} (h : (r.expect c >>= pushLevel) = .ok r') :
    ∃ w t, Blank w ∧ r.rest = w ++ c :: t ∧ Inside r (w ++ [c]) true r' := by
  obtain ⟨r₁, h₁, h₂⟩ := bind_eq_ok.mp h
  obtain ⟨w, t, hw, hr, rfl⟩ := expect_ok h₁
  have hd : r.depth < kMaxDepth := by
    rw [pushLevel] at h₂
    split_ifs at h₂ with h3 h4
    · simp at h₂
    · simpa using h4
  obtain ⟨r'', hr'', hg, hf⟩ := pushLevel_of (r := r.adv (w.length + 1)) hd
  rw [h₂] at hr''
  cases hr''
  exact ⟨w, t, hw, hr, by simpa using (goes_byte hr).trans hg, hf, hd⟩

/-- Opening a container fails legibly if at all. -/
lemma open_error {r : Reader} {c : UInt8} (hc : 0x20 ≤ c ∧ c < 0x7F) (hd : r.depth ≤ kMaxDepth)
    {f : Failure} (h : (r.expect c >>= pushLevel) = .error f) : f.Plain := by
  rcases bind_eq_error.mp h with h | ⟨r₁, h₁, h⟩
  · exact expect_error hc h
  · obtain ⟨w, t, -, -, rfl⟩ := expect_ok h₁
    exact pushLevel_error (by simpa using hd) h

/-! ## Separators -/

/-- The part of a lead that the container's own methods pass: the blanks before the first
item, or the comma and the blanks before it. -/
def LeadStart (first : Bool) (s : Bytes) : Prop :=
  if first then Blank s else ∃ w, Blank w ∧ s = w ++ [0x2C]

/-- A lead is its start and more blanks. -/
lemma lead_append {b : Bool} {s w : Bytes} (hs : LeadStart b s) (hw : Blank w) :
    Lead b (s ++ w) := by
  cases b with
  | true => exact Blank.append hs hw
  | false =>
    obtain ⟨w₀, hw₀, rfl⟩ := hs
    exact ⟨w₀, w, hw₀, hw, by simp⟩

/-- A lead splits into its start and more blanks, none of them before the first item. -/
lemma lead_split {b : Bool} {s : Bytes} (h : Lead b s) :
    ∃ s₁ w, s = s₁ ++ w ∧ LeadStart b s₁ ∧ Blank w ∧ (b = true → w = []) := by
  cases b with
  | true => exact ⟨s, [], by simp, h, blank_nil, fun _ => rfl⟩
  | false =>
    obtain ⟨w, w', hw, hw', rfl⟩ := h
    exact ⟨w ++ [0x2C], w', by simp, ⟨w, hw, rfl⟩, hw', by simp⟩

/-- The first item needs no separator. -/
private lemma separator_first {r₀ r : Reader} {c : Bytes} (h : Inside r₀ c true r) :
    ∃ r', r.separator = .ok r' ∧ Inside r₀ c false r' ∧ r'.rest = r.rest := by
  have hd : r.depth = r₀.depth + 1 := h.goes.depth
  have hlt := h.room
  have hfirst : r.first ⟨r₀.depth, hlt⟩ = true := by
    have := h.flag
    rw [flag] at this
    simpa [hd, hlt] using this
  refine ⟨{ r with first := Function.update r.first ⟨r₀.depth, hlt⟩ false }, ?_,
    ⟨⟨h.goes.text, h.goes.pos, h.goes.rest, hd, ?_⟩, ?_, hlt⟩, rfl⟩
  · rw [separator, hd]
    simp [hlt, hfirst]
  · intro i hi
    have hne : i ≠ ⟨r₀.depth, hlt⟩ := by
      rintro rfl
      simp at hi
    rw [← h.goes.first i hi]
    exact Function.update_of_ne hne _ _
  · simp [flag, hd, hlt]

/-- Every other item needs a comma. -/
private lemma separator_next {r₀ r : Reader} {c : Bytes} (h : Inside r₀ c false r) :
    r.separator = r.expect 0x2C := by
  have hd : r.depth = r₀.depth + 1 := h.goes.depth
  have hlt := h.room
  have hfirst : r.first ⟨r₀.depth, hlt⟩ = false := by
    have := h.flag
    rw [flag] at this
    simpa [hd, hlt] using this
  rw [separator, hd]
  simp [hlt, hfirst]

/-- **An item begins.** On the start of a lead, the container's method finds a byte other than
the closing bracket and passes the separator. -/
private lemma separator_of {r₀ r : Reader} {c s t : Bytes} {b : Bool} {close : UInt8}
    (h : Inside r₀ c b r) (hr : r.rest = s ++ t) (hs : LeadStart b s) (hclose : close ≠ 0x2C)
    (ht : b = true → ∃ x u, t = x :: u ∧ isSpace x = false ∧ x ≠ close) :
    ∃ d r₁ r', r.peek = (some d, r₁) ∧ d ≠ close ∧ r₁.separator = .ok r' ∧
      Inside r₀ (c ++ s) false r' := by
  cases b with
  | true =>
    obtain ⟨x, u, rfl, hx, hne⟩ := ht rfl
    obtain ⟨r', hr', hin, -⟩ := separator_first (h.goes_on (goes_adv hr))
    exact ⟨x, _, r', peek_of hr hs hx, hne, hr', hin⟩
  | false =>
    obtain ⟨w, hw, rfl⟩ := hs
    have hr' : r.rest = w ++ 0x2C :: t := by simp [hr]
    have hin := h.goes_on (goes_blank hr')
    have hrest : (r.adv w.length).rest = [] ++ 0x2C :: t := by rw [rest_adv_of hr']; rfl
    refine ⟨0x2C, _, (r.adv w.length).adv 1, peek_of hr' hw (by decide), hclose.symm, ?_, ?_⟩
    · rw [separator_next hin, expect_of hrest blank_nil (by decide)]
      rfl
    · simpa using hin.goes_on (goes_byte hrest)

/-- What the separator passes, with the blanks before it, is the start of a lead. -/
private lemma separator_ok {r₀ r r' : Reader} {c w t : Bytes} {b : Bool} {d : UInt8}
    (h : Inside r₀ c b r) (hr : r.rest = w ++ d :: t) (hw : Blank w)
    (hsep : (r.adv w.length).separator = .ok r') :
    ∃ s, LeadStart b s ∧ Inside r₀ (c ++ s) false r' := by
  have hin := h.goes_on (goes_blank hr)
  cases b with
  | true =>
    obtain ⟨r'', hr'', hin', -⟩ := separator_first hin
    rw [hsep] at hr''
    cases hr''
    exact ⟨w, hw, hin'⟩
  | false =>
    rw [separator_next hin] at hsep
    obtain ⟨w', t', hw', hr', rfl⟩ := expect_ok hsep
    refine ⟨w ++ (w' ++ [0x2C]), ⟨w ++ w', hw.append hw', by simp⟩, ?_⟩
    rw [← List.append_assoc]
    exact hin.goes_on (goes_byte hr')

/-- A missing separator is a legible error. -/
private lemma separator_error {r₀ r : Reader} {c : Bytes} {b : Bool} {f : Failure}
    (h : Inside r₀ c b r) (hsep : r.separator = .error f) : f.Plain := by
  cases b with
  | true =>
    obtain ⟨r', hr', -, -⟩ := separator_first h
    rw [hsep] at hr'
    cases hr'
  | false =>
    rw [separator_next h] at hsep
    exact expect_error (by decide) hsep

/-! ## Arrays -/

/-- An array closes. -/
lemma nextElement_close {r₀ r : Reader} {c w t : Bytes} {b : Bool} (h : Inside r₀ c b r)
    (hr : r.rest = w ++ 0x5D :: t) (hw : Blank w) :
    ∃ r', r.nextElement = .ok (false, r') ∧ r₀.Goes (c ++ (w ++ [0x5D])) 0 r' := by
  obtain ⟨r', hr', hg⟩ := popLevel_of (h.goes.trans_zero (goes_byte hr))
  have hstep : r.nextElement = (popLevel (r.adv (w.length + 1)) >>= fun r => .ok (false, r)) := by
    rw [nextElement, peek_of hr hw (by decide)]
    rfl
  exact ⟨r', by rw [hstep, hr', ok_bind], hg⟩

/-- An element of an array begins. -/
lemma nextElement_item {r₀ r : Reader} {c s t : Bytes} {b : Bool} (h : Inside r₀ c b r)
    (hr : r.rest = s ++ t) (hs : LeadStart b s)
    (ht : b = true → ∃ x u, t = x :: u ∧ isSpace x = false ∧ x ≠ 0x5D) :
    ∃ r', r.nextElement = .ok (true, r') ∧ Inside r₀ (c ++ s) false r' := by
  obtain ⟨d, r₁, r', hp, hd, hsep, hin⟩ := separator_of h hr hs (by decide) ht
  refine ⟨r', ?_, hin⟩
  rw [nextElement, hp]
  simp only [if_neg hd, hsep]
  rfl

/-- What `next_element` finds: the closing bracket, or the start of a lead. -/
lemma nextElement_ok {r₀ r r' : Reader} {c : Bytes} {b present : Bool} (h : Inside r₀ c b r)
    (hok : r.nextElement = .ok (present, r')) :
    (present = false ∧ ∃ w, Blank w ∧ r₀.Goes (c ++ (w ++ [0x5D])) 0 r') ∨
    (present = true ∧ ∃ s, LeadStart b s ∧ Inside r₀ (c ++ s) false r') := by
  rcases r.peek_cases with ⟨w, -, -, hp⟩ | ⟨w, d, t, hw, -, hr, hp⟩
  · simp [nextElement, hp] at hok
  · by_cases hd : d = 0x5D
    · subst hd
      obtain ⟨r'', hr'', hg⟩ := nextElement_close h hr hw
      rw [hok] at hr''
      simp only [Except.ok.injEq, Prod.mk.injEq] at hr''
      obtain ⟨rfl, rfl⟩ := hr''
      exact Or.inl ⟨rfl, w, hw, hg⟩
    · rw [nextElement, hp] at hok
      simp only [if_neg hd] at hok
      obtain ⟨r₁, hsep, hres⟩ := bind_eq_ok.mp hok
      simp only [Except.ok.injEq, Prod.mk.injEq] at hres
      obtain ⟨rfl, rfl⟩ := hres
      exact Or.inr ⟨rfl, separator_ok h hr hw hsep⟩

/-- The errors of `next_element`. -/
lemma nextElement_error {r₀ r : Reader} {c : Bytes} {b : Bool} {f : Failure}
    (h : Inside r₀ c b r) (he : r.nextElement = .error f) : f.Plain := by
  rcases r.peek_cases with ⟨w, -, -, hp⟩ | ⟨w, d, t, hw, -, hr, hp⟩
  · rw [nextElement, hp] at he
    exact plain_of_fail (by decide) he
  · by_cases hd : d = 0x5D
    · subst hd
      obtain ⟨r', hr', -⟩ := nextElement_close h hr hw
      rw [he] at hr'
      cases hr'
    · rw [nextElement, hp] at he
      simp only [if_neg hd] at he
      rcases bind_eq_error.mp he with he | ⟨r₁, -, he⟩
      · exact separator_error (h.goes_on (goes_blank hr)) he
      · cases he

/-! ## Objects -/

/-- An object closes. -/
lemma nextMember_close {r₀ r : Reader} {c w t : Bytes} {b : Bool} (h : Inside r₀ c b r)
    (hr : r.rest = w ++ 0x7D :: t) (hw : Blank w) :
    ∃ r', r.nextMember = .ok (none, r') ∧ r₀.Goes (c ++ (w ++ [0x7D])) 0 r' := by
  obtain ⟨r', hr', hg⟩ := popLevel_of (h.goes.trans_zero (goes_byte hr))
  have hstep : r.nextMember = (popLevel (r.adv (w.length + 1)) >>= fun r => .ok (none, r)) := by
    rw [nextMember, peek_of hr hw (by decide)]
    rfl
  exact ⟨r', by rw [hstep, hr', ok_bind], hg⟩

/-- A member of an object begins: its lead, its key and the colon. -/
lemma nextMember_item {r₀ r : Reader} {c s tok w t : Bytes} {cs : List Char} {b : Bool}
    (h : Inside r₀ c b r) (hr : r.rest = s ++ (tok ++ (w ++ 0x3A :: t))) (hs : Lead b s)
    (htok : StringToken tok cs) (hw : Blank w) :
    ∃ r', r.nextMember = .ok (some (encode cs), r') ∧
      Inside r₀ (c ++ (s ++ (tok ++ (w ++ [0x3A])))) false r' := by
  obtain ⟨s₁, w₁, rfl, hs₁, hw₁, hfirst⟩ := lead_split hs
  rw [List.append_assoc] at hr
  have hquote : b = true → ∃ x u, w₁ ++ (tok ++ (w ++ 0x3A :: t)) = x :: u ∧
      isSpace x = false ∧ x ≠ 0x7D := by
    intro hb
    obtain ⟨u, -, rfl⟩ := htok
    rw [hfirst hb]
    exact ⟨0x22, _, rfl, by decide, by decide⟩
  obtain ⟨d, r₁, r₂, hp, hd, hsep, hin⟩ := separator_of h hr hs₁ (by decide) hquote
  have hr₂ : r₂.rest = w₁ ++ (tok ++ (w ++ 0x3A :: t)) :=
    hin.goes.rest_of (by rw [h.goes.rest, hr, List.append_assoc])
  have hscan := scanString_of hr₂ hw₁ htok
  have hg₃ : r₂.Goes (w₁ ++ tok) 0 (r₂.adv (w₁.length + tok.length)) := by
    rw [← List.length_append]
    exact goes_adv (by rw [hr₂, List.append_assoc])
  have hr₃ : (r₂.adv (w₁.length + tok.length)).rest = w ++ 0x3A :: t :=
    hg₃.rest_of (by rw [hr₂, List.append_assoc])
  refine ⟨(r₂.adv (w₁.length + tok.length)).adv (w.length + 1), ?_, ?_⟩
  · rw [nextMember, hp]
    simp only [if_neg hd, hsep, ok_bind, hscan, expect_of hr₃ hw (by decide)]
  · have := (hin.goes_on hg₃).goes_on (goes_byte hr₃)
    simpa [List.append_assoc] using this

/-- What `next_member` finds: the closing brace, or a lead, a key and a colon. -/
lemma nextMember_ok {r₀ r r' : Reader} {c : Bytes} {b : Bool} {key : Option Bytes}
    (h : Inside r₀ c b r) (hok : r.nextMember = .ok (key, r')) :
    (key = none ∧ ∃ w, Blank w ∧ r₀.Goes (c ++ (w ++ [0x7D])) 0 r') ∨
    ∃ s tok w cs, key = some (encode cs) ∧ Lead b s ∧ StringToken tok cs ∧ Blank w ∧
      Inside r₀ (c ++ (s ++ (tok ++ (w ++ [0x3A])))) false r' := by
  rcases r.peek_cases with ⟨w, -, -, hp⟩ | ⟨w, d, t, hw, -, hr, hp⟩
  · simp [nextMember, hp] at hok
  · by_cases hd : d = 0x7D
    · subst hd
      obtain ⟨r'', hr'', hg⟩ := nextMember_close h hr hw
      rw [hok] at hr''
      simp only [Except.ok.injEq, Prod.mk.injEq] at hr''
      obtain ⟨rfl, rfl⟩ := hr''
      exact Or.inl ⟨rfl, w, hw, hg⟩
    · rw [nextMember, hp] at hok
      simp only [if_neg hd] at hok
      obtain ⟨r₁, hsep, hok⟩ := bind_eq_ok.mp hok
      obtain ⟨⟨out, r₂⟩, hscan, hok⟩ := bind_eq_ok.mp hok
      obtain ⟨r₃, hcolon, hok⟩ := bind_eq_ok.mp hok
      simp only [Except.ok.injEq, Prod.mk.injEq] at hok
      obtain ⟨rfl, rfl⟩ := hok
      obtain ⟨s, hs, hin⟩ := separator_ok h hr hw hsep
      obtain ⟨w₁, tok, cs, hw₁, htok, hr₁, rfl, rfl⟩ := scanString_ok hscan
      obtain ⟨w₂, t₂, hw₂, hr₂, rfl⟩ := expect_ok hcolon
      have hg₂ : r₁.Goes (w₁ ++ tok) 0 (r₁.adv (w₁.length + tok.length)) := by
        rw [← List.length_append]
        exact goes_adv (by rw [hr₁, List.append_assoc])
      refine Or.inr ⟨s ++ w₁, tok, w₂, cs, rfl, lead_append hs hw₁, htok, hw₂, ?_⟩
      have := (hin.goes_on hg₂).goes_on (goes_byte hr₂)
      simpa [List.append_assoc] using this

/-- The errors of `next_member`. -/
lemma nextMember_error {r₀ r : Reader} {c : Bytes} {b : Bool} {f : Failure}
    (h : Inside r₀ c b r) (he : r.nextMember = .error f) : f.Plain := by
  rcases r.peek_cases with ⟨w, -, -, hp⟩ | ⟨w, d, t, hw, -, hr, hp⟩
  · rw [nextMember, hp] at he
    exact plain_of_fail (by decide) he
  · by_cases hd : d = 0x7D
    · subst hd
      obtain ⟨r', hr', -⟩ := nextMember_close h hr hw
      rw [he] at hr'
      cases hr'
    · rw [nextMember, hp] at he
      simp only [if_neg hd] at he
      rcases bind_eq_error.mp he with he | ⟨r₁, -, he⟩
      · exact separator_error (h.goes_on (goes_blank hr)) he
      · rcases bind_eq_error.mp he with he | ⟨p, -, he⟩
        · exact scanString_error he
        · rcases bind_eq_error.mp he with he | ⟨q, -, he⟩
          · exact expect_error (by decide) he
          · cases he

end Reader

end Hotpath.Json
