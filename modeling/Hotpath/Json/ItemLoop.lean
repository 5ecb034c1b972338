import Hotpath.Json.Levels

set_option relaxedAutoImplicit false
set_option autoImplicit false

/-!
# Loops over the items of a container

The protocol reads an object and an array in the same way: a loop asks for the next item,
reads it, adds it to what it has, and leaves at the closing bracket. `ItemLoop` says what one
iteration of such a loop does; what the whole loop does follows for every loop of the kind.

## Main definitions

* `Reader.Reads` — a method that reads the values of a language, with the errors that quote the
  text they refuse.
* `Reader.ItemLoop` — a loop that reads the items of a container.

## Main results

* `Reader.ItemLoop.run_of` — the loop reads a whole listing.
* `Reader.ItemLoop.run_quoted` — the loop stops at an item it refuses with a quotation.
* `Reader.ItemLoop.run_after` — the loop comes past a listing.
* `Reader.ItemLoop.run_done` — the loop ends in an iteration after some listed items.
* `Reader.ItemLoop.run_cases` — the loop does nothing else, but fail legibly.
-/

namespace Hotpath.Json

open JsonText

namespace Reader

/-- `read` reads the values of the language `Token`, opening up to `room` levels meanwhile. It
refuses a text of `Quoted` with the error given there, and every other text legibly. -/
structure Reads {α : Type} (room : ℕ) (read : Reader → Parse (α × Reader))
    (Token : Bytes → α → Prop) (Quoted : Bytes → DecodeError → Prop) : Prop where
  accepts : ∀ {r : Reader} {w tok t : Bytes} {a : α}, r.depth + room ≤ kMaxDepth →
    r.rest = w ++ (tok ++ t) → Blank w → Token tok a → Stops t →
    ∃ r', read r = .ok (a, r') ∧ r.Goes (w ++ tok) 0 r'
  accepted : ∀ {r r' : Reader} {a : α}, r.depth + room ≤ kMaxDepth → read r = .ok (a, r') →
    ∃ w tok, Blank w ∧ Token tok a ∧ r.Goes (w ++ tok) 0 r'
  quotes : ∀ {r : Reader} {w u : Bytes} {e : DecodeError}, r.depth + room ≤ kMaxDepth →
    r.rest = w ++ u → Blank w → Quoted u e → read r = .error (.error e)
  failed : ∀ {r : Reader} {f : Failure}, r.depth + room ≤ kMaxDepth → read r = .error f →
    f.Plain ∨ ∃ w u e, Blank w ∧ r.rest = w ++ u ∧ Quoted u e ∧ f = .error e

/-- More room does no harm. -/
lemma Reads.mono {α : Type} {m n : ℕ} {read : Reader → Parse (α × Reader)}
    {Token : Bytes → α → Prop} {Quoted : Bytes → DecodeError → Prop}
    (h : Reads m read Token Quoted) (hmn : m ≤ n) : Reads n read Token Quoted where
  accepts hd := h.accepts (by omega)
  accepted hd := h.accepted (by omega)
  quotes hd := h.quotes (by omega)
  failed hd := h.failed (by omega)

/-- An injective image of a language is read by the method with the image taken. -/
lemma Reads.map {α β : Type} {n : ℕ} {read : Reader → Parse (α × Reader)}
    {Token : Bytes → α → Prop} {Quoted : Bytes → DecodeError → Prop}
    (h : Reads n read Token Quoted) (g : α → β) {Token' : Bytes → β → Prop}
    (hT : ∀ tok b, Token' tok b ↔ ∃ a, Token tok a ∧ b = g a) :
    Reads n (fun r => read r >>= fun p => .ok (g p.1, p.2)) Token' Quoted where
  accepts := by
    intro r w tok t b hd hr hw ht hs
    obtain ⟨a, ha, rfl⟩ := (hT tok b).mp ht
    obtain ⟨r', hr', hg⟩ := h.accepts hd hr hw ha hs
    exact ⟨r', by simp only [hr', ok_bind], hg⟩
  accepted := by
    intro r r' b hd hok
    obtain ⟨⟨a, r₁⟩, h₁, h₂⟩ := bind_eq_ok.mp hok
    simp only [Except.ok.injEq, Prod.mk.injEq] at h₂
    obtain ⟨rfl, rfl⟩ := h₂
    obtain ⟨w, tok, hw, ha, hg⟩ := h.accepted hd h₁
    exact ⟨w, tok, hw, (hT tok _).mpr ⟨a, ha, rfl⟩, hg⟩
  quotes := by
    intro r w u e hd hr hw hq
    rw [h.quotes hd hr hw hq]
    rfl
  failed := by
    intro r f hd hf
    rcases bind_eq_error.mp hf with hf | ⟨p, -, hf⟩
    · exact h.failed hd hf
    · cases hf

/-- The lead of an item that is not the first starts with a delimiter, so no token before it
is prolonged. -/
lemma stops_lead {s u : Bytes} (hs : Lead false s) : Stops (s ++ u) := by
  obtain ⟨w, w', hw, -, rfl⟩ := hs
  rw [List.append_assoc]
  refine stops_blank hw ?_
  intro b hb
  obtain rfl : 0x2C = b := by simpa using hb
  decide

/-! ## The loop -/

/-- A loop that reads the items of a container opened after `r₀`: `item` is the language of one
item, `upd` adds its value to what the loop has, `fin` is what the loop returns at the bracket
`close`, and an item that starts like a text of `Quoted` is refused with the error there. -/
structure ItemLoop {α β ρ : Type} (r₀ : Reader)
    (body : Reader × β → Loop.Step (Reader × β) (Parse ρ)) (upd : β → α → β)
    (fin : β → Reader → ρ) (close : UInt8) (item : Bytes → α → Prop)
    (Quoted : Bytes → DecodeError → Prop) : Prop where
  close_delimiter : isDelimiter close = true
  item_pos : ∀ {tok : Bytes} {a : α}, item tok a → 0 < tok.length
  item_of : ∀ {r : Reader} {b : β} {first : Bool} {c s tok t : Bytes} {a : α},
    Inside r₀ c first r → r.rest = s ++ (tok ++ t) → Lead first s → item tok a → Stops t →
    ∃ r', body (r, b) = .more (r', upd b a) ∧ Inside r₀ (c ++ (s ++ tok)) false r'
  close_of : ∀ {r : Reader} {b : β} {first : Bool} {c w t : Bytes},
    Inside r₀ c first r → r.rest = w ++ close :: t → Blank w →
    ∃ r', body (r, b) = .done (.ok (fin b r')) ∧ r₀.Goes (c ++ (w ++ [close])) 0 r'
  quote_of : ∀ {r : Reader} {b : β} {first : Bool} {c s u : Bytes} {e : DecodeError},
    Inside r₀ c first r → r.rest = s ++ u → Lead first s → Quoted u e →
    body (r, b) = .done (.error (.error e))
  cases : ∀ {r : Reader} {b : β} {first : Bool} {c : Bytes}, Inside r₀ c first r →
    (∃ s tok a r', Lead first s ∧ item tok a ∧ body (r, b) = .more (r', upd b a) ∧
      Inside r₀ (c ++ (s ++ tok)) false r') ∨
    (∃ w r', Blank w ∧ body (r, b) = .done (.ok (fin b r')) ∧
      r₀.Goes (c ++ (w ++ [close])) 0 r') ∨
    ∃ f, body (r, b) = .done (.error f) ∧
      (f.Plain ∨ ∃ s u e, Lead first s ∧ r.rest = s ++ u ∧ Quoted u e ∧ f = .error e)

namespace ItemLoop

variable {α β ρ : Type} {r₀ : Reader} {body : Reader × β → Loop.Step (Reader × β) (Parse ρ)}
  {upd : β → α → β} {fin : β → Reader → ρ} {close : UInt8} {item : Bytes → α → Prop}
  {Quoted : Bytes → DecodeError → Prop}

/-- What the loop keeps: it is inside the container, past some items. -/
private def Past (r₀ : Reader) (s : Reader × β) : Prop := ∃ c first, Inside r₀ c first s.1

/-- An iteration that goes round keeps the loop inside and shortens the text. -/
private lemma more_lt (h : ItemLoop r₀ body upd fin close item Quoted) {s s' : Reader × β}
    (hs : Past r₀ s) (hmore : body s = .more s') :
    Past r₀ s' ∧ s'.1.rest.length < s.1.rest.length := by
  obtain ⟨r, b⟩ := s
  obtain ⟨c, first, hin⟩ := hs
  rcases h.cases (b := b) hin with ⟨u, tok, a, r', -, ha, hb, hin'⟩ | ⟨_, _, _, hb, _⟩ | ⟨_, hb, _⟩
  · rw [hb] at hmore
    cases hmore
    refine ⟨⟨_, _, hin'⟩, ?_⟩
    have h1 := hin.goes.rest
    have h2 := hin'.goes.rest
    rw [h1, List.append_assoc] at h2
    have h3 := congrArg List.length (List.append_cancel_left h2)
    have := h.item_pos ha
    simp only [List.length_append] at h3 ⊢
    omega
  · rw [hb] at hmore
    cases hmore
  · rw [hb] at hmore
    cases hmore

/-- Whole iterations read a listing, item by item.

**Proof sketch.** Induction on the listing, whose items are added on the right: the loop has
come to the last item by induction, since the lead of that item stops the token before it. -/
private lemma reaches_listing (h : ItemLoop r₀ body upd fin close item Quoted) {as : List α}
    {c : Bytes} (hl : Listing item as c) {r : Reader} {b : β} {p : Bytes}
    (hin : Inside r₀ p true r) :
    ∀ {t : Bytes}, r.rest = c ++ t → (as ≠ [] → Stops t) →
      ∃ r', Loop.Reaches body (r, b) (r', as.foldl upd b) ∧
        Inside r₀ (p ++ c) as.isEmpty r' ∧ r'.rest = t := by
  induction hl with
  | nil =>
    intro t hr _
    exact ⟨r, Relation.ReflTransGen.refl, by simpa using hin, by simpa using hr⟩
  | @snoc as c s tok a _ hs ha ih =>
    intro t hr hstop
    rw [List.append_assoc, List.append_assoc] at hr
    have hstop' : as ≠ [] → Stops (s ++ (tok ++ t)) := by
      intro hne
      rw [List.isEmpty_eq_false_iff.mpr hne] at hs
      exact stops_lead hs
    obtain ⟨r₁, hreach, hin₁, hr₁⟩ := ih hr hstop'
    obtain ⟨r₂, hmore, hin₂⟩ :=
      h.item_of (b := as.foldl upd b) hin₁ hr₁ hs ha (hstop (by simp))
    refine ⟨r₂, ?_, ?_, ?_⟩
    · rw [List.foldl_append]
      exact Relation.ReflTransGen.tail hreach hmore
    · have hne : (as ++ [a]).isEmpty = false := by simp
      rw [hne]
      simpa [List.append_assoc] using hin₂
    · refine hin₂.goes.rest_of ?_
      rw [hin₁.goes.rest, hr₁]
      simp [List.append_assoc]

/-- **The loop reads a listing** and returns at the closing bracket with all its items. -/
theorem run_of (h : ItemLoop r₀ body upd fin close item Quoted) {as : List α} {c w t p : Bytes}
    (hl : Listing item as c) (hw : Blank w) {r : Reader} {b : β} (hin : Inside r₀ p true r)
    (hr : r.rest = c ++ (w ++ close :: t)) {n : ℕ} (hn : r.rest.length < n) :
    ∃ r', Loop.run body n (r, b) = some (.ok (fin (as.foldl upd b) r')) ∧
      r₀.Goes (p ++ (c ++ (w ++ [close]))) 0 r' := by
  have hstop : Stops (w ++ close :: t) := by
    refine stops_blank hw fun x hx => ?_
    obtain rfl : close = x := by simpa using hx
    exact h.close_delimiter
  obtain ⟨r₁, hreach, hin₁, hr₁⟩ := h.reaches_listing hl (b := b) hin hr fun _ => hstop
  obtain ⟨r₂, hdone, hg⟩ := h.close_of (b := as.foldl upd b) hin₁ hr₁ hw
  refine ⟨r₂, ?_, by simpa [List.append_assoc] using hg⟩
  exact Loop.run_eq_of_reaches (I := Past r₀) (fun s => s.1.rest.length)
    (fun s s' hs hm => h.more_lt hs hm) hreach hdone n ⟨_, _, hin⟩ hn

/-- **The loop refuses** an item that starts like a text of `Quoted`. -/
theorem run_quoted (h : ItemLoop r₀ body upd fin close item Quoted) {as : List α}
    {c s u p : Bytes} {e : DecodeError} (hl : Listing item as c) (hs : Lead as.isEmpty s)
    (hq : Quoted u e) {r : Reader} {b : β} (hin : Inside r₀ p true r)
    (hr : r.rest = c ++ (s ++ u)) {n : ℕ} (hn : r.rest.length < n) :
    Loop.run body n (r, b) = some (.error (.error e)) := by
  have hstop : as ≠ [] → Stops (s ++ u) := by
    intro hne
    rw [List.isEmpty_eq_false_iff.mpr hne] at hs
    exact stops_lead hs
  obtain ⟨r₁, hreach, hin₁, hr₁⟩ := h.reaches_listing hl (b := b) hin hr hstop
  exact Loop.run_eq_of_reaches (I := Past r₀) (fun s => s.1.rest.length)
    (fun s s' hs hm => h.more_lt hs hm) hreach (h.quote_of hin₁ hr₁ hs hq) n ⟨_, _, hin⟩ hn

/-- **The loop comes past a listing**, and if the iteration after it is the last, returns what
that one returns. -/
theorem run_after (h : ItemLoop r₀ body upd fin close item Quoted) {as : List α} {c t p : Bytes}
    (hl : Listing item as c) (hstop : as ≠ [] → Stops t) {r : Reader} {b : β}
    (hin : Inside r₀ p true r) (hr : r.rest = c ++ t) {n : ℕ} (hn : r.rest.length < n) :
    ∃ r₁, Inside r₀ (p ++ c) as.isEmpty r₁ ∧ r₁.rest = t ∧
      ∀ res, body (r₁, as.foldl upd b) = .done res → Loop.run body n (r, b) = some res := by
  obtain ⟨r₁, hreach, hin₁, hr₁⟩ := h.reaches_listing hl (b := b) hin hr hstop
  refine ⟨r₁, hin₁, hr₁, fun res hdone => ?_⟩
  exact Loop.run_eq_of_reaches (I := Past r₀) (fun s => s.1.rest.length)
    (fun s s' hs hm => h.more_lt hs hm) hreach hdone n ⟨_, _, hin⟩ hn

/-- **Where the loop ends**: it returns what the iteration after some listed items returns. -/
theorem run_done (h : ItemLoop r₀ body upd fin close item Quoted) {p : Bytes} {r : Reader}
    {b : β} (hin : Inside r₀ p true r) {n : ℕ} (hn : r.rest.length < n) :
    ∃ res, Loop.run body n (r, b) = some res ∧ ∃ as c r₁, Listing item as c ∧
      Inside r₀ (p ++ c) as.isEmpty r₁ ∧ body (r₁, as.foldl upd b) = .done res := by
  refine Loop.run_total (I := fun s => ∃ as c, Listing item as c ∧ s.2 = as.foldl upd b ∧
    Inside r₀ (p ++ c) as.isEmpty s.1) (fun s => s.1.rest.length) ?_ ?_ n (r, b)
    ⟨[], [], Listing.nil, rfl, by simpa using hin⟩ hn
  · rintro ⟨r₁, b₁⟩ s' ⟨as, c, hl, hb₁, hin₁⟩ hmore
    simp only at hb₁ hin₁
    refine ⟨?_, (h.more_lt ⟨_, _, hin₁⟩ hmore).2⟩
    rcases h.cases (b := b₁) hin₁ with ⟨s, tok, a, r₂, hs, ha, hb, hin₂⟩ | ⟨_, _, _, hb, _⟩ |
      ⟨_, hb, _⟩
    · rw [hb] at hmore
      cases hmore
      refine ⟨as ++ [a], c ++ (s ++ tok), hl.snoc hs ha, ?_, ?_⟩
      · rw [List.foldl_append, ← hb₁]
        rfl
      · have hne : (as ++ [a]).isEmpty = false := by simp
        rw [hne]
        simpa [List.append_assoc] using hin₂
    · rw [hb] at hmore
      cases hmore
    · rw [hb] at hmore
      cases hmore
  · rintro ⟨r₁, b₁⟩ res ⟨as, c, hl, hb₁, hin₁⟩ hdone
    simp only at hb₁ hin₁
    exact ⟨as, c, r₁, hl, hin₁, hb₁ ▸ hdone⟩

/-- **What the loop comes to**: a listing and the closing bracket, or a legible error, or an
item it refuses with a quotation. -/
theorem run_cases (h : ItemLoop r₀ body upd fin close item Quoted) {p : Bytes} {r : Reader}
    {b : β} (hin : Inside r₀ p true r) {n : ℕ} (hn : r.rest.length < n) :
    ∃ res, Loop.run body n (r, b) = some res ∧
      ((∃ as c w r', Listing item as c ∧ Blank w ∧ res = .ok (fin (as.foldl upd b) r') ∧
        r₀.Goes (p ++ (c ++ (w ++ [close]))) 0 r') ∨
      ∃ f, res = .error f ∧ (f.Plain ∨ ∃ as c s u e, Listing item as c ∧ Lead as.isEmpty s ∧
        r.rest = c ++ (s ++ u) ∧ Quoted u e ∧ f = .error e)) := by
  obtain ⟨res, hrun, as, c, r₁, hl, hin₁, hdone⟩ := h.run_done (b := b) hin hn
  refine ⟨res, hrun, ?_⟩
  rcases h.cases (b := as.foldl upd b) hin₁ with ⟨_, _, _, _, _, _, hb, _⟩ | ⟨w, r₂, hw, hb, hg⟩ |
    ⟨f, hb, hf⟩
  · rw [hb] at hdone
    cases hdone
  · rw [hb] at hdone
    cases hdone
    exact Or.inl ⟨as, c, w, r₂, hl, hw, rfl, by simpa [List.append_assoc] using hg⟩
  · rw [hb] at hdone
    cases hdone
    refine Or.inr ⟨f, rfl, hf.imp id ?_⟩
    rintro ⟨s, u, e, hs, hr, hq, rfl⟩
    refine ⟨as, c, s, u, e, hl, hs, ?_, hq, rfl⟩
    have h1 := hin.goes.rest
    rw [hin₁.goes.rest, List.append_assoc] at h1
    rw [← hr, List.append_cancel_left h1]

end ItemLoop

/-! ## Elements of an array -/

/-- A text that starts an element: not with a blank, nor with the closing bracket. -/
def StartsElement (u : Bytes) : Prop := ∃ x v, u = x :: v ∧ isSpace x = false ∧ x ≠ 0x5D

/-- An element and its value. -/
lemma element_of {α : Type} {n : ℕ} {read : Reader → Parse (α × Reader)}
    {Token : Bytes → α → Prop} {Quoted : Bytes → DecodeError → Prop}
    (hread : Reads n read Token Quoted) {r₀ r : Reader} {c s tok t : Bytes} {first : Bool} {a : α}
    (hd : r₀.depth + 1 + n ≤ kMaxDepth) (h : Inside r₀ c first r) (hr : r.rest = s ++ (tok ++ t))
    (hs : Lead first s) (ha : Token tok a) (htok : StartsElement tok) (ht : Stops t) :
    ∃ r₁ r', r.nextElement = .ok (true, r₁) ∧ read r₁ = .ok (a, r') ∧
      Inside r₀ (c ++ (s ++ tok)) false r' := by
  obtain ⟨s₁, w, rfl, hs₁, hw, hfirst⟩ := lead_split hs
  rw [List.append_assoc] at hr
  have hstart : first = true → ∃ x u, w ++ (tok ++ t) = x :: u ∧ isSpace x = false ∧ x ≠ 0x5D := by
    intro hb
    obtain ⟨x, v, rfl, hx⟩ := htok
    exact ⟨x, v ++ t, by rw [hfirst hb]; rfl, hx⟩
  obtain ⟨r₁, h₁, hin₁⟩ := nextElement_item h hr hs₁ hstart
  have hr₁ : r₁.rest = w ++ (tok ++ t) :=
    hin₁.goes.rest_of (by rw [h.goes.rest, hr, List.append_assoc])
  obtain ⟨r', hr', hg⟩ := hread.accepts (by rw [hin₁.goes.depth]; exact hd) hr₁ hw ha ht
  exact ⟨r₁, r', h₁, hr', by simpa [List.append_assoc] using hin₁.goes_on hg⟩

/-- An element that is read is of the language. -/
lemma element_ok {α : Type} {n : ℕ} {read : Reader → Parse (α × Reader)}
    {Token : Bytes → α → Prop} {Quoted : Bytes → DecodeError → Prop}
    (hread : Reads n read Token Quoted) {r₀ r r₁ r' : Reader} {c : Bytes} {first : Bool} {a : α}
    (hd : r₀.depth + 1 + n ≤ kMaxDepth) (h : Inside r₀ c first r)
    (h₁ : r.nextElement = .ok (true, r₁)) (h₂ : read r₁ = .ok (a, r')) :
    ∃ s tok, Lead first s ∧ Token tok a ∧ Inside r₀ (c ++ (s ++ tok)) false r' := by
  rcases nextElement_ok h h₁ with ⟨hf, -⟩ | ⟨-, s, hs, hin₁⟩
  · cases hf
  · obtain ⟨w, tok, hw, ha, hg⟩ := hread.accepted (by rw [hin₁.goes.depth]; exact hd) h₂
    exact ⟨s ++ w, tok, lead_append hs hw, ha, by simpa [List.append_assoc] using hin₁.goes_on hg⟩

/-- An element that is refused with a quotation. -/
lemma element_quoted {α : Type} {n : ℕ} {read : Reader → Parse (α × Reader)}
    {Token : Bytes → α → Prop} {Quoted : Bytes → DecodeError → Prop}
    (hread : Reads n read Token Quoted) {r₀ r : Reader} {c s u : Bytes} {first : Bool}
    {e : DecodeError} (hd : r₀.depth + 1 + n ≤ kMaxDepth) (h : Inside r₀ c first r)
    (hr : r.rest = s ++ u) (hs : Lead first s) (hq : Quoted u e) (hu : StartsElement u) :
    ∃ r₁, r.nextElement = .ok (true, r₁) ∧ read r₁ = .error (.error e) := by
  obtain ⟨s₁, w, rfl, hs₁, hw, hfirst⟩ := lead_split hs
  rw [List.append_assoc] at hr
  have hstart : first = true → ∃ x v, w ++ u = x :: v ∧ isSpace x = false ∧ x ≠ 0x5D := by
    intro hb
    rw [hfirst hb]
    exact hu
  obtain ⟨r₁, h₁, hin₁⟩ := nextElement_item h hr hs₁ hstart
  have hr₁ : r₁.rest = w ++ u := hin₁.goes.rest_of (by rw [h.goes.rest, hr, List.append_assoc])
  exact ⟨r₁, h₁, hread.quotes (by rw [hin₁.goes.depth]; exact hd) hr₁ hw hq⟩

/-- An element that is refused is refused legibly or with a quotation. -/
lemma element_error {α : Type} {n : ℕ} {read : Reader → Parse (α × Reader)}
    {Token : Bytes → α → Prop} {Quoted : Bytes → DecodeError → Prop}
    (hread : Reads n read Token Quoted) {r₀ r r₁ : Reader} {c : Bytes} {first : Bool}
    {f : Failure} (hd : r₀.depth + 1 + n ≤ kMaxDepth) (h : Inside r₀ c first r)
    (h₁ : r.nextElement = .ok (true, r₁)) (h₂ : read r₁ = .error f) :
    f.Plain ∨ ∃ s u e, Lead first s ∧ r.rest = s ++ u ∧ Quoted u e ∧ f = .error e := by
  rcases nextElement_ok h h₁ with ⟨hf, -⟩ | ⟨-, s, hs, hin₁⟩
  · cases hf
  · rcases hread.failed (by rw [hin₁.goes.depth]; exact hd) h₂ with hp | ⟨w, u, e, hw, hr, hq, rfl⟩
    · exact Or.inl hp
    · refine Or.inr ⟨s ++ w, u, e, lead_append hs hw, ?_, hq, rfl⟩
      have h1 := h.goes.rest
      rw [hin₁.goes.rest, List.append_assoc] at h1
      rw [← List.append_cancel_left h1, hr, List.append_assoc]

end Reader

end Hotpath.Json
