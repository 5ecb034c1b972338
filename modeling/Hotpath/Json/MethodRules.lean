import Hotpath.Json.Cursor
import Hotpath.Json.Method

set_option relaxedAutoImplicit false
set_option autoImplicit false

/-!
# Reasoning about methods

A method is judged by two things: every access it makes is within bounds, and it comes to what
the reader of values comes to. Both are one judgement, since the tests that make an access safe
are the tests that decide the outcome. A method used inside another is used through its outcome
alone.

## Main definitions

* `Safe` — the accesses within bounds, with a number of levels at most.
* `Method.Ends` — the accesses of a method are safe, and something holds when it is done.
* `Method.Refines` — they are safe, and the method comes to a given outcome.
* `Method.Iterates` — the same for an iteration, which returns or goes forward.

## Main results

* `Reader.Does.keeps` — what a safe access keeps.
* `Method.Refines.bind`, `Method.Refines.bind_told` — the rules of composition.
* `Method.ends_loop` — the rule of loops.
-/

namespace Hotpath.Json

/-- The accesses within bounds: of `text_` below its length, of `pos_` forward and not past the
end of the text, of `first_` at an open level or the next one, with no more than `cap` levels ever
open. The cap of the source never rejects the text, and no iteration goes round without going
forward. -/
def Safe (cap : ℕ) (r : Reader) : Access → Prop
  | .size | .pos | .depth => True
  | .text i => i < r.text.length
  | .slice start stop => start ≤ stop ∧ stop ≤ r.text.length
  | .setPos p => r.pos ≤ p ∧ p ≤ r.text.length
  | .incDepth => r.depth < cap
  | .decDepth => 1 ≤ r.depth
  | .raiseFirst => r.depth < kMaxDepth
  | .first | .clearFirst => 1 ≤ r.depth ∧ r.depth - 1 < kMaxDepth
  | .capped => False
  | .round p => p < r.pos

/-- What a safe access keeps: the text, the way forward within it, and the bound on the levels. -/
structure Reader.Keeps (cap : ℕ) (r r' : Reader) : Prop where
  text : r'.text = r.text
  pos_le : r.pos ≤ r'.pos
  le_length : r.pos ≤ r.text.length → r'.pos ≤ r.text.length
  depth_le : r.depth ≤ cap → r'.depth ≤ cap

/-- An access that changes nothing keeps the reader on its way. -/
private lemma Reader.keeps_of_eq {cap : ℕ} {r r' : Reader} (h : r' = r) : r.Keeps cap r' := by
  subst h
  exact ⟨rfl, le_rfl, id, id⟩

/-- **Safe accesses**, whatever they answer. -/
theorem Reader.Does.keeps {cap : ℕ} {r r' : Reader} {a : Access} {v : a.Answer}
    (hsafe : Safe cap r a) (h : r.Does a v r') : r.Keeps cap r' := by
  cases a with
  | size => exact Reader.keeps_of_eq h.2
  | text i => exact Reader.keeps_of_eq (h hsafe).2
  | slice start stop => exact Reader.keeps_of_eq (h hsafe).2
  | pos => exact Reader.keeps_of_eq h.2
  | setPos p =>
    obtain rfl : r' = { r with pos := p } := h
    exact ⟨rfl, hsafe.1, fun _ => hsafe.2, id⟩
  | depth => exact Reader.keeps_of_eq h.2
  | incDepth =>
    obtain rfl : r' = { r with depth := r.depth + 1 } := h
    exact ⟨rfl, le_rfl, id, fun _ => hsafe⟩
  | decDepth =>
    obtain rfl := h hsafe
    exact ⟨rfl, le_rfl, id, (Nat.sub_le _ _).trans⟩
  | raiseFirst =>
    obtain rfl := h hsafe
    exact ⟨rfl, le_rfl, id, id⟩
  | first => exact Reader.keeps_of_eq (h hsafe.1 hsafe.2).2
  | clearFirst =>
    obtain rfl := h hsafe.1 hsafe.2
    exact ⟨rfl, le_rfl, id, id⟩
  | capped => exact hsafe.elim
  | round p => exact Reader.keeps_of_eq h

/-- One reader is further on in the text than another, or where it is. -/
structure Reader.Onward (r r' : Reader) : Prop where
  text : r'.text = r.text
  pos_le : r.pos ≤ r'.pos
  le_length : r'.pos ≤ r'.text.length

/-- A bound on the text stays one. -/
lemma Reader.Onward.length_lt {r r' : Reader} {n : ℕ} (h : r.Onward r')
    (hn : r.text.length < n) : r'.text.length < n := by
  rw [h.text]
  exact hn

/-- What keeps the way goes onward. -/
lemma Reader.Onward.keeps {cap : ℕ} {r₀ r r' : Reader} (h : r₀.Onward r) (hk : r.Keeps cap r') :
    r₀.Onward r' where
  text := hk.text.trans h.text
  pos_le := h.pos_le.trans hk.pos_le
  le_length := by
    rw [hk.text]
    exact hk.le_length h.le_length

namespace Method

variable {α β γ : Type} {cap : ℕ}

/-- From `r`, every access of the method is safe, and when it is done `Q` holds of its outcome
and the reader. -/
def Ends (cap : ℕ) (Q : Except Failure α → Reader → Prop) (m : Method α) (r : Reader) : Prop :=
  Program.Within Reader.Does (Safe cap) Q m.run r

/-- `Q` once the method `f` is done too, or the failure before it is. -/
def onto (cap : ℕ) (f : α → Method β) (Q : Except Failure β → Reader → Prop) :
    Except Failure α → Reader → Prop
  | .ok a, r => Ends cap Q (f a) r
  | .error e, r => Q (.error e) r

section Rules

variable {Q : Except Failure α → Reader → Prop} {r : Reader}

/-- After a return the method that goes on with it has its turn. -/
@[simp] lemma onto_ok {f : α → Method β} {Q : Except Failure β → Reader → Prop} {a : α} :
    onto cap f Q (.ok a) r ↔ Ends cap Q (f a) r := Iff.rfl

/-- After a failure nothing more is done. -/
@[simp] lemma onto_error {f : α → Method β} {Q : Except Failure β → Reader → Prop} {e : Failure} :
    onto cap f Q (.error e) r ↔ Q (.error e) r := Iff.rfl

/-- The rule of one method after the other. -/
@[simp] lemma ends_bind {m : Method α} {f : α → Method β} {Q : Except Failure β → Reader → Prop} :
    Ends cap Q (m >>= f) r ↔ Ends cap (onto cap f Q) m r := by
  refine Program.within_bind.trans (iff_of_eq (congrArg (Program.Within _ _ · _ _) ?_))
  funext res r'
  cases res <;> rfl

/-- A return makes no access. -/
@[simp] lemma ends_pure {a : α} : Ends cap Q (pure a) r ↔ Q (.ok a) r := Iff.rfl

/-- A failure makes no access. -/
@[simp] lemma ends_fail {code : DecodeErrorCode} {message : Bytes} :
    Ends cap Q (fail code message) r ↔ Q (.error (.error ⟨code, message⟩)) r := Iff.rfl

end Rules

section Accesses

variable {r : Reader} {i n p start stop : ℕ}

/-- An access that, where it is safe, has one answer and leaves one reader. -/
private lemma ends_access {a : Access} {v₀ : a.Answer} {r₀ : Reader}
    {Q : Except Failure a.Answer → Reader → Prop}
    (h : Safe cap r a → ∀ v r', r.Does a v r' ↔ v = v₀ ∧ r' = r₀) :
    Ends cap Q (access a) r ↔ Safe cap r a ∧ Q (.ok v₀) r₀ := by
  refine and_congr_right fun hsafe => ⟨fun hq => hq v₀ r₀ ((h hsafe v₀ r₀).mpr ⟨rfl, rfl⟩), ?_⟩
  intro hq v r' hd
  obtain ⟨rfl, rfl⟩ := (h hsafe v r').mp hd
  exact hq

/-- The rule of `text_.size()`. -/
@[simp] lemma ends_size {Q : Except Failure ℕ → Reader → Prop} :
    Ends cap Q size r ↔ Q (.ok r.text.length) r :=
  (ends_access (a := .size) fun _ _ _ => Iff.rfl).trans (iff_of_eq (true_and _))

/-- The rule of reading `pos_`. -/
@[simp] lemma ends_pos {Q : Except Failure ℕ → Reader → Prop} :
    Ends cap Q pos r ↔ Q (.ok r.pos) r :=
  (ends_access (a := .pos) fun _ _ _ => Iff.rfl).trans (iff_of_eq (true_and _))

/-- The rule of reading `depth_`. -/
@[simp] lemma ends_depth {Q : Except Failure ℕ → Reader → Prop} :
    Ends cap Q depth r ↔ Q (.ok r.depth) r :=
  (ends_access (a := .depth) fun _ _ _ => Iff.rfl).trans (iff_of_eq (true_and _))

/-- The rule of `text_[i]`: there must be such a byte. -/
@[simp] lemma ends_textAt {Q : Except Failure UInt8 → Reader → Prop} :
    Ends cap Q (textAt i) r ↔ ∃ c, r.text[i]? = some c ∧ Q (.ok c) r := by
  constructor
  · intro h
    exact ⟨_, List.getElem?_eq_getElem h.1, h.2 _ _ fun _ => ⟨List.getElem?_eq_getElem h.1, rfl⟩⟩
  · rintro ⟨c, hc, h⟩
    have hlt : i < r.text.length := (List.getElem?_eq_some_iff.mp hc).1
    refine ⟨hlt, fun v r' hv => ?_⟩
    obtain ⟨hv, rfl⟩ := hv hlt
    rw [hc] at hv
    obtain rfl := Option.some.inj hv
    exact h

/-- The rule of `text_.substr`: its bounds must be in order and in the text. -/
@[simp] lemma ends_slice {Q : Except Failure Bytes → Reader → Prop} :
    Ends cap Q (slice start stop) r ↔ (start ≤ stop ∧ stop ≤ r.text.length) ∧
      Q (.ok ((r.text.drop start).take (stop - start))) r :=
  ends_access (a := .slice start stop) fun hb _ _ => ⟨fun h => h hb, fun h _ => h⟩

/-- The rule of assigning `pos_`: it must not go back, nor out of the text. -/
@[simp] lemma ends_setPos {Q : Except Failure Unit → Reader → Prop} :
    Ends cap Q (setPos p) r ↔
      (r.pos ≤ p ∧ p ≤ r.text.length) ∧ Q (.ok ()) { r with pos := p } :=
  ends_access (a := .setPos p) fun _ _ _ => ⟨fun h => ⟨rfl, h⟩, fun h => h.2⟩

/-- The rule of `++depth_`: it must stay within the cap. -/
@[simp] lemma ends_incDepth {Q : Except Failure Unit → Reader → Prop} :
    Ends cap Q incDepth r ↔ r.depth < cap ∧ Q (.ok ()) { r with depth := r.depth + 1 } :=
  ends_access (a := .incDepth) fun _ _ _ => ⟨fun h => ⟨rfl, h⟩, fun h => h.2⟩

/-- The rule of `--depth_`: there must be a level to leave. -/
@[simp] lemma ends_decDepth {Q : Except Failure Unit → Reader → Prop} :
    Ends cap Q decDepth r ↔ 1 ≤ r.depth ∧ Q (.ok ()) { r with depth := r.depth - 1 } :=
  ends_access (a := .decDepth) fun hd _ _ => ⟨fun h => ⟨rfl, h hd⟩, fun h _ => h.2⟩

/-- The rule of a round of a loop: it must have consumed a byte. -/
@[simp] lemma ends_round {Q : Except Failure Unit → Reader → Prop} :
    Ends cap Q (round p) r ↔ p < r.pos ∧ Q (.ok ()) r :=
  ends_access (a := .round p) fun _ _ _ => ⟨fun h => ⟨rfl, h⟩, fun h => h.2⟩

/-- The rule of setting the flag of a new level: there must be a slot for it. -/
@[simp] lemma ends_raiseFirst {Q : Except Failure Unit → Reader → Prop} :
    Ends cap Q raiseFirst r ↔ ∃ h : r.depth < kMaxDepth,
      Q (.ok ()) { r with first := Function.update r.first ⟨r.depth, h⟩ true } := by
  constructor
  · intro h
    exact ⟨h.1, h.2 () _ fun _ => rfl⟩
  · rintro ⟨hlt, h⟩
    refine ⟨hlt, fun v r' hr => ?_⟩
    obtain rfl := hr hlt
    exact h

/-- The rule of reading the flag of the innermost level: there must be one. -/
@[simp] lemma ends_first {Q : Except Failure Bool → Reader → Prop} :
    Ends cap Q first r ↔ ∃ h : 1 ≤ r.depth ∧ r.depth - 1 < kMaxDepth,
      Q (.ok (r.first ⟨r.depth - 1, h.2⟩)) r := by
  constructor
  · intro h
    exact ⟨h.1, h.2 _ _ fun _ _ => ⟨rfl, rfl⟩⟩
  · rintro ⟨hb, h⟩
    refine ⟨hb, fun v r' hv => ?_⟩
    obtain ⟨rfl, rfl⟩ := hv hb.1 hb.2
    exact h

/-- The rule of clearing the flag of the innermost level: there must be one. -/
@[simp] lemma ends_clearFirst {Q : Except Failure Unit → Reader → Prop} :
    Ends cap Q clearFirst r ↔ ∃ h : 1 ≤ r.depth ∧ r.depth - 1 < kMaxDepth,
      Q (.ok ()) { r with first := Function.update r.first ⟨r.depth - 1, h.2⟩ false } := by
  constructor
  · intro h
    exact ⟨h.1, h.2 () _ fun _ _ => rfl⟩
  · rintro ⟨hb, h⟩
    refine ⟨hb, fun v r' hr => ?_⟩
    obtain rfl := hr hb.1 hb.2
    exact h

/-- The rule of going forward, within the text. -/
@[simp] lemma ends_advance {Q : Except Failure Unit → Reader → Prop} :
    Ends cap Q (advance n) r ↔ r.pos + n ≤ r.text.length ∧ Q (.ok ()) (r.adv n) := by
  simp [advance, Reader.adv]

/-- A byte is looked at only where there is one. -/
@[simp] lemma ends_sees {f : UInt8 → Bool} {Q : Except Failure Bool → Reader → Prop} :
    Ends cap Q (sees f) r ↔ Q (.ok (r.text[r.pos]?.any f)) r := by
  by_cases h : r.pos < r.text.length
  · simp [sees, h]
  · simp [sees, h]

end Accesses

/-! ## Outcomes -/

/-- A failure is the failure of the whole sequence. -/
@[simp] lemma error_bind {e : Failure} {g : α → Parse β} :
    ((Except.error e : Parse α) >>= g) = .error e := rfl

/-- What a method came to, where `fin` makes an answer of what it returned and the reader after
it. -/
def outcomeBy (fin : α → Reader → γ) (res : Except Failure α) (r : Reader) : Parse γ :=
  match res with
  | .ok a => .ok (fin a r)
  | .error e => .error e

/-- What a method came to: what it returned with the reader after it, or why it stopped. -/
abbrev outcome : Except Failure α → Reader → Parse (α × Reader) := outcomeBy Prod.mk

/-- An answer is made of what was returned and the reader. -/
@[simp] lemma outcomeBy_ok {fin : α → Reader → γ} {a : α} {r : Reader} :
    outcomeBy fin (.ok a) r = .ok (fin a r) := rfl

/-- A failure is told as it is. -/
@[simp] lemma outcomeBy_error {fin : α → Reader → γ} {e : Failure} {r : Reader} :
    outcomeBy fin (.error e) r = .error e := rfl

/-- From `r`, every access of the method is safe, and it comes to `x`. -/
def Refines (cap : ℕ) (m : Method α) (r : Reader) (x : Parse (α × Reader)) : Prop :=
  Ends cap (fun res r' => x = outcome res r') m r

/-- The outcome that `φ` makes of an answer of the reader of values. -/
def told (φ : γ → α × Reader) : Parse γ → Parse (α × Reader)
  | .ok v => .ok (φ v)
  | .error e => .error e

/-- The outcome of a method that answers nothing. -/
abbrev silent : Parse Reader → Parse (Unit × Reader) := told fun r => ((), r)

/-- The outcome of a scanner of positions. -/
abbrev located (r : Reader) : Parse ℕ → Parse (Unit × Reader) :=
  told fun p => ((), { r with pos := p })

/-- The outcome of a scanner of positions that answers something. -/
abbrev locatedWith (r : Reader) : Parse (ℕ × Bool) → Parse (Bool × Reader) :=
  told fun v => (v.2, { r with pos := v.1 })

section Outcomes

variable {r : Reader}

/-- An answer is told with the reader it leaves. -/
@[simp] lemma told_ok {φ : γ → α × Reader} {v : γ} : told φ (.ok v) = .ok (φ v) := rfl

/-- A failure is told as the error it reports. -/
@[simp] lemma told_error {φ : γ → α × Reader} {e : Failure} :
    told φ (.error e) = .error e := rfl

/-- What is told as an answer was one. -/
lemma told_eq_ok {φ : γ → α × Reader} {x : Parse γ} {p : α × Reader} :
    told φ x = .ok p ↔ ∃ v, x = .ok v ∧ φ v = p := by
  cases x <;> simp

/-- What is told as a failure was this failure. -/
lemma told_eq_error {φ : γ → α × Reader} {x : Parse γ} {e : Failure} :
    told φ x = .error e ↔ x = .error e := by
  cases x <;> simp

/-- A method that answers nothing is told by the reader it leaves. -/
lemma silent_eq_ok {x : Parse Reader} {u : Unit} : silent x = .ok (u, r) ↔ x = .ok r := by
  rw [told_eq_ok]
  simp

/-- Telling a sequence is telling its last step. -/
lemma told_bind {φ : γ → α × Reader} {x : Parse β} {g : β → Parse γ} :
    told φ (x >>= g) = x >>= fun v => told φ (g v) := by
  cases x <;> rfl

/-- A method whose accesses are safe goes onward. -/
lemma Ends.onward {m : Method α} {Q : Except Failure α → Reader → Prop} (h : Ends cap Q m r)
    (hr : r.pos ≤ r.text.length) : Ends cap (fun res r' => Q res r' ∧ r.Onward r') m r :=
  h.and_invariant (fun _ _ _ _ hs hd ho => ho.keeps (hd.keeps hs)) ⟨rfl, le_rfl, hr⟩

/-- **The rule of consequence.** -/
lemma Ends.imp {m : Method α} {P Q : Except Failure α → Reader → Prop} (h : Ends cap P m r)
    (hpq : ∀ res r', P res r' → Q res r') : Ends cap Q m r := Program.Within.imp h hpq

/-- **The rule of use.** What a method comes to decides what holds when it is done, and it has
gone onward. -/
theorem Refines.ends {m : Method α} {x : Parse (α × Reader)} (h : Refines cap m r x)
    (hr : r.pos ≤ r.text.length) {Q : Except Failure α → Reader → Prop}
    (hok : ∀ a r', x = .ok (a, r') → r.Onward r' → Q (.ok a) r')
    (herror : ∀ e r', x = .error e → Q (.error e) r') : Ends cap Q m r := by
  refine (Ends.onward h hr).imp ?_
  rintro (e | a) r' ⟨hx, ho⟩
  · exact herror e r' hx
  · exact hok a r' hx ho

/-- After a method that returns, whatever it answers. -/
lemma Refines.ends_answer {m : Method α} {v : α × Reader} (h : Refines cap m r (.ok v))
    (hr : r.pos ≤ r.text.length) {Q : Except Failure α → Reader → Prop}
    (hq : ∀ a r', v = (a, r') → r.Onward r' → Q (.ok a) r') : Ends cap Q m r :=
  h.ends hr (fun a r' hx ho => hq a r' (Except.ok.inj hx) ho) fun _ _ hx => by cases hx

/-- The rule of going on after a method that returns. -/
lemma Refines.ends_ok {m : Method α} {a : α} {r' : Reader} (h : Refines cap m r (.ok (a, r')))
    (hr : r.pos ≤ r.text.length) {Q : Except Failure α → Reader → Prop}
    (hq : r.Onward r' → Q (.ok a) r') : Ends cap Q m r := by
  refine h.ends_answer hr fun b r₁ hv ho => ?_
  obtain ⟨rfl, rfl⟩ := Prod.mk.inj hv
  exact hq ho

/-- **The rule of composition**, where a method answers in other words than the reader of
values. -/
theorem Refines.bind_told {m : Method α} {φ : γ → α × Reader} {x : Parse γ} {f : α → Method β}
    {g : γ → Parse (β × Reader)} (h : Refines cap m r (told φ x)) (hr : r.pos ≤ r.text.length)
    (hf : ∀ v, x = .ok v → r.Onward (φ v).2 → Refines cap (f (φ v).1) (φ v).2 (g v)) :
    Refines cap (m >>= f) r (x >>= g) := by
  rw [Refines, ends_bind]
  refine h.ends hr (fun a r' hx ho => ?_) fun e r' hx => ?_
  · obtain ⟨v, rfl, hv⟩ := told_eq_ok.mp hx
    have hstep := hf v rfl
    rw [hv] at hstep
    exact hstep ho
  · rw [told_eq_error.mp hx]
    rfl

/-- **The rule of composition.** -/
theorem Refines.bind {m : Method α} {x : Parse (α × Reader)} {f : α → Method β}
    {g : α × Reader → Parse (β × Reader)} (h : Refines cap m r x) (hr : r.pos ≤ r.text.length)
    (hf : ∀ a r', x = .ok (a, r') → r.Onward r' → Refines cap (f a) r' (g (a, r'))) :
    Refines cap (m >>= f) r (x >>= g) := by
  refine Refines.bind_told (φ := id) ?_ hr fun v hv ho => hf v.1 v.2 hv ho
  cases x <;> exact h

end Outcomes

/-! ## Loops -/

section Loops

variable {σ S : Type} {r : Reader}

/-- What an iteration came to, where `join` makes a loop state of what the loop carries and the
reader, and `fin` an answer. -/
def stepOutcome (join : σ → Reader → S) (fin : α → Reader → γ)
    (res : Except Failure (Loop.Step σ α)) (r : Reader) : Loop.Step S (Parse γ) :=
  match res with
  | .ok (.done a) => .done (.ok (fin a r))
  | .ok (.more s) => .more (join s r)
  | .error e => .done (.error e)

/-- From `r` and `s`, every access of an iteration is safe; it comes to what the loop body of the
reader of values comes to; and it returns, or keeps `I` and goes forward. -/
def Iterates (cap : ℕ) (I : σ → Reader → Prop) (join : σ → Reader → S) (fin : α → Reader → γ)
    (body : σ → Method (Loop.Step σ α)) (fbody : S → Loop.Step S (Parse γ)) (s : σ)
    (r : Reader) : Prop :=
  Ends cap (fun res r' => fbody (join s r) = stepOutcome join fin res r' ∧
    ∀ s', res = .ok (.more s') → I s' r' ∧ r.pos < r'.pos) (body s) r

/-- **The rule of loops.** Where every iteration returns or goes forward, the loop comes to what
the loop of the reader of values comes to, both within any bound above the bytes left.

**Proof sketch.** Induction on the bound; an iteration that goes round leaves fewer bytes. -/
theorem ends_loop {I : σ → Reader → Prop} {join : σ → Reader → S} {fin : α → Reader → γ}
    {body : σ → Method (Loop.Step σ α)} {fbody : S → Loop.Step S (Parse γ)}
    (hbody : ∀ s r, I s r → r.pos ≤ r.text.length → Iterates cap I join fin body fbody s r) :
    ∀ n m s r, I s r → r.pos ≤ r.text.length → r.text.length - r.pos < n →
      r.text.length - r.pos < m →
      Ends cap (fun res r' => (Loop.run fbody m (join s r)).getD (.error .fault) =
        outcomeBy fin res r') (loop body n s) r := by
  intro n
  induction n with
  | zero => intro m s r _ _ hn; omega
  | succ n ih =>
    intro m s r hI hr hn hm
    obtain ⟨m, rfl⟩ : ∃ k, m = k + 1 := ⟨m - 1, by omega⟩
    rw [loop, ends_bind, ends_pos, onto_ok, ends_bind]
    refine ((hbody s r hI hr).onward hr).imp ?_
    rintro (e | a | s') r' ⟨⟨hstep, hmore⟩, ho⟩
    · rw [Loop.run_of_done hstep]
      rfl
    · rw [Loop.run_of_done hstep]
      rfl
    · obtain ⟨hI', hlt⟩ := hmore s' rfl
      have hle := ho.le_length
      rw [Loop.run_of_more hstep, onto_ok, ends_bind, ends_round]
      rw [ho.text] at hle
      exact ⟨hlt, ih m s' r' hI' ho.le_length (by rw [ho.text]; omega) (by rw [ho.text]; omega)⟩

end Loops

end Method

end Hotpath.Json
