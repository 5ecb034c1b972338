import Hotpath.Json.ScanNumber

set_option relaxedAutoImplicit false
set_option autoImplicit false

/-!
# The number scanner matches the longest number

`scan_number` never goes back: where a number could go on but what follows is no continuation,
it fails although a shorter number ends there. So it accepts a text exactly if a number is a
prefix of it and the text runs into no dead end of the grammar, and then it takes the longest
such prefix. `read_int` keeps the tokens without fraction and exponent that `std::int64_t` holds.

## Main definitions

* `Reader.ahead` — the text after the blanks.

## Main results

* `Reader.scanNumber_fails_iff` — from a prefix that is a number the scanner fails exactly at a
  dead end.
* `Reader.longest_of_ends` — a number that the text after it does not prolong is the longest.
* `Reader.scanNumber_longest_match` — the two methods in terms of the grammar.
-/

namespace Hotpath.Json

open JsonText
open Utf8 (bytes)

/-! ## When the parts fail -/

/-- `scanDigits` fails if no digit comes first. -/
lemma scanDigits_fails (text : Bytes) (pos : ℕ) (message : Bytes) :
    (∃ f, Reader.scanDigits text pos message = .error f) ↔
      ∀ b ∈ (text.drop pos).head?, isDigit b = false := by
  rw [Reader.scanDigits, getElem?_eq_head_drop]
  cases (text.drop pos).head? with
  | none => simp [fail]
  | some c => cases hc : isDigit c <;> simp [hc, fail]

/-- `scanWhole` fails if no digit comes first, or after a zero another digit. -/
lemma scanWhole_fails (text : Bytes) (pos : ℕ) :
    (∃ f, Reader.scanWhole text pos = .error f) ↔
      (∀ b ∈ (text.drop pos).head?, isDigit b = false) ∨
        ∃ d t, text.drop pos = 0x30 :: d :: t ∧ isDigit d = true := by
  have hnext : text[pos + 1]? = (text.drop pos).tail.head? := by
    rw [getElem?_eq_head_drop, ← List.drop_drop, List.drop_one]
  have hzero : isDigit 0x30 = true := by decide
  rw [Reader.scanWhole, hnext, getElem?_eq_head_drop]
  cases text.drop pos with
  | nil => simp [fail]
  | cons c t =>
    by_cases h0 : c = 0x30
    · subst h0
      cases t with
      | nil => simp [hzero]
      | cons d t => cases hd : isDigit d <;> simp [hzero, hd, fail]
    · cases hc : isDigit c <;> simp [hc, h0, fail]

/-- `scanFraction` fails at a point without a digit after it. -/
lemma scanFraction_fails (text : Bytes) (pos : ℕ) :
    (∃ f, Reader.scanFraction text pos = .error f) ↔
      ∃ t, text.drop pos = 0x2E :: t ∧ ∀ b ∈ t.head?, isDigit b = false := by
  rw [Reader.scanFraction, getElem?_eq_head_drop]
  cases hdrop : text.drop pos with
  | nil => simp
  | cons c t =>
    have htail : text.drop (pos + 1) = t := by
      rw [← List.drop_drop, hdrop]
      rfl
    by_cases hc : c = 0x2E
    · have hdigits := scanDigits_fails text (pos + 1) (bytes "no digit after decimal point")
      rw [htail] at hdigits
      simp [hc, bind_eq_error, hdigits]
    · simp [hc]

/-- A text without the sign that it may start with. -/
def unsigned : Bytes → Bytes
  | [] => []
  | c :: t => if c = 0x2B ∨ c = 0x2D then t else c :: t

/-- `skipSign` goes past the sign of an exponent part. -/
lemma drop_skipSign (text : Bytes) (pos : ℕ) :
    text.drop (Reader.skipSign text pos) = unsigned (text.drop pos) := by
  rw [Reader.skipSign, getElem?_eq_head_drop]
  cases hdrop : text.drop pos with
  | nil => exact hdrop
  | cons c t =>
    dsimp only [List.head?_cons, unsigned]
    split_ifs
    · rw [← List.drop_drop, hdrop]
      rfl
    · exact hdrop

/-- No signed digit comes first if after the sign no digit does. -/
lemma no_signed_digit_iff (t : Bytes) :
    (∀ s d u, t = signText s ++ d :: u → isDigit d = false) ↔
      ∀ b ∈ (unsigned t).head?, isDigit b = false := by
  cases t with
  | nil => simp [unsigned]
  | cons c t =>
    constructor
    · intro h
      dsimp only [unsigned]
      split_ifs with hc
      · intro b hb
        obtain ⟨u, rfl⟩ := List.head?_eq_some_iff.mp hb
        rcases hc with rfl | rfl
        · exact h (some false) b u rfl
        · exact h (some true) b u rfl
      · intro b hb
        obtain rfl := Option.some.inj hb
        exact h none c t rfl
    · intro h s d u heq
      dsimp only [unsigned] at h
      cases s with
      | none =>
        obtain ⟨rfl, rfl⟩ := List.cons.inj heq
        split_ifs at h with hc
        · rcases hc with rfl | rfl <;> rfl
        · exact h c rfl
      | some minus =>
        have hc : c = 0x2B ∨ c = 0x2D := by
          cases minus
          · exact Or.inl (List.cons.inj heq).1
          · exact Or.inr (List.cons.inj heq).1
        rw [if_pos hc] at h
        have ht : t = d :: u := by cases minus <;> exact (List.cons.inj heq).2
        exact h d (by rw [ht]; rfl)

/-- `scanExponent` fails at a marker without a digit after it, signed or not. -/
lemma scanExponent_fails (text : Bytes) (pos : ℕ) :
    (∃ f, Reader.scanExponent text pos = .error f) ↔
      ∃ c t, text.drop pos = c :: t ∧ (c = 0x65 ∨ c = 0x45) ∧
        ∀ s d u, t = signText s ++ d :: u → isDigit d = false := by
  rw [Reader.scanExponent, getElem?_eq_head_drop]
  cases hdrop : text.drop pos with
  | nil => simp
  | cons c t =>
    have htail : text.drop (pos + 1) = t := by
      rw [← List.drop_drop, hdrop]
      rfl
    by_cases hc : c = 0x65 ∨ c = 0x45
    · have hdigits := scanDigits_fails text (Reader.skipSign text (pos + 1))
        (bytes "no digit after exponent")
      rw [drop_skipSign, htail, ← no_signed_digit_iff] at hdigits
      simp only [List.head?_cons, if_pos hc, bind_eq_error, reduceCtorEq, and_false, exists_false,
        or_false, hdigits, List.cons.injEq]
      constructor
      · intro h
        exact ⟨c, t, ⟨rfl, rfl⟩, hc, h⟩
      · rintro ⟨_, _, ⟨rfl, rfl⟩, -, h⟩
        exact h
    · constructor
      · rintro ⟨f, h⟩
        simp [hc] at h
      · rintro ⟨_, _, heq, hc', -⟩
        obtain ⟨rfl, rfl⟩ := List.cons.inj heq
        exact absurd hc' hc

namespace Reader

/-! ## Dead ends -/

/-- The scanner fails if one of its parts does after the ones before. -/
private lemma scanNumber_fails_parts {r : Reader} {w t : Bytes} {n : Number}
    (h : r.rest = w ++ (n.render ++ t)) (hw : Blank w) :
    ∃ p, r.text.drop p = n.whole ++ (fractionText n.fraction ++ (exponentText n.exponent ++ t)) ∧
      ((∃ f, r.scanNumber = .error f) ↔ (∃ f, scanWhole r.text p = .error f) ∨
        ∃ p₁, scanWhole r.text p = .ok p₁ ∧ ((∃ f, scanFraction r.text p₁ = .error f) ∨
          ∃ p₂ b, scanFraction r.text p₁ = .ok (p₂, b) ∧
            ∃ f, scanExponent r.text p₂ = .error f)) := by
  obtain ⟨p, -, hdrop, hscan⟩ := scanNumber_start h hw
  refine ⟨p, hdrop, ?_⟩
  rw [hscan]
  constructor
  · rintro ⟨f, hf⟩
    rcases bind_eq_error.mp hf with hf | ⟨p₁, h₁, hf⟩
    · exact Or.inl ⟨f, hf⟩
    · rcases bind_eq_error.mp hf with hf | ⟨⟨p₂, b⟩, h₂, hf⟩
      · exact Or.inr ⟨p₁, h₁, Or.inl ⟨f, hf⟩⟩
      · rcases bind_eq_error.mp hf with hf | ⟨_, -, hf⟩
        · exact Or.inr ⟨p₁, h₁, Or.inr ⟨p₂, b, h₂, f, hf⟩⟩
        · cases hf
  · rintro (⟨f, hf⟩ | ⟨p₁, h₁, ⟨f, hf⟩ | ⟨p₂, b, h₂, f, hf⟩⟩)
    · exact ⟨f, bind_eq_error.mpr (Or.inl hf)⟩
    · exact ⟨f, bind_eq_error.mpr (Or.inr ⟨p₁, h₁, bind_eq_error.mpr (Or.inl hf)⟩)⟩
    · refine ⟨f, bind_eq_error.mpr (Or.inr ⟨p₁, h₁, bind_eq_error.mpr (Or.inr ⟨_, h₂, ?_⟩)⟩)⟩
      exact bind_eq_error.mpr (Or.inl hf)

/-- A number and the text after it, in parts. -/
private lemma render_append (n : Number) (t : Bytes) :
    n.render ++ t = (if n.negative then [0x2D] else []) ++
      (n.whole ++ (fractionText n.fraction ++ (exponentText n.exponent ++ t))) := by
  simp only [Number.render, List.append_assoc]

/-- A failure after a prefix that is a number is at a dead end: the parts that are passed before
it make up the number that the dead end starts with. -/
private lemma deadEnd_of_fails {r : Reader} {w t : Bytes} {n : Number}
    (h : r.rest = w ++ (n.render ++ t)) (hw : Blank w) (hf : ∃ f, r.scanNumber = .error f) :
    Number.DeadEnd (n.render ++ t) := by
  obtain ⟨p, hdrop, hiff⟩ := scanNumber_fails_parts h hw
  have htext : n.render ++ t = (if n.negative then [0x2D] else []) ++ r.text.drop p := by
    rw [hdrop, render_append]
  rcases hiff.mp hf with hwhole | ⟨p₁, h₁, hrest⟩
  · rcases (scanWhole_fails _ _).mp hwhole with hhead | ⟨d, u, hu, hd⟩
    · -- a number has a digit there
      cases hn : n.whole with
      | nil => exact absurd hn n.whole_ne
      | cons d ds =>
        have hd : isDigit d = true := n.whole_ok d (by simp [hn])
        rw [hdrop, hn] at hhead
        exact absurd (hhead d rfl) (by simp [hd])
    · let zero : Number := ⟨n.negative, [0x30], none, none, by unfold Digits; decide, by decide,
        by simp, by simp, by simp⟩
      have heq : n.render ++ t = zero.render ++ d :: u := by
        rw [htext, hu, render_append]
        rfl
      rw [heq]
      exact Number.DeadEnd.leadingZero rfl rfl rfl hd
  · obtain ⟨ds, t₁, hdrop₁, hds, hne, hlead, hstop, rfl⟩ := scanWhole_ok h₁
    have ht₁ : r.text.drop (p + ds.length) = t₁ := by
      rw [← List.drop_drop, hdrop₁, List.drop_left]
    rcases hrest with hfraction | ⟨p₂, b, h₂, hexponent⟩
    · obtain ⟨u, hu, hhead⟩ := (scanFraction_fails _ _).mp hfraction
      let whole : Number := ⟨n.negative, ds, none, none, hds, hne, hlead, by simp, by simp⟩
      have heq : n.render ++ t = whole.render ++ 0x2E :: u := by
        rw [htext, hdrop₁, ← ht₁, hu, render_append]
        rfl
      rw [heq]
      exact Number.DeadEnd.point rfl rfl hhead
    · obtain ⟨f, t₂, hdrop₂, hfne, hfd, -, rfl, -⟩ := scanFraction_ok h₂
      have ht₂ : r.text.drop (p + ds.length + (fractionText f).length) = t₂ := by
        rw [← List.drop_drop, hdrop₂, List.drop_left]
      obtain ⟨c, u, hu, hc, hhead⟩ := (scanExponent_fails _ _).mp hexponent
      let plain : Number := ⟨n.negative, ds, f, none, hds, hne, hlead, hfne, hfd⟩
      have heq : n.render ++ t = plain.render ++ c :: u := by
        rw [htext, hdrop₁, ← ht₁, hdrop₂, ← ht₂, hu, render_append]
        rfl
      rw [heq]
      exact Number.DeadEnd.marker rfl hc hhead

/-- At a dead end the scanner fails: it passes the parts of the number before it. -/
private lemma fails_of_deadEnd {r : Reader} {w t : Bytes} (h : r.rest = w ++ t) (hw : Blank w)
    (hd : Number.DeadEnd t) : ∃ f, r.scanNumber = .error f := by
  cases hd with
  | @leadingZero n d u hwhole hf he hd =>
    obtain ⟨p, hdrop, hiff⟩ := scanNumber_fails_parts h hw
    rw [hwhole, hf, he] at hdrop
    exact hiff.mpr (Or.inl ((scanWhole_fails _ _).mpr (Or.inr ⟨d, u, hdrop, hd⟩)))
  | @point n u hf he hu =>
    obtain ⟨p, hdrop, hiff⟩ := scanNumber_fails_parts h hw
    rw [hf, he] at hdrop
    have hwhole := scanWhole_of (t := 0x2E :: u) hdrop n.whole_ok n.whole_ne n.whole_lead (by
      intro b hb
      obtain rfl := Option.some.inj hb
      rfl)
    refine hiff.mpr (Or.inr ⟨_, hwhole, Or.inl ((scanFraction_fails _ _).mpr ⟨u, ?_, hu⟩)⟩)
    rw [← List.drop_drop, hdrop, List.drop_left]
    rfl
  | @marker n c u he hc hu =>
    obtain ⟨p, hdrop, hiff⟩ := scanNumber_fails_parts h hw
    rw [he] at hdrop
    have hmark : isDigit c = false ∧ c ≠ 0x2E := by rcases hc with rfl | rfl <;> decide
    have hwhole := scanWhole_of (t := fractionText n.fraction ++ c :: u) hdrop n.whole_ok
      n.whole_ne n.whole_lead (by
        intro b hb
        cases hf : n.fraction with
        | none =>
          rw [hf] at hb
          obtain rfl := Option.some.inj hb
          exact hmark.1
        | some f =>
          rw [hf] at hb
          obtain rfl := Option.some.inj hb
          rfl)
    have hdrop₁ : r.text.drop (p + n.whole.length) = fractionText n.fraction ++ c :: u := by
      rw [← List.drop_drop, hdrop, List.drop_left]
      rfl
    have hfraction := scanFraction_of hdrop₁ n.fraction_ne n.fraction_ok (by
      intro b hb
      obtain rfl := Option.some.inj hb
      exact ⟨fun _ => hmark.2, fun _ => hmark.1⟩)
    refine hiff.mpr (Or.inr ⟨_, hwhole, Or.inr ⟨_, _, hfraction, ?_⟩⟩)
    refine (scanExponent_fails _ _).mpr ⟨c, u, ?_, hc, hu⟩
    rw [← List.drop_drop, hdrop₁, List.drop_left]

/-- **After a prefix that is a number the scanner fails exactly at a dead end.** -/
theorem scanNumber_fails_iff {r : Reader} {w t : Bytes} {n : Number}
    (h : r.rest = w ++ (n.render ++ t)) (hw : Blank w) :
    (∃ f, r.scanNumber = .error f) ↔ Number.DeadEnd (n.render ++ t) :=
  ⟨deadEnd_of_fails h hw, fails_of_deadEnd h hw⟩

/-! ## The longest number -/

/-- The number that a text is, is the only reading of the text as a number: the scanner yields
its token and whether it is integral. -/
lemma integral_of_render_eq {m n : Number} (h : m.render = n.render) : m.integral = n.integral := by
  have hm := scanNumber_of (r := ofText m.render) (w := []) (t := []) (n := m) (by simp)
    blank_nil (by simp [Number.Ends])
  have hn := scanNumber_of (r := ofText m.render) (w := []) (t := []) (n := n) (by simp [h])
    blank_nil (by simp [Number.Ends])
  rw [hm] at hn
  simp only [Except.ok.injEq, Prod.mk.injEq] at hn
  exact hn.1.2

/-- **A number that the text after it does not prolong is the longest there.** A longer one, read
on its own, would yield both. -/
theorem longest_of_ends {m n : Number} {t u : Bytes} (hn : n.Ends t)
    (h : n.render ++ t = m.render ++ u) : m.render.length ≤ n.render.length := by
  by_contra hlt
  rcases List.append_eq_append_iff.mp h with ⟨x, hx, rfl⟩ | ⟨x, hx, -⟩
  · have hends : n.Ends x := by
      intro b hb
      obtain ⟨x', rfl⟩ := List.head?_eq_some_iff.mp hb
      exact hn b rfl
    have hscanm := scanNumber_of (r := ofText m.render) (w := []) (t := []) (n := m) (by simp)
      blank_nil (by simp [Number.Ends])
    have hscann := scanNumber_of (r := ofText m.render) (w := []) (t := x) (n := n)
      (by simp [hx]) blank_nil hends
    rw [hscanm] at hscann
    simp only [Except.ok.injEq, Prod.mk.injEq] at hscann
    rw [hscann.1.1] at hlt
    exact hlt le_rfl
  · rw [hx, List.length_append] at hlt
    omega

/-- The text after the blanks. -/
def ahead (r : Reader) : Bytes := r.rest.dropWhile isSpace

/-- The blanks before the text that is ahead. -/
def blanks (r : Reader) : Bytes := r.rest.takeWhile isSpace

/-- What is ahead is blanks, and the text after them. -/
lemma rest_eq_blanks (r : Reader) : r.rest = r.blanks ++ r.ahead :=
  List.takeWhile_append_dropWhile.symm

/-- The blanks are blank. -/
lemma blank_blanks (r : Reader) : Blank r.blanks := fun _ hb => List.mem_takeWhile_imp hb

/-- What is scanned lies after the blanks. -/
lemma ahead_of_scanNumber {r r' : Reader} {tok : Bytes} {i : Bool}
    (h : r.scanNumber = .ok ((tok, i), r')) :
    ∃ n : Number, r.ahead = n.render ++ r'.rest ∧ n.Ends r'.rest ∧ tok = n.render ∧
      i = n.integral ∧ r' = r.adv (r.blanks.length + tok.length) := by
  obtain ⟨w, n, hw, hr, hends, rfl, rfl, rfl⟩ := scanNumber_ok h
  obtain ⟨c, t, hn, hc⟩ := n.head_render
  have hspace : isSpace c = false := by
    rcases hc with rfl | hc
    · rfl
    · exact isSpace_of_isDigit hc
  have hblanks : r.blanks = w := by
    rw [blanks, hr, hn]
    exact takeWhile_run hw (by simpa using hspace)
  have hahead : r.ahead = n.render ++ (r.adv (w.length + n.render.length)).rest := by
    rw [← List.append_cancel_left_eq w, ← hr, ← hblanks, ← rest_eq_blanks]
  exact ⟨n, hahead, hends, rfl, rfl, by rw [hblanks]⟩

/-- `read_int` keeps the integral tokens whose value `std::int64_t` holds. -/
lemma readInt_iff {r r' : Reader} {v : Int64} :
    r.readInt = .ok (v, r') ↔ ∃ n : Number, r.scanNumber = .ok ((n.render, true), r') ∧
      -2 ^ 63 ≤ n.intValue ∧ n.intValue ≤ 2 ^ 63 - 1 ∧ v.toInt = n.intValue := by
  constructor
  · intro h
    obtain ⟨⟨⟨tok, i⟩, r₁⟩, hscan, -⟩ := bind_eq_ok.mp h
    obtain ⟨n, -, -, rfl, rfl, -⟩ := ahead_of_scanNumber hscan
    rw [readInt_scanned hscan] at h
    split_ifs at h with hi hrange
    · simp at h
    · simp only [Except.ok.injEq, Prod.mk.injEq] at h
      obtain ⟨rfl, rfl⟩ := h
      rw [Bool.not_eq_false] at hi
      rw [hi] at hscan
      exact ⟨n, hscan, hrange.1, hrange.2, Int64.toInt_ofInt_of_le hrange.1 (by omega)⟩
    · simp at h
  · rintro ⟨n, hscan, hlo, hhi, hv⟩
    obtain ⟨m, -, -, hm, hi, -⟩ := ahead_of_scanNumber hscan
    have hn : n.integral = true := by rw [integral_of_render_eq hm, ← hi]
    have hvalue : Int64.ofInt n.intValue = v := by rw [← hv, Int64.ofInt_toInt]
    rw [← hn] at hscan
    rw [readInt_scanned hscan, if_neg (by simp [hn]), if_pos ⟨hlo, hhi⟩, hvalue]

/-- **The two number methods implement JSON's grammar by longest match.** From any position of
any text `scan_number` succeeds iff a number is a prefix of what follows the blanks and that text
runs into no dead end; the token is then the longest such prefix, and integral iff it has neither
fraction nor exponent. `read_int` succeeds exactly on the integral tokens whose value
`std::int64_t` holds, with that value, and calls every other one out of range. -/
theorem scanNumber_longest_match (r : Reader) :
    ((∃ tok i r', r.scanNumber = .ok ((tok, i), r')) ↔
      (∃ (n : Number) (t : Bytes), r.ahead = n.render ++ t) ∧ ¬ Number.DeadEnd r.ahead) ∧
    (∀ tok i r', r.scanNumber = .ok ((tok, i), r') →
      r' = r.adv (r.blanks.length + tok.length) ∧
      (∃ (n : Number) (t : Bytes), r.ahead = n.render ++ t ∧ tok = n.render) ∧
      (∀ (n : Number) (t : Bytes), r.ahead = n.render ++ t → n.render.length ≤ tok.length) ∧
      ∀ n : Number, tok = n.render → (i = true ↔ n.fraction = none ∧ n.exponent = none)) ∧
    (∀ v r', r.readInt = .ok (v, r') ↔ ∃ n : Number, r.scanNumber = .ok ((n.render, true), r') ∧
      -2 ^ 63 ≤ n.intValue ∧ n.intValue ≤ 2 ^ 63 - 1 ∧ v.toInt = n.intValue) ∧
    ∀ (n : Number) r', r.scanNumber = .ok ((n.render, true), r') →
      ¬ (-2 ^ 63 ≤ n.intValue ∧ n.intValue ≤ 2 ^ 63 - 1) →
      r.readInt = .error (.error ⟨.outOfRange, bytes "integer out of range: " ++ n.render⟩) := by
  refine ⟨?_, ?_, fun v r' => readInt_iff, ?_⟩
  · constructor
    · rintro ⟨tok, i, r', h⟩
      obtain ⟨n, hahead, -⟩ := ahead_of_scanNumber h
      refine ⟨⟨n, _, hahead⟩, fun hd => ?_⟩
      obtain ⟨f, hf⟩ := fails_of_deadEnd r.rest_eq_blanks r.blank_blanks hd
      rw [hf] at h
      cases h
    · rintro ⟨⟨n, t, hahead⟩, hd⟩
      have hr : r.rest = r.blanks ++ (n.render ++ t) := by rw [← hahead, ← rest_eq_blanks]
      cases h : r.scanNumber with
      | ok p => exact ⟨p.1.1, p.1.2, p.2, rfl⟩
      | error f =>
        rw [hahead] at hd
        exact absurd ((scanNumber_fails_iff hr r.blank_blanks).mp ⟨f, h⟩) hd
  · intro tok i r' h
    obtain ⟨m, hahead, hends, rfl, rfl, hr'⟩ := ahead_of_scanNumber h
    refine ⟨hr', ⟨m, _, hahead, rfl⟩, fun n t hn => longest_of_ends hends (hahead.symm.trans hn),
      fun n hn => ?_⟩
    rw [integral_of_render_eq hn, Number.integral, Bool.and_eq_true, Option.isNone_iff_eq_none,
      Option.isNone_iff_eq_none]
  · intro n r' h hrange
    obtain ⟨m, -, -, hm, hi, -⟩ := ahead_of_scanNumber h
    have hn : n.integral = true := by rw [integral_of_render_eq hm, ← hi]
    rw [← hn] at h
    rw [readInt_scanned h, if_neg (by simp [hn]), if_neg hrange]
    rfl

end Reader

end Hotpath.Json
