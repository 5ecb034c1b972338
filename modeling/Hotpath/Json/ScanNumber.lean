import Hotpath.Json.Cursor

set_option relaxedAutoImplicit false
set_option autoImplicit false

/-!
# The number scanner reads the number tokens

`scan_number` returns exactly the number tokens of `JsonText.Number`, the longest one that the
text starts with. Each part of the scanner has a forward lemma, an inversion lemma and a lemma
about its errors; the three theorems about `scanNumber` are assembled from them.

## Main results

* `Reader.scanNumber_of` — a number token that the following text does not prolong is scanned.
* `Reader.scanNumber_ok` — what is scanned is such a token.
* `Reader.scanNumber_error` — the scanner's errors are legible and quote nothing.
* `Reader.readInt_scanned` — what `read_int` makes of the token.
-/

namespace Hotpath.Json

open JsonText
open Utf8 (bytes)

/-! ## Digit runs -/

/-- A text is its leading digits and what follows them. -/
private lemma exists_digits (t : Bytes) :
    ∃ ds u, Digits ds ∧ t = ds ++ u ∧ (∀ b ∈ u.head?, isDigit b = false) ∧
      (∀ d u', t = d :: u' → isDigit d = true → ds ≠ []) := by
  refine ⟨t.takeWhile isDigit, t.dropWhile isDigit, fun b hb => List.mem_takeWhile_imp hb,
    List.takeWhile_append_dropWhile.symm, fun b hb => ?_, ?_⟩
  · have h := List.head?_dropWhile_not isDigit t
    rw [Option.mem_def.mp hb] at h
    simpa using h
  · rintro d u' rfl hd
    simp [hd]

/-- The byte at a position is the head of the text from there. -/
lemma getElem?_eq_head_drop (text : Bytes) (pos : ℕ) : text[pos]? = (text.drop pos).head? := by
  rw [List.head?_eq_getElem?, List.getElem?_drop, Nat.add_zero]

/-- `scanDigits` passes a run of digits. -/
lemma scanDigits_of {text ds t : Bytes} {pos : ℕ} {message : Bytes}
    (h : text.drop pos = ds ++ t) (hds : Digits ds) (hne : ds ≠ [])
    (ht : ∀ b ∈ t.head?, isDigit b = false) :
    Reader.scanDigits text pos message = .ok (pos + ds.length) := by
  cases hc : ds with
  | nil => exact absurd hc hne
  | cons d ds' =>
    have hd : isDigit d = true := hds d (by simp [hc])
    rw [Reader.scanDigits, getElem?_eq_head_drop, advanceWhile_of h hds ht, h, hc]
    simp [hd]

/-- `scanDigits` passes nothing else. -/
lemma scanDigits_ok {text : Bytes} {pos pos' : ℕ} {message : Bytes}
    (h : Reader.scanDigits text pos message = .ok pos') :
    ∃ ds t, text.drop pos = ds ++ t ∧ Digits ds ∧ ds ≠ [] ∧
      (∀ b ∈ t.head?, isDigit b = false) ∧ pos' = pos + ds.length := by
  obtain ⟨ds, t, hds, hdrop, ht, hne⟩ := exists_digits (text.drop pos)
  refine ⟨ds, t, hdrop, hds, ?_, ht, ?_⟩
  · rintro rfl
    rw [Reader.scanDigits, getElem?_eq_head_drop, hdrop] at h
    cases t with
    | nil => simp at h
    | cons b t => simp [ht b rfl] at h
  · rw [Reader.scanDigits, advanceWhile_of hdrop hds ht] at h
    split at h
    · simp at h
    · split_ifs at h
      · simpa using h.symm
      · simp at h

/-- The error of `scanDigits` is the one it is given. -/
lemma scanDigits_error {text : Bytes} {pos : ℕ} {message : Bytes} (hm : Legible message)
    {f : Failure} (h : Reader.scanDigits text pos message = .error f) : f.Plain := by
  rw [Reader.scanDigits] at h
  split at h
  · exact plain_of_fail hm h
  · split_ifs at h
    exact plain_of_fail hm h

/-! ## The parts of a number -/

/-- `scanWhole` passes an integer part. -/
lemma scanWhole_of {text ds t : Bytes} {pos : ℕ} (h : text.drop pos = ds ++ t)
    (hds : Digits ds) (hne : ds ≠ []) (hlead : ∀ d u, ds = d :: u → d = 0x30 → u = [])
    (ht : ∀ b ∈ t.head?, isDigit b = false) :
    Reader.scanWhole text pos = .ok (pos + ds.length) := by
  cases hc : ds with
  | nil => exact absurd hc hne
  | cons d ds' =>
    have hd : isDigit d = true := hds d (by simp [hc])
    have hnext : text[pos + 1]? = (ds' ++ t).head? := by
      rw [getElem?_eq_head_drop, ← List.drop_drop, h, hc]
      rfl
    rw [Reader.scanWhole, advanceWhile_of h hds ht, getElem?_eq_head_drop, h, hc]
    simp only [List.cons_append, List.head?_cons, hd, not_true_eq_false, if_false]
    split_ifs with h0
    · obtain rfl := hlead d ds' hc h0
      rw [hnext, List.nil_append]
      cases t with
      | nil => rfl
      | cons b t => simp [ht b rfl]
    · rfl

/-- `scanWhole` passes nothing else. -/
lemma scanWhole_ok {text : Bytes} {pos pos' : ℕ} (h : Reader.scanWhole text pos = .ok pos') :
    ∃ ds t, text.drop pos = ds ++ t ∧ Digits ds ∧ ds ≠ [] ∧
      (∀ d u, ds = d :: u → d = 0x30 → u = []) ∧ (∀ b ∈ t.head?, isDigit b = false) ∧
      pos' = pos + ds.length := by
  have hnext : text[pos + 1]? = (text.drop pos).tail.head? := by
    rw [getElem?_eq_head_drop, ← List.drop_drop, List.drop_one]
  obtain ⟨ds, t, hds, hdrop, ht, -⟩ := exists_digits (text.drop pos)
  rw [Reader.scanWhole, advanceWhile_of hdrop hds ht, hnext, getElem?_eq_head_drop, hdrop] at h
  cases ds with
  | nil =>
    cases t with
    | nil => simp at h
    | cons b t => simp [ht b rfl] at h
  | cons d ds =>
    have hd : isDigit d = true := hds d (by simp)
    simp only [List.cons_append, List.head?_cons, hd, not_true_eq_false, if_false,
      List.tail_cons] at h
    split_ifs at h with h0
    · -- a leading zero stands alone
      have hnil : ds = [] := by
        cases ds with
        | nil => rfl
        | cons e ds =>
          have he : isDigit e = true := hds e (by simp)
          simp [he] at h
      subst hnil
      refine ⟨[d], t, hdrop, hds, by simp, by simp, ht, ?_⟩
      cases t with
      | nil => simpa using h.symm
      | cons b t => simpa [ht b rfl] using h.symm
    · refine ⟨d :: ds, t, hdrop, hds, by simp, ?_, ht, by simpa using h.symm⟩
      rintro d' u heq rfl
      simp only [List.cons.injEq] at heq
      exact absurd heq.1 h0

/-- The errors of `scanWhole`. -/
lemma scanWhole_error {text : Bytes} {pos : ℕ} {f : Failure}
    (h : Reader.scanWhole text pos = .error f) : f.Plain := by
  rw [Reader.scanWhole] at h
  split at h
  · exact plain_of_fail (by decide) h
  · split_ifs at h
    · split at h
      · cases h
      · split_ifs at h
        exact plain_of_fail (by decide) h
    · exact plain_of_fail (by decide) h

/-- What follows a fraction part does not prolong it. -/
def StopsFraction (f : Option Bytes) (t : Bytes) : Prop :=
  ∀ b ∈ t.head?, (f = none → b ≠ 0x2E) ∧ (f ≠ none → isDigit b = false)

/-- `scanFraction` passes a fraction part, empty or not. -/
lemma scanFraction_of {text t : Bytes} {pos : ℕ} {f : Option Bytes}
    (h : text.drop pos = fractionText f ++ t) (hne : ∀ ds, f = some ds → ds ≠ [])
    (hds : ∀ ds, f = some ds → Digits ds) (ht : StopsFraction f t) :
    Reader.scanFraction text pos = .ok (pos + (fractionText f).length, f.isSome) := by
  rw [Reader.scanFraction, getElem?_eq_head_drop, h]
  cases f with
  | none =>
    cases t with
    | nil => rfl
    | cons b t => simp [fractionText, (ht b rfl).1 rfl]
  | some ds =>
    have hdrop : text.drop (pos + 1) = ds ++ t := by
      rw [← List.drop_drop, h]
      rfl
    have hstop : ∀ b ∈ t.head?, isDigit b = false := fun b hb => (ht b hb).2 (by simp)
    simp only [fractionText, List.cons_append, List.head?_cons, if_true]
    rw [scanDigits_of hdrop (hds ds rfl) (hne ds rfl) hstop]
    simp [Nat.add_comm, Nat.add_left_comm]

/-- `scanFraction` passes nothing else. -/
lemma scanFraction_ok {text : Bytes} {pos pos' : ℕ} {b : Bool}
    (h : Reader.scanFraction text pos = .ok (pos', b)) :
    ∃ f t, text.drop pos = fractionText f ++ t ∧ (∀ ds, f = some ds → ds ≠ []) ∧
      (∀ ds, f = some ds → Digits ds) ∧ StopsFraction f t ∧
      pos' = pos + (fractionText f).length ∧ b = f.isSome := by
  rw [Reader.scanFraction, getElem?_eq_head_drop] at h
  cases hd : text.drop pos with
  | nil =>
    simp only [hd, List.head?_nil, Except.ok.injEq, Prod.mk.injEq] at h
    exact ⟨none, [], by simp [fractionText], by simp, by simp, by simp [StopsFraction],
      by simp [fractionText, h.1], by simp [h.2]⟩
  | cons c t =>
    simp only [hd, List.head?_cons] at h
    split_ifs at h with hc
    · subst hc
      obtain ⟨p, hp, hres⟩ := bind_eq_ok.mp h
      obtain ⟨ds, t', hdrop, hds, hne, hstop, rfl⟩ := scanDigits_ok hp
      simp only [Except.ok.injEq, Prod.mk.injEq] at hres
      have htail : t = ds ++ t' := by
        rw [← hdrop, ← List.drop_drop, hd]
        rfl
      refine ⟨some ds, t', by simp [fractionText, htail], ?_, ?_, ?_, ?_, by simp [hres.2]⟩
      · rintro _ ⟨⟩
        exact hne
      · rintro _ ⟨⟩
        exact hds
      · exact fun b hb => ⟨by simp, fun _ => hstop b hb⟩
      · simp only [fractionText, List.length_cons]
        omega
    · simp only [Except.ok.injEq, Prod.mk.injEq] at h
      refine ⟨none, c :: t, by simp [fractionText], by simp, by simp, ?_,
        by simp [fractionText, h.1], by simp [h.2]⟩
      intro b hb
      obtain rfl : c = b := by simpa using hb
      exact ⟨fun _ => hc, by simp⟩

/-- The errors of `scanFraction`. -/
lemma scanFraction_error {text : Bytes} {pos : ℕ} {f : Failure}
    (h : Reader.scanFraction text pos = .error f) : f.Plain := by
  rw [Reader.scanFraction] at h
  split at h
  · cases h
  · split_ifs at h
    rcases bind_eq_error.mp h with h | ⟨p, -, h⟩
    · exact scanDigits_error (by decide) h
    · cases h

/-- What follows an exponent part does not prolong it. -/
def StopsExponent (e : Option Exponent) (t : Bytes) : Prop :=
  ∀ b ∈ t.head?, (e = none → b ≠ 0x65 ∧ b ≠ 0x45) ∧ (e ≠ none → isDigit b = false)

/-- `skipSign` passes the sign of an exponent. -/
lemma skipSign_of {text t ds : Bytes} {pos : ℕ} {s : Option Bool}
    (h : text.drop pos = signText s ++ (ds ++ t)) (hds : Digits ds) (hne : ds ≠ []) :
    Reader.skipSign text pos = pos + (signText s).length := by
  rw [Reader.skipSign, getElem?_eq_head_drop, h]
  rcases s with _ | _ | _
  · cases ds with
    | nil => exact absurd rfl hne
    | cons d ds =>
      have hd := hds d (by simp)
      have hd' : ¬ (d = 0x2B ∨ d = 0x2D) := by
        rintro (rfl | rfl) <;> exact absurd hd (by decide)
      simp [signText, hd']
  · simp [signText]
  · simp [signText]

/-- `skipSign` passes a sign or nothing. -/
lemma skipSign_cases (text : Bytes) (pos : ℕ) :
    ∃ s t, text.drop pos = signText s ++ t ∧
      Reader.skipSign text pos = pos + (signText s).length := by
  rw [Reader.skipSign, getElem?_eq_head_drop]
  cases text.drop pos with
  | nil => exact ⟨none, [], by simp [signText], by simp [signText]⟩
  | cons c t =>
    by_cases h1 : c = 0x2B
    · exact ⟨some false, t, by simp [signText, h1], by simp [signText, h1]⟩
    · by_cases h2 : c = 0x2D
      · exact ⟨some true, t, by simp [signText, h2], by simp [signText, h2]⟩
      · exact ⟨none, c :: t, by simp [signText], by simp [signText, h1, h2]⟩

/-- `scanExponent` passes an exponent part, empty or not. -/
lemma scanExponent_of {text t : Bytes} {pos : ℕ} {e : Option Exponent}
    (h : text.drop pos = exponentText e ++ t) (ht : StopsExponent e t) :
    Reader.scanExponent text pos = .ok (pos + (exponentText e).length, e.isSome) := by
  rw [Reader.scanExponent, getElem?_eq_head_drop, h]
  cases e with
  | none =>
    cases t with
    | nil => rfl
    | cons b t => simp [exponentText, (ht b rfl).1 rfl]
  | some e =>
    have hmark : (if e.upper then (0x45 : UInt8) else 0x65) = 0x65 ∨
        (if e.upper then (0x45 : UInt8) else 0x65) = 0x45 := by
      cases e.upper <;> simp
    have hdrop : text.drop (pos + 1) = signText e.sign ++ (e.digits ++ t) := by
      rw [← List.drop_drop, h]
      simp [exponentText, Exponent.render]
    have hdrop' : text.drop (pos + 1 + (signText e.sign).length) = e.digits ++ t := by
      rw [← List.drop_drop, hdrop, List.drop_left]
    have hstop : ∀ b ∈ t.head?, isDigit b = false := fun b hb => (ht b hb).2 (by simp)
    simp only [exponentText, Exponent.render, List.cons_append, List.head?_cons, if_pos hmark]
    rw [skipSign_of hdrop e.digits_ok e.digits_ne,
      scanDigits_of hdrop' e.digits_ok e.digits_ne hstop]
    simp only [ok_bind, List.length_cons, List.length_append, Option.isSome_some, Except.ok.injEq,
      Prod.mk.injEq, and_true]
    omega

/-- `scanExponent` passes nothing else. -/
lemma scanExponent_ok {text : Bytes} {pos pos' : ℕ} {b : Bool}
    (h : Reader.scanExponent text pos = .ok (pos', b)) :
    ∃ e t, text.drop pos = exponentText e ++ t ∧ StopsExponent e t ∧
      pos' = pos + (exponentText e).length ∧ b = e.isSome := by
  rw [Reader.scanExponent, getElem?_eq_head_drop] at h
  cases hd : text.drop pos with
  | nil =>
    simp only [hd, List.head?_nil, Except.ok.injEq, Prod.mk.injEq] at h
    exact ⟨none, [], by simp [exponentText], by simp [StopsExponent],
      by simp [exponentText, h.1], by simp [h.2]⟩
  | cons c t =>
    simp only [hd, List.head?_cons] at h
    split_ifs at h with hc
    · obtain ⟨p, hp, hres⟩ := bind_eq_ok.mp h
      obtain ⟨s, t₁, hdrop₁, hsign⟩ := skipSign_cases text (pos + 1)
      rw [hsign] at hp
      obtain ⟨ds, t', hdrop, hds, hne, hstop, rfl⟩ := scanDigits_ok hp
      simp only [Except.ok.injEq, Prod.mk.injEq] at hres
      have htail : t = signText s ++ t₁ := by
        rw [← hdrop₁, ← List.drop_drop, hd]
        rfl
      have htail₁ : t₁ = ds ++ t' := by
        rw [← hdrop, ← List.drop_drop, hdrop₁, List.drop_left]
      have hmark : (if decide (c = 0x45) then (0x45 : UInt8) else 0x65) = c := by
        rcases hc with rfl | rfl <;> decide
      refine ⟨some ⟨decide (c = 0x45), s, ds, hne, hds⟩, t', ?_, ?_, ?_, by simp [hres.2]⟩
      · simp only [exponentText, Exponent.render, hmark, htail, htail₁, List.cons_append,
          List.append_assoc]
      · exact fun b hb => ⟨by simp, fun _ => hstop b hb⟩
      · simp only [exponentText, Exponent.render, List.length_cons, List.length_append]
        omega
    · simp only [Except.ok.injEq, Prod.mk.injEq] at h
      refine ⟨none, c :: t, by simp [exponentText], ?_, by simp [exponentText, h.1],
        by simp [h.2]⟩
      intro b hb
      obtain rfl : c = b := by simpa using hb
      exact ⟨fun _ => not_or.mp hc, by simp⟩

/-- The errors of `scanExponent`. -/
lemma scanExponent_error {text : Bytes} {pos : ℕ} {f : Failure}
    (h : Reader.scanExponent text pos = .error f) : f.Plain := by
  rw [Reader.scanExponent] at h
  split at h
  · cases h
  · split_ifs at h
    rcases bind_eq_error.mp h with h | ⟨p, -, h⟩
    · exact scanDigits_error (by decide) h
    · cases h

/-! ## Numbers -/

namespace Reader

/-- The text of a number starts with the byte its sign calls for, and goes on with its parts. -/
private lemma render_eq (n : Number) :
    n.render = (if n.negative then [0x2D] else []) ++
      (n.whole ++ (fractionText n.fraction ++ exponentText n.exponent)) := rfl

/-- The first byte of a number is not whitespace, and is what the scanner looks for. -/
private lemma head_number (n : Number) :
    ∃ c t, n.render = c :: t ∧ isSpace c = false ∧ ¬ (c ≠ 0x2D ∧ ¬ isDigit c = true) ∧
      (if n.negative then c = 0x2D else c ≠ 0x2D) := by
  obtain ⟨c, t, h, hc⟩ := n.head_render
  refine ⟨c, t, h, ?_, by tauto, ?_⟩
  · rcases hc with rfl | hc
    · decide
    · exact isSpace_of_isDigit hc
  · rw [render_eq] at h
    split_ifs with hn
    · simp only [hn, if_true, List.cons_append, List.cons.injEq] at h
      exact h.1.symm
    · cases hw : n.whole with
      | nil => exact absurd hw n.whole_ne
      | cons d ds =>
        have hd := n.whole_ok d (by simp [hw])
        simp only [hn, if_false, hw, List.cons_append, List.nil_append, List.cons.injEq,
          Bool.false_eq_true] at h
        rintro rfl
        rw [h.1] at hd
        exact absurd hd (by decide)

/-- What ends a number ends each of its parts: the text after the integer part starts with no
digit. -/
private lemma stops_whole {n : Number} {t : Bytes} (ht : n.Ends t) :
    ∀ b ∈ (fractionText n.fraction ++ (exponentText n.exponent ++ t)).head?,
      isDigit b = false := by
  intro b hb
  cases hf : n.fraction with
  | some f =>
    simp only [hf, fractionText, List.cons_append, List.head?_cons, Option.mem_some_iff] at hb
    subst hb
    decide
  | none =>
    cases he : n.exponent with
    | some e =>
      simp only [hf, he, fractionText, exponentText, Exponent.render, List.nil_append,
        List.cons_append, List.head?_cons, Option.mem_some_iff] at hb
      subst hb
      split_ifs <;> decide
    | none =>
      simp only [hf, he, fractionText, exponentText, List.nil_append] at hb
      exact (ht b hb).1

/-- The text after the fraction part does not prolong it. -/
private lemma stops_fraction {n : Number} {t : Bytes} (ht : n.Ends t) :
    StopsFraction n.fraction (exponentText n.exponent ++ t) := by
  intro b hb
  cases he : n.exponent with
  | some e =>
    simp only [he, exponentText, Exponent.render, List.cons_append, List.head?_cons,
      Option.mem_some_iff] at hb
    subst hb
    split_ifs <;> exact ⟨fun _ => by decide, fun _ => by decide⟩
  | none =>
    simp only [he, exponentText, List.nil_append] at hb
    exact ⟨fun hf => (ht b hb).2.2 hf he, fun _ => (ht b hb).1⟩

/-- The text after the exponent part does not prolong it. -/
private lemma stops_exponent {n : Number} {t : Bytes} (ht : n.Ends t) :
    StopsExponent n.exponent t :=
  fun b hb => ⟨(ht b hb).2.1, fun _ => (ht b hb).1⟩

/-- Where a number token follows after blanks, the scanner goes over the three parts from the
byte after the sign. -/
lemma scanNumber_start {r : Reader} {w t : Bytes} {n : Number}
    (h : r.rest = w ++ (n.render ++ t)) (hw : Blank w) :
    ∃ p, p = r.pos + w.length + (if n.negative then [(0x2D : UInt8)] else []).length ∧
      r.text.drop p = n.whole ++ (fractionText n.fraction ++ (exponentText n.exponent ++ t)) ∧
      r.scanNumber = scanWhole r.text p >>= fun p₁ => scanFraction r.text p₁ >>= fun p₂ =>
        scanExponent r.text p₂.1 >>= fun p₃ =>
          .ok (((r.text.drop (r.pos + w.length)).take (p₃.1 - (r.pos + w.length)),
            !p₂.2 && !p₃.2), { r with pos := p₃.1 }) := by
  obtain ⟨c, u, hn, hspace, hstart, hsign⟩ := head_number n
  have hpeek : r.peek = (some c, r.adv w.length) := peek_of (by rw [h, hn]; rfl) hw hspace
  have hrest : (r.adv w.length).rest = n.render ++ t := rest_adv_of h
  obtain ⟨p, hp⟩ : ∃ p, p = (if c = 0x2D then (r.adv w.length).pos + 1 else (r.adv w.length).pos) :=
    ⟨_, rfl⟩
  have hp' : p = r.pos + w.length + (if n.negative then [(0x2D : UInt8)] else []).length := by
    rw [hp]
    cases hneg : n.negative <;> simp [hneg] at hsign <;> simp [hsign]
  refine ⟨p, hp', ?_, ?_⟩
  · rw [hp', ← List.drop_drop, ← adv_pos, ← adv_text r w.length, ← rest, hrest, render_eq,
      List.append_assoc, List.drop_left]
    simp only [List.append_assoc]
  · rw [scanNumber, hpeek]
    simp only [hstart, if_false, hp, adv]

/-- **A number token is scanned**, with any blanks before it, if the text after it does not
prolong it.

**Proof sketch.** The position after each part is the position before it plus the length of
its text; each part is passed because the next part, or the text after the number, does not
start with a byte it would take. -/
theorem scanNumber_of {r : Reader} {w t : Bytes} {n : Number}
    (h : r.rest = w ++ (n.render ++ t)) (hw : Blank w) (ht : n.Ends t) :
    r.scanNumber = .ok ((n.render, n.integral), r.adv (w.length + n.render.length)) := by
  obtain ⟨p, hp, hdrop, hscan⟩ := scanNumber_start h hw
  have hwhole := scanWhole_of hdrop n.whole_ok n.whole_ne n.whole_lead (stops_whole ht)
  have hdrop₁ : r.text.drop (p + n.whole.length) =
      fractionText n.fraction ++ (exponentText n.exponent ++ t) := by
    rw [← List.drop_drop, hdrop, List.drop_left]
  have hfraction := scanFraction_of hdrop₁ n.fraction_ne n.fraction_ok (stops_fraction ht)
  have hdrop₂ : r.text.drop (p + n.whole.length + (fractionText n.fraction).length) =
      exponentText n.exponent ++ t := by
    rw [← List.drop_drop, hdrop₁, List.drop_left]
  have hexponent := scanExponent_of hdrop₂ (stops_exponent ht)
  have hlen : n.render.length = (if n.negative then [(0x2D : UInt8)] else []).length +
      n.whole.length + (fractionText n.fraction).length + (exponentText n.exponent).length := by
    rw [render_eq]
    simp only [List.length_append]
    omega
  have hend : p + n.whole.length + (fractionText n.fraction).length +
      (exponentText n.exponent).length - (r.pos + w.length) = n.render.length := by
    rw [hp, hlen]
    omega
  have htoken : (r.text.drop (r.pos + w.length)).take n.render.length = n.render :=
    take_drop_of (r := r.adv w.length) (rest_adv_of h)
  have hintegral : (!n.fraction.isSome && !n.exponent.isSome) = n.integral := by
    unfold Number.integral
    cases n.fraction <;> cases n.exponent <;> rfl
  rw [hscan, hwhole]
  simp only [ok_bind, hfraction, hexponent, hend, htoken, hintegral, Except.ok.injEq,
    Prod.mk.injEq, true_and, adv]
  rw [hp, hlen]
  congr 1
  omega

/-- **What is scanned is a number token**, the longest one there. -/
theorem scanNumber_ok {r r' : Reader} {tok : Bytes} {i : Bool}
    (h : r.scanNumber = .ok ((tok, i), r')) :
    ∃ w, ∃ n : Number, Blank w ∧ r.rest = w ++ (n.render ++ r'.rest) ∧ n.Ends r'.rest ∧
      tok = n.render ∧ i = n.integral ∧ r' = r.adv (w.length + n.render.length) := by
  have hok := h
  rcases r.peek_cases with ⟨w, -, -, hp⟩ | ⟨w, c, t, hw, hspace, hr, hp⟩
  · simp [scanNumber, hp] at h
  · rw [scanNumber, hp] at h
    simp only at h
    by_cases hstart : c ≠ 0x2D ∧ ¬ isDigit c = true
    · simp [hstart] at h
    rw [if_neg hstart] at h
    obtain ⟨p₁, hp₁, h⟩ := bind_eq_ok.mp h
    obtain ⟨⟨p₂, f⟩, hp₂, h⟩ := bind_eq_ok.mp h
    obtain ⟨⟨p₃, e⟩, hp₃, h⟩ := bind_eq_ok.mp h
    obtain ⟨whole, t₁, hd₁, hwd, hwne, hwl, hws, rfl⟩ := scanWhole_ok hp₁
    obtain ⟨fraction, t₂, hd₂, hfne, hfd, hfs, rfl, rfl⟩ := scanFraction_ok hp₂
    obtain ⟨exponent, t₃, hd₃, hes, rfl, rfl⟩ := scanExponent_ok hp₃
    have ht₁ : t₁ = fractionText fraction ++ t₂ := by
      rw [← hd₂, ← List.drop_drop, hd₁, List.drop_left]
    have ht₂ : t₂ = exponentText exponent ++ t₃ := by
      rw [← hd₃, ← List.drop_drop, hd₂, List.drop_left]
    -- the number the parts make up
    obtain ⟨n, hneg, hnw, hnf, hne⟩ : ∃ n : Number, n.negative = decide (c = 0x2D) ∧
        n.whole = whole ∧ n.fraction = fraction ∧ n.exponent = exponent :=
      ⟨⟨decide (c = 0x2D), whole, fraction, exponent, hwd, hwne, hwl, hfne, hfd⟩,
        rfl, rfl, rfl, rfl⟩
    have hsign : (if n.negative then [(0x2D : UInt8)] else []) ++ (whole ++ t₁) = c :: t := by
      have hrest : (r.adv w.length).rest = c :: t := rest_adv_of hr
      by_cases hc : c = 0x2D
      · have hrest' := rest_adv_one hrest
        simp only [adv_adv, rest, adv_text, adv_pos, ← Nat.add_assoc] at hrest'
        simp only [hc, if_true, adv_pos, adv_text, hrest'] at hd₁
        simp [hneg, hc, hd₁]
      · simp only [rest, adv_text, adv_pos] at hrest
        simp only [hc, if_false, adv_pos, adv_text, hrest] at hd₁
        simp [hneg, hc, hd₁]
    have hr' : r.rest = w ++ (n.render ++ t₃) := by
      rw [hr, ← hsign, ht₁, ht₂, render_eq, hnw, hnf, hne]
      simp only [List.append_assoc]
    have hends : n.Ends t₃ := by
      intro b hb
      refine ⟨?_, fun he => (hes b hb).1 (hne ▸ he), fun hf he => ?_⟩
      · rcases hce : exponent with _ | x
        · have hb₂ : b ∈ t₂.head? := by rw [ht₂, hce]; exact hb
          rcases hcf : fraction with _ | y
          · exact hws b (by rw [ht₁, hcf]; exact hb₂)
          · exact (hfs b hb₂).2 (by simp [hcf])
        · exact (hes b hb).2 (by simp [hce])
      · have hb₂ : b ∈ t₂.head? := by rw [ht₂, ← hne, he]; exact hb
        exact (hfs b hb₂).1 (hnf ▸ hf)
    have hscan := scanNumber_of hr' hw hends
    rw [hok] at hscan
    simp only [Except.ok.injEq, Prod.mk.injEq] at hscan
    obtain ⟨⟨rfl, rfl⟩, rfl⟩ := hscan
    have hrest : (r.adv (w.length + n.render.length)).rest = t₃ := by
      rw [← List.length_append]
      exact rest_adv_of (by rw [hr', List.append_assoc])
    exact ⟨w, n, hw, by rw [hrest, hr'], by rw [hrest]; exact hends, rfl, rfl, rfl⟩

/-- The number scanner's errors are legible. -/
theorem scanNumber_error {r : Reader} {f : Failure} (h : r.scanNumber = .error f) : f.Plain := by
  rcases r.peek_cases with ⟨w, -, -, hp⟩ | ⟨w, c, t, -, -, -, hp⟩
  · rw [scanNumber, hp] at h
    exact plain_of_fail (by decide) h
  · rw [scanNumber, hp] at h
    simp only at h
    by_cases hstart : c ≠ 0x2D ∧ ¬ isDigit c = true
    · rw [if_pos hstart] at h
      exact plain_of_fail (by decide) h
    · rw [if_neg hstart] at h
      rcases bind_eq_error.mp h with h | ⟨p, -, h⟩
      · exact scanWhole_error h
      · rcases bind_eq_error.mp h with h | ⟨p, -, h⟩
        · exact scanFraction_error h
        · rcases bind_eq_error.mp h with h | ⟨p, -, h⟩
          · exact scanExponent_error h
          · cases h

/-- `read_int` after its number is scanned. -/
lemma readInt_scanned {r r' : Reader} {n : Number}
    (h : r.scanNumber = .ok ((n.render, n.integral), r')) :
    r.readInt =
      if n.integral = false then fail .wrongType (bytes "expected an integer, got " ++ n.render)
      else if -2 ^ 63 ≤ n.intValue ∧ n.intValue ≤ 2 ^ 63 - 1 then
        .ok (Int64.ofInt n.intValue, r')
      else fail .outOfRange (bytes "integer out of range: " ++ n.render) := by
  rw [readInt, h]
  simp only [ok_bind, Bool.not_eq_true]
  cases hi : n.integral with
  | false => rfl
  | true =>
    rw [fromCharsInt_render hi]
    split_ifs <;> rfl

end Reader

end Hotpath.Json
