import Hotpath.Json.Levels
import Hotpath.Json.MethodRules

set_option relaxedAutoImplicit false
set_option autoImplicit false

/-!
# The reader keeps within bounds

Every method of `Reader`, access by access, keeps within bounds and comes to what the method of
the same name comes to that reads whole values. The only method whose safety needs more than a
position within the text is one that opens a level or looks at the flag of one.

## Main results

* `Method.refines_scanNumber`, `Method.refines_scanString` — the two token scanners.
* `Method.iterates_stringBody` — an iteration of the string loop returns or goes forward.
* `Method.refines_open`, `Method.refines_nextMember`, `Method.refines_nextElement` — levels.
-/

namespace Hotpath.Json

open JsonText (isSpace isDigit)
open Utf8 (bytes)

namespace Method

variable {α β : Type} {cap : ℕ}

/-! ## Whitespace and structural bytes -/

section Bytes

variable {r : Reader} {fuel : ℕ}

/-- An index below the length has a byte. -/
lemma exists_getElem? {i : ℕ} (h : i < r.text.length) : ∃ c, r.text[i]? = some c :=
  ⟨_, List.getElem?_eq_getElem h⟩

/-- A run of bytes is scanned alike. -/
lemma refines_advanceWhile {p : UInt8 → Bool} (hr : r.pos ≤ r.text.length)
    (hf : r.text.length < fuel) :
    Refines cap (advanceWhile fuel p) r
      (.ok ((), { r with pos := Json.advanceWhile p r.text r.pos })) := by
  obtain ⟨n, hn⟩ : ∃ n, n = r.text.length - r.pos := ⟨_, rfl⟩
  replace hf : n < fuel := by omega
  unfold advanceWhile Json.advanceWhile
  rw [← hn]
  induction n generalizing r fuel with
  | zero =>
    obtain ⟨fuel, rfl⟩ : ∃ k, fuel = k + 1 := ⟨fuel - 1, by omega⟩
    have hnone : r.text[r.pos]? = none := List.getElem?_eq_none (by omega)
    simp [Refines, loop, hnone, scanWhile]
  | succ n ih =>
    obtain ⟨fuel, rfl⟩ : ∃ k, fuel = k + 1 := ⟨fuel - 1, by omega⟩
    obtain ⟨c, hc⟩ := exists_getElem? (r := r) (i := r.pos) (by omega)
    cases hp : p c with
    | false => simp [Refines, loop, hc, hp, scanWhile]
    | true =>
      have hlt : r.pos < r.text.length := by omega
      have hrest : n = (r.adv 1).text.length - (r.adv 1).pos := by
        rw [Reader.adv_text, Reader.adv_pos]
        omega
      have := ih (r := r.adv 1) hlt hrest (by omega : n < fuel)
      simpa [Refines, loop, hc, hp, scanWhile] using ⟨hlt, this⟩

/-- `skip_whitespace` goes where the reader of values goes. -/
lemma refines_skipWhitespace (hr : r.pos ≤ r.text.length) (hf : r.text.length < fuel) :
    Refines cap (skipWhitespace fuel) r (.ok ((), r.skipWhitespace)) :=
  refines_advanceWhile hr hf

/-- `peek` finds a byte of the text. -/
lemma getElem?_of_peek {c : UInt8} {r' : Reader} (h : r.peek = (some c, r')) :
    r'.text[r'.pos]? = some c := by
  rw [Reader.peek, Prod.mk.injEq] at h
  rw [← h.2, h.1]

/-- Where there is no byte, the position is at the end. -/
lemma le_pos_of_none (h : r.text[r.pos]? = none) : r.text.length ≤ r.pos :=
  List.getElem?_eq_none_iff.mp h

/-- Where there is a byte, the position is before the end. -/
lemma pos_lt_of_some {c : UInt8} (h : r.text[r.pos]? = some c) : r.pos < r.text.length :=
  (List.getElem?_eq_some_iff.mp h).1

/-- `peek` answers as the reader of values does. -/
lemma refines_peek (hr : r.pos ≤ r.text.length) (hf : r.text.length < fuel) :
    Refines cap (peek fuel) r (.ok r.peek) := by
  rw [Refines, peek, ends_bind]
  refine (refines_skipWhitespace hr hf).ends_ok hr fun _ => ?_
  cases hc : r.skipWhitespace.text[r.skipWhitespace.pos]? with
  | none => simp [le_pos_of_none hc, Reader.peek]
  | some c => simp [(pos_lt_of_some hc).not_ge, Reader.peek, hc]

/-- `expect` passes what the reader of values passes. -/
lemma refines_expect {c : UInt8} (hr : r.pos ≤ r.text.length) (hf : r.text.length < fuel) :
    Refines cap (expect fuel c) r (silent (r.expect c)) := by
  rw [Refines, expect, ends_bind]
  refine (refines_peek hr hf).ends_answer hr fun seen r₁ hp _ => ?_
  cases seen with
  | none => simp [Reader.expect, hp, Json.fail]
  | some seen =>
    have hlt := pos_lt_of_some (getElem?_of_peek hp)
    by_cases hc : seen = c
    · simp [Reader.expect, hp, hc, hlt, Reader.adv]
    · simp [Reader.expect, hp, hc, Json.fail]

end Bytes

/-! ## Numbers -/

section Numbers

variable {r : Reader} {fuel : ℕ}

/-- The digits before the point are scanned alike. -/
lemma refines_scanWhole (hr : r.pos ≤ r.text.length) (hf : r.text.length < fuel) :
    Refines cap (scanWhole fuel) r (located r (Reader.scanWhole r.text r.pos)) := by
  rw [Refines, scanWhole]
  cases hc : r.text[r.pos]? with
  | none => simp [hc, Reader.scanWhole, Json.fail]
  | some c =>
    have hlt := pos_lt_of_some hc
    by_cases hd : isDigit c = true
    · by_cases h0 : c = 0x30
      · subst h0
        cases hn : r.text[r.pos + 1]? with
        | none => simpa [hc, hd, hn, Reader.scanWhole, Reader.adv] using hlt
        | some d =>
          by_cases hdd : isDigit d = true
          · simpa [hc, hd, hn, hdd, Reader.scanWhole, Json.fail] using hlt
          · simpa [hc, hd, hn, hdd, Reader.scanWhole, Reader.adv] using hlt
      · simpa [hc, hd, h0, Refines, Reader.scanWhole] using refines_advanceWhile hr hf
    · simp [hc, hd, Reader.scanWhole, Json.fail]

/-- The digits behind a point or an exponent are scanned alike. -/
lemma refines_scanDigits {message : Bytes} (hr : r.pos ≤ r.text.length)
    (hf : r.text.length < fuel) :
    Refines cap (scanDigits fuel message) r
      (located r (Reader.scanDigits r.text r.pos message)) := by
  rw [Refines, scanDigits]
  cases hc : r.text[r.pos]? with
  | none => simp [hc, Reader.scanDigits, Json.fail]
  | some c =>
    by_cases hd : isDigit c = true
    · simpa [hc, hd, Refines, Reader.scanDigits] using refines_advanceWhile hr hf
    · simp [hc, hd, Reader.scanDigits, Json.fail]

/-- The fraction is scanned alike, if there is one. -/
lemma refines_scanFraction (hf : r.text.length < fuel) :
    Refines cap (scanFraction fuel) r (locatedWith r (Reader.scanFraction r.text r.pos)) := by
  rw [Refines, scanFraction]
  cases hc : r.text[r.pos]? with
  | none => simp [hc, Reader.scanFraction]
  | some c =>
    have hlt := pos_lt_of_some hc
    by_cases h : c = 0x2E
    · subst h
      have hx : Reader.scanFraction r.text r.pos = Reader.scanDigits r.text (r.pos + 1)
          (bytes "no digit after decimal point") >>= fun p => .ok (p, true) := by
        simp [Reader.scanFraction, hc]
      rw [hx, locatedWith, told_bind]
      simp only [ends_bind, ends_sees, hc, Option.any_some, beq_self_eq_true, onto_ok, if_true,
        ends_advance]
      exact ⟨hlt, ends_bind.mp ((refines_scanDigits (r := r.adv 1) hlt hf).bind_told hlt
        fun _ _ _ => rfl)⟩
    · simp [hc, h, Reader.scanFraction]

/-- The sign of an exponent is optional. -/
lemma refines_skipSign :
    Refines cap skipSign r (.ok ((), { r with pos := Reader.skipSign r.text r.pos })) := by
  rw [Refines, skipSign]
  cases hc : r.text[r.pos]? with
  | none => simp [hc, Reader.skipSign]
  | some c =>
    by_cases h : c = 0x2B ∨ c = 0x2D
    · simpa [hc, h, Reader.skipSign, Reader.adv] using pos_lt_of_some hc
    · simp [hc, h, Reader.skipSign]

/-- The exponent is scanned alike, if there is one. -/
lemma refines_scanExponent (hf : r.text.length < fuel) :
    Refines cap (scanExponent fuel) r (locatedWith r (Reader.scanExponent r.text r.pos)) := by
  rw [Refines, scanExponent]
  cases hc : r.text[r.pos]? with
  | none => simp [hc, Reader.scanExponent]
  | some c =>
    have hlt := pos_lt_of_some hc
    by_cases h : c = 0x65 ∨ c = 0x45
    · have hb : (c == 0x65 || c == 0x45) = true := by simpa using h
      have hx : Reader.scanExponent r.text r.pos = Reader.scanDigits r.text
          (Reader.skipSign r.text (r.pos + 1)) (bytes "no digit after exponent") >>=
          fun p => .ok (p, true) := by
        simp [Reader.scanExponent, hc, h]
      rw [hx, locatedWith, told_bind]
      simp only [ends_bind, ends_sees, hc, Option.any_some, hb, onto_ok, if_true, ends_advance]
      refine ⟨hlt, (refines_skipSign (r := r.adv 1)).ends_ok hlt fun ho => ?_⟩
      exact (refines_scanDigits ho.le_length (ho.length_lt hf)).bind_told ho.le_length
        fun _ _ _ => rfl
    · have hb : (c == 0x65 || c == 0x45) = false := by simpa using h
      simp [hc, h, hb, Reader.scanExponent]

/-- The reader after the sign of a number. -/
lemma refines_skipMinus {c : UInt8} (hlt : r.pos < r.text.length) :
    Refines cap (skipMinus c) r
      (.ok ((), { r with pos := if c = 0x2D then r.pos + 1 else r.pos })) := by
  rw [Refines, skipMinus]
  by_cases hc : c = 0x2D
  · simpa [hc, Reader.adv] using hlt
  · simp [hc]

/-- **`scan_number`** slices the token that the reader of values slices. -/
theorem refines_scanNumber (hr : r.pos ≤ r.text.length) (hf : r.text.length < fuel) :
    Refines cap (scanNumber fuel) r r.scanNumber := by
  rw [Refines, scanNumber, ends_bind]
  refine (refines_peek hr hf).ends_answer hr fun c r₁ hp ho => ?_
  unfold Reader.scanNumber
  rw [hp, onto_ok]
  cases c with
  | none => simp [Json.fail]
  | some c =>
    have hlt := pos_lt_of_some (getElem?_of_peek hp)
    by_cases hd : c ≠ 0x2D ∧ ¬ isDigit c
    · simp only [if_pos hd, ends_fail]
      rfl
    · simp only [if_neg hd, ends_bind, ends_pos, onto_ok]
      refine (refines_skipMinus hlt).ends_ok hlt.le fun ho₂ => ?_
      rw [onto_ok]
      have hf₂ := ho₂.length_lt (ho.length_lt hf)
      refine (refines_scanWhole ho₂.le_length hf₂).bind_told ho₂.le_length fun p _ ho₃ => ?_
      refine (refines_scanFraction (ho₃.length_lt hf₂)).bind_told ho₃.le_length ?_
      rintro ⟨p, fraction⟩ - ho₄
      refine (refines_scanExponent (ho₄.length_lt (ho₃.length_lt hf₂))).bind_told ho₄.le_length ?_
      rintro ⟨p, exponent⟩ - ho₅
      have hle := (ho₂.pos_le.trans ho₃.pos_le).trans (ho₄.pos_le.trans ho₅.pos_le)
      simpa [Refines] using ⟨hle, ho₅.le_length⟩

end Numbers

/-! ## Escapes and UTF-8 -/

section Escapes

variable {r : Reader}

/-- The byte at an index, checked or not. -/
lemma byteAt_of_getElem? {i : ℕ} {c : UInt8} (h : r.text[i]? = some c) : r.byteAt i = .ok c := by
  rw [Reader.byteAt, h]

/-- The digits of `read_hex4`, where there are as many bytes. -/
lemma refines_hexLoop (n : ℕ) : ∀ i value, r.pos + i + n ≤ r.text.length →
    ∃ v, r.hexLoop n i value = .ok v ∧ Refines cap (hexLoop n i value) r (.ok (v, r)) := by
  induction n with
  | zero => exact fun i value _ => ⟨some value, rfl, rfl⟩
  | succ n ih =>
    intro i value h
    obtain ⟨c, hc⟩ := exists_getElem? (r := r) (i := r.pos + i) (by omega)
    cases hd : Reader.hexDigitOf c with
    | none =>
      refine ⟨none, ?_, ?_⟩
      · simp [Reader.hexLoop, byteAt_of_getElem? hc, hd]
      · simp [Refines, hexLoop, hc, hd]
    | some digit =>
      obtain ⟨v, hv, href⟩ := ih (i + 1) (value <<< 4 ||| digit) (by omega)
      refine ⟨v, ?_, ?_⟩
      · simp [Reader.hexLoop, byteAt_of_getElem? hc, hd, hv]
      · simpa [Refines, hexLoop, hc, hd] using href

/-- What `read_hex4` answers, and the reader, which stays where it is when it answers false. -/
def hexed (r : Reader) : Option (ℕ × Reader) → Option ℕ × Reader
  | none => (none, r)
  | some (v, r') => (some v, r')

/-- `read_hex4` answers the same, and moves only if it answers a number. -/
lemma refines_readHex4 : Refines cap readHex4 r (told (hexed r) r.readHex4) := by
  rw [Refines, readHex4, Reader.readHex4]
  by_cases hlen : r.pos + 4 > r.text.length
  · simp [hlen, hexed]
  · obtain ⟨v, hv, href⟩ := @refines_hexLoop cap r 4 0 0 (by omega)
    simp only [ends_bind, ends_pos, ends_size, onto_ok, if_neg hlen, hv, ok_bind]
    refine href.ends_ok (by omega) fun _ => ?_
    cases v with
    | none => simp [hexed]
    | some v => simpa [hexed, Reader.adv] using hlen

/-- A continuation byte is read twice where it is read once. -/
@[simp] lemma ends_isContinuation {i : ℕ} {low high : UInt8}
    {Q : Except Failure Bool → Reader → Prop} :
    Ends cap Q (isContinuation i low high) r ↔
      ∃ c, r.text[i]? = some c ∧ Q (.ok (decide (c ≥ low ∧ c ≤ high))) r := by
  rw [isContinuation]
  simp only [ends_bind, ends_textAt]
  refine exists_congr fun c => and_congr_right fun hc => ?_
  by_cases h : c ≥ low
  · simp [h, hc]
  · simp [h]

/-- The tail bytes of `validate_utf8_run`, where there are as many bytes. -/
lemma refines_tailLoop (n : ℕ) : ∀ i, r.pos + i + n ≤ r.text.length →
    ∃ b, r.tailLoop n (r.pos + i) = .ok b ∧ Refines cap (tailLoop n i) r (.ok (b, r)) := by
  induction n with
  | zero => exact fun i _ => ⟨true, rfl, rfl⟩
  | succ n ih =>
    intro i h
    obtain ⟨c, hc⟩ := exists_getElem? (r := r) (i := r.pos + i) (by omega)
    by_cases hb : c ≥ 0x80 ∧ c ≤ 0xBF
    · obtain ⟨b, hb', href⟩ := ih (i + 1) (by omega)
      refine ⟨b, ?_, ?_⟩
      · simp [Reader.tailLoop, byteAt_of_getElem? hc, hb, ← hb', Nat.add_assoc]
      · simpa [Refines, tailLoop, hc, hb] using href
    · refine ⟨false, ?_, ?_⟩
      · simp [Reader.tailLoop, byteAt_of_getElem? hc, hb]
      · simp [Refines, tailLoop, hc, hb]

/-- `validate_utf8_run` passes the same sequences of bytes. -/
lemma refines_validateUtf8Run (hlt : r.pos < r.text.length) :
    Refines cap validateUtf8Run r (silent r.validateUtf8Run) := by
  obtain ⟨lead, hlead⟩ := exists_getElem? hlt
  rw [Refines, validateUtf8Run, Reader.validateUtf8Run, byteAt_of_getElem? hlead]
  cases hs : Reader.utf8Shape lead with
  | none => simp [hlead, hs, Json.fail]
  | some shape =>
    obtain ⟨length, low, high⟩ := shape
    have hlength : 2 ≤ length ∧ length ≤ 4 := by
      unfold Reader.utf8Shape at hs
      split_ifs at hs <;> simp only [Option.some.injEq, Prod.mk.injEq] at hs <;> omega
    by_cases hlen : r.pos + length > r.text.length
    · simp [hlead, hs, hlen, Json.fail]
    · obtain ⟨c, hc⟩ := exists_getElem? (r := r) (i := r.pos + 1) (by omega)
      obtain ⟨b, hb, href⟩ := @refines_tailLoop cap r (length - 2) 2 (by omega)
      by_cases hsecond : c ≥ low ∧ c ≤ high
      · simp only [hlead, hs, hc, hlen, hsecond, byteAt_of_getElem? hc, hb, ok_bind, ends_bind,
          ends_pos, ends_size, ends_textAt, ends_isContinuation, onto_ok, if_false,
          Option.some.injEq, exists_eq_left', decide_true, not_true_eq_false, and_self]
        refine href.ends_ok (by omega) fun _ => ?_
        cases b with
        | false => simp [Json.fail]
        | true => simpa [Reader.adv] using hlen
      · simp only [hlead, hs, hc, hlen, hsecond, byteAt_of_getElem? hc, ok_bind, ends_bind,
          ends_pos, ends_size, ends_textAt, ends_isContinuation, onto_ok, if_false, if_true,
          Option.some.injEq, exists_eq_left', decide_false, Bool.false_eq_true,
          not_false_eq_true, ends_fail]
        rfl

/-- A valid sequence is passed. -/
lemma pos_lt_of_validateUtf8Run {r' : Reader} (hlt : r.pos < r.text.length)
    (h : r.validateUtf8Run = .ok r') : r.pos < r'.pos := by
  have hr : r.rest = r.text[r.pos] :: r.text.drop (r.pos + 1) := List.drop_eq_getElem_cons hlt
  rcases Reader.validateUtf8Run_cases hr with ⟨u, t, hu, -, hv⟩ | hv
  · rw [hv] at h
    cases h
    have hpos : 0 < u.length := by cases hu <;> simp
    rw [Reader.adv_pos]
    omega
  · rw [hv] at h
    cases h

/-- The low half of a surrogate pair is read alike. -/
lemma refines_readLowSurrogate : Refines cap readLowSurrogate r r.readLowSurrogate := by
  rw [Refines, readLowSurrogate, Reader.readLowSurrogate]
  by_cases hlen : r.pos + 2 > r.text.length
  · simp [hlen, Json.fail]
  · obtain ⟨a, ha⟩ := exists_getElem? (r := r) (i := r.pos) (by omega)
    obtain ⟨b, hb⟩ := exists_getElem? (r := r) (i := r.pos + 1) (by omega)
    by_cases ha' : a = 0x5C
    · by_cases hb' : b = 0x75
      · subst ha' hb'
        have hle : (r.adv 2).pos ≤ (r.adv 2).text.length := Nat.not_lt.mp hlen
        simp only [hlen, ha, hb, byteAt_of_getElem? ha, byteAt_of_getElem? hb, ok_bind, ends_bind,
          ends_pos, ends_size, ends_textAt, ends_advance, onto_ok, if_false, or_self,
          Option.some.injEq, exists_eq_left', ne_eq, not_true_eq_false]
        refine ⟨hle, ends_bind.mp (refines_readHex4.bind_told hle ?_)⟩
        rintro (_ | ⟨low, r'⟩) - -
        · rfl
        · simp only [hexed]
          split_ifs <;> rfl
      · simp [hlen, ha, hb, ha', hb', byteAt_of_getElem?, Json.fail]
    · simp [hlen, ha, hb, ha', byteAt_of_getElem?, Json.fail]

/-- `append_code_point` appends the same bytes. -/
lemma refines_appendCodePoint {out : Bytes} (hr : r.pos ≤ r.text.length) :
    Refines cap (appendCodePoint out) r (r.appendCodePoint out) := by
  refine refines_readHex4.bind_told hr ?_
  rintro (_ | ⟨codePoint, r'⟩) - ho
  · rfl
  · simp only [hexed] at ho ⊢
    split_ifs
    · rfl
    · exact refines_readLowSurrogate.bind ho.le_length fun _ _ _ _ => rfl
    · rfl

/-- `append_escape` appends the same bytes. -/
lemma refines_appendEscape {out : Bytes} :
    Refines cap (appendEscape out) r (r.appendEscape out) := by
  rw [Refines, appendEscape, Reader.appendEscape]
  cases hc : r.text[r.pos]? with
  | none => simp [le_pos_of_none hc, Json.fail]
  | some c =>
    have hlt := pos_lt_of_some hc
    simp only [hlt.not_ge, hc, ends_bind, ends_pos, ends_size, ends_textAt, ends_advance, onto_ok,
      if_false, Option.some.injEq, exists_eq_left', ge_iff_le]
    refine ⟨hlt, ?_⟩
    split_ifs
    · rfl
    · rfl
    · rfl
    · rfl
    · rfl
    · rfl
    · exact refines_appendCodePoint hlt
    · rfl

end Escapes

/-! ## Strings -/

section Strings

variable {r : Reader} {fuel : ℕ}

/-- The loop state of `scan_string`. -/
def joinString (s : Bytes × ℕ) (r : Reader) : Reader.StringLoop := ⟨r, s.1, s.2⟩

/-- **One iteration of the string loop** is safe, and returns or goes forward. -/
theorem iterates_stringBody (s : Bytes × ℕ) (r : Reader) (hrun : s.2 ≤ r.pos)
    (hr : r.pos ≤ r.text.length) :
    Iterates cap (fun s r => s.2 ≤ r.pos) joinString Prod.mk stringBody Reader.stringBody s r := by
  rw [Iterates, stringBody]
  cases hc : r.text[r.pos]? with
  | none =>
    simp [le_pos_of_none hc, Reader.stringBody, joinString, stepOutcome, Json.fail]
  | some byte =>
    have hlt := pos_lt_of_some hc
    have hadv : (r.adv 1).pos ≤ (r.adv 1).text.length := hlt
    have hslice : s.2 ≤ r.pos ∧ r.pos ≤ r.text.length := ⟨hrun, hr⟩
    simp only [hlt.not_ge, hc, Reader.stringBody, joinString, ends_bind, ends_pos, ends_size,
      ends_textAt, onto_ok, if_false, Option.some.injEq, exists_eq_left']
    by_cases hquote : byte = 0x22
    · simp only [if_pos hquote, ends_bind, ends_pos, ends_slice, ends_advance, ends_pure, onto_ok]
      exact ⟨hslice, hlt, rfl, fun _ h => by cases h⟩
    by_cases hslash : byte = 0x5C
    · simp only [if_neg hquote, if_pos hslash, ends_bind, ends_pos, ends_slice, ends_advance,
        onto_ok]
      refine ⟨hslice, hlt, refines_appendEscape.ends hadv ?_ ?_⟩
      · intro out r' h ho
        have h' : Reader.appendEscape { r with pos := r.pos + 1 }
          (s.1 ++ (⟨r, s.1, s.2⟩ : Reader.StringLoop).pending) = .ok (out, r') := h
        simp only [h', onto_ok, ends_bind, ends_pos, ends_pure]
        refine ⟨rfl, fun s' hs' => ?_⟩
        cases hs'
        exact ⟨le_rfl, ho.pos_le⟩
      · intro e r' h
        have h' : Reader.appendEscape { r with pos := r.pos + 1 }
          (s.1 ++ (⟨r, s.1, s.2⟩ : Reader.StringLoop).pending) = .error e := h
        simp only [h', onto_error]
        exact ⟨rfl, fun _ h => by cases h⟩
    by_cases hcontrol : byte < 0x20
    · simp only [if_neg hquote, if_neg hslash, if_pos hcontrol, ends_fail]
      exact ⟨rfl, fun _ h => by cases h⟩
    by_cases hascii : byte < 0x80
    · simp only [if_neg hquote, if_neg hslash, if_neg hcontrol, if_pos hascii, ends_bind,
        ends_advance, ends_pure, onto_ok]
      refine ⟨hlt, rfl, fun s' hs' => ?_⟩
      cases hs'
      exact ⟨hrun.trans (Nat.le_succ _), Nat.lt_succ_self _⟩
    · simp only [if_neg hquote, if_neg hslash, if_neg hcontrol, if_neg hascii, ends_bind]
      refine (refines_validateUtf8Run hlt).ends hr ?_ ?_
      · intro _ r' h ho
        rw [silent_eq_ok] at h
        simp only [h, onto_ok, ends_pure]
        refine ⟨rfl, fun s' hs' => ?_⟩
        cases hs'
        exact ⟨hrun.trans ho.pos_le, pos_lt_of_validateUtf8Run hlt h⟩
      · intro e r' h
        rw [told_eq_error] at h
        simp only [h, onto_error]
        exact ⟨rfl, fun _ h => by cases h⟩

/-- **`scan_string`** answers the same bytes, and leaves the same reader. -/
theorem refines_scanString (hr : r.pos ≤ r.text.length) (hf : r.text.length < fuel) :
    Refines cap (scanString fuel) r r.scanString := by
  rw [Refines, scanString, ends_bind]
  refine (refines_peek hr hf).ends_answer hr fun c r₁ hp ho => ?_
  unfold Reader.scanString
  rw [hp, onto_ok]
  cases c with
  | none => simp [Json.fail]
  | some c =>
    have hlt := pos_lt_of_some (getElem?_of_peek hp)
    have hf₁ := ho.length_lt hf
    by_cases hc : c ≠ 0x22
    · simp only [if_pos hc, ends_fail]
      rfl
    · simp only [if_neg hc, ends_bind, ends_advance, ends_pos, onto_ok]
      refine ⟨hlt, ends_loop iterates_stringBody fuel _ ([], (r₁.adv 1).pos) (r₁.adv 1) le_rfl
        hlt ?_ ?_⟩
      · rw [Reader.adv_text]
        omega
      · rw [Reader.adv_text]
        omega

end Strings

/-! ## Structure -/

section Structure

variable {r r' : Reader} {fuel : ℕ}

/-- An expected byte is consumed. -/
lemma pos_lt_of_expect {c : UInt8} (h : r.expect c = .ok r') : r.pos < r'.pos := by
  obtain ⟨w, t, -, -, rfl⟩ := Reader.expect_ok h
  rw [Reader.adv_pos]
  omega

/-- An expected byte opens and closes nothing. -/
lemma depth_of_expect {c : UInt8} (h : r.expect c = .ok r') : r'.depth = r.depth := by
  obtain ⟨w, t, -, -, rfl⟩ := Reader.expect_ok h
  rfl

/-- A look at the next byte opens and closes nothing. -/
lemma depth_of_peek {c : Option UInt8} (h : r.peek = (c, r')) : r'.depth = r.depth := by
  rw [Reader.peek, Prod.mk.injEq] at h
  rw [← h.2, Reader.skipWhitespace]

/-- `push_level` is safe below the cap of the depth. -/
lemma refines_pushLevel (hcap : cap ≤ kMaxDepth) (hd : r.depth < cap) :
    Refines cap pushLevel r (silent r.pushLevel) := by
  have hlt : r.depth < kMaxDepth := hd.trans_le hcap
  simp [Refines, pushLevel, Reader.pushLevel, hlt, hlt.ne, hd]

/-- `--depth_` is safe inside of a container. -/
lemma refines_decDepth (hd : 1 ≤ r.depth) : Refines cap decDepth r (silent r.popLevel) := by
  obtain ⟨d, hd'⟩ : ∃ d, r.depth = d + 1 := ⟨r.depth - 1, by omega⟩
  simp [Refines, Reader.popLevel, hd']

/-- Opening a container, the bracket `c` first. -/
lemma refines_open {c : UInt8} (hr : r.pos ≤ r.text.length) (hf : r.text.length < fuel)
    (hcap : cap ≤ kMaxDepth) (hd : r.depth < cap) :
    Refines cap (expect fuel c >>= fun _ => pushLevel) r
      (silent (r.expect c >>= Reader.pushLevel)) := by
  rw [silent, told_bind]
  refine (refines_expect hr hf).bind_told hr fun r₁ h _ => refines_pushLevel hcap ?_
  rw [depth_of_expect h]
  exact hd

/-- `begin_object` is safe below the cap of the depth. -/
lemma refines_beginObject (hr : r.pos ≤ r.text.length) (hf : r.text.length < fuel)
    (hcap : cap ≤ kMaxDepth) (hd : r.depth < cap) :
    Refines cap (beginObject fuel) r (silent r.beginObject) := refines_open hr hf hcap hd

/-- `begin_array` is safe below the cap of the depth. -/
lemma refines_beginArray (hr : r.pos ≤ r.text.length) (hf : r.text.length < fuel)
    (hcap : cap ≤ kMaxDepth) (hd : r.depth < cap) :
    Refines cap (beginArray fuel) r (silent r.beginArray) := refines_open hr hf hcap hd

/-- One level more is open. -/
lemma depth_of_open {c : UInt8} (h : (r.expect c >>= Reader.pushLevel) = .ok r') :
    r'.depth = r.depth + 1 := by
  obtain ⟨r₁, h₁, h₂⟩ := bind_eq_ok.mp h
  rw [← depth_of_expect h₁]
  unfold Reader.pushLevel at h₂
  split_ifs at h₂
  · cases h₂
  · cases h₂
    rfl

/-- An object is one level. -/
lemma depth_of_beginObject (h : r.beginObject = .ok r') : r'.depth = r.depth + 1 :=
  depth_of_open h

/-- An array is one level. -/
lemma depth_of_beginArray (h : r.beginArray = .ok r') : r'.depth = r.depth + 1 :=
  depth_of_open h

/-- The comma before an item is expected alike, inside of a container. -/
lemma refines_separator (hr : r.pos ≤ r.text.length) (hf : r.text.length < fuel)
    (hd : 1 ≤ r.depth) (hk : r.depth ≤ kMaxDepth) :
    Refines cap (separator fuel) r (silent r.separator) := by
  obtain ⟨text, pos, depth, first⟩ := r
  obtain ⟨d, rfl⟩ : ∃ d, depth = d + 1 := ⟨depth - 1, by simp only at hd; omega⟩
  have hlt : d < kMaxDepth := hk
  have hb : 1 ≤ d + 1 ∧ d + 1 - 1 < kMaxDepth := ⟨by omega, hlt⟩
  rw [Refines, separator, Reader.separator, ends_bind, ends_first]
  simp only [dif_pos hlt]
  refine ⟨hb, ?_⟩
  rw [onto_ok]
  by_cases hfirst : first ⟨d, hlt⟩ = true
  · simp only [Nat.add_sub_cancel, hfirst, if_true, ends_clearFirst]
    exact ⟨hb, rfl⟩
  · simp only [Nat.add_sub_cancel, hfirst]
    exact refines_expect hr hf

/-- What the comma before an item does to the reader. -/
lemma depth_of_separator (h : r.separator = .ok r') : r'.depth = r.depth := by
  unfold Reader.separator at h
  split at h
  · cases h
  · rename_i d hd
    split_ifs at h with hlt hfirst
    · cases h
      rfl
    · exact depth_of_expect h

/-- Leaving a container, the reader before its bracket. -/
lemma refines_close (hlt : r.pos < r.text.length) (hd : 1 ≤ r.depth) {b : β} :
    Refines cap (advance 1 >>= fun _ => decDepth >>= fun _ => pure b) r
      (Reader.popLevel { r with pos := r.pos + 1 } >>= fun r => .ok (b, r)) := by
  rw [Refines, ends_bind, ends_advance]
  exact ⟨hlt, (refines_decDepth (r := r.adv 1) hd).bind_told hlt fun _ _ _ => rfl⟩

/-- **`next_member`** answers the same key, inside of a container. -/
theorem refines_nextMember (hr : r.pos ≤ r.text.length) (hf : r.text.length < fuel)
    (hd : 1 ≤ r.depth) (hk : r.depth ≤ kMaxDepth) :
    Refines cap (nextMember fuel) r r.nextMember := by
  rw [Refines, nextMember, ends_bind]
  refine (refines_peek hr hf).ends_answer hr fun c r₁ hp ho => ?_
  rw [← depth_of_peek hp] at hd hk
  unfold Reader.nextMember
  rw [hp, onto_ok]
  cases c with
  | none => simp [Json.fail]
  | some c =>
    have hlt := pos_lt_of_some (getElem?_of_peek hp)
    have hf₁ := ho.length_lt hf
    by_cases hc : c = 0x7D
    · simp only [if_pos hc]
      exact refines_close hlt hd
    · simp only [if_neg hc]
      refine (refines_separator hlt.le hf₁ hd hk).bind_told hlt.le fun r₂ _ ho₂ => ?_
      have hf₂ := ho₂.length_lt hf₁
      refine (refines_scanString ho₂.le_length hf₂).bind ho₂.le_length fun key r₃ _ ho₃ => ?_
      exact (refines_expect ho₃.le_length (ho₃.length_lt hf₂)).bind_told ho₃.le_length
        fun _ _ _ => rfl

/-- **`next_element`** answers the same, inside of a container. -/
theorem refines_nextElement (hr : r.pos ≤ r.text.length) (hf : r.text.length < fuel)
    (hd : 1 ≤ r.depth) (hk : r.depth ≤ kMaxDepth) :
    Refines cap (nextElement fuel) r r.nextElement := by
  rw [Refines, nextElement, ends_bind]
  refine (refines_peek hr hf).ends_answer hr fun c r₁ hp ho => ?_
  rw [← depth_of_peek hp] at hd hk
  unfold Reader.nextElement
  rw [hp, onto_ok]
  cases c with
  | none => simp [Json.fail]
  | some c =>
    have hlt := pos_lt_of_some (getElem?_of_peek hp)
    by_cases hc : c = 0x5D
    · simp only [if_pos hc]
      exact refines_close hlt hd
    · simp only [if_neg hc]
      exact (refines_separator hlt.le (ho.length_lt hf) hd hk).bind_told hlt.le fun _ _ _ => rfl

/-- What comes before the key of a member, the key, and its colon. -/
private lemma nextMember_some {key : Bytes} (h : r.nextMember = .ok (some key, r')) :
    ∃ r₁ r₂ r₃, r.peek.2 = r₁ ∧ r₁.separator = .ok r₂ ∧ r₂.scanString = .ok (key, r₃) ∧
      r₃.expect 0x3A = .ok r' := by
  unfold Reader.nextMember at h
  rcases hp : r.peek with ⟨_ | c, r₁⟩
  · rw [hp] at h
    cases h
  · rw [hp] at h
    simp only at h
    split_ifs at h
    · obtain ⟨r₂, -, h₂⟩ := bind_eq_ok.mp h
      cases h₂
    · obtain ⟨r₂, h₂, h⟩ := bind_eq_ok.mp h
      obtain ⟨⟨key', r₃⟩, h₃, h⟩ := bind_eq_ok.mp h
      obtain ⟨r₄, h₄, h⟩ := bind_eq_ok.mp h
      cases h
      exact ⟨r₁, r₂, r₃, rfl, h₂, h₃, h₄⟩

/-- A key that is read leaves the levels as they are. -/
lemma depth_of_nextMember {key : Bytes} (h : r.nextMember = .ok (some key, r')) :
    r'.depth = r.depth := by
  obtain ⟨r₁, r₂, r₃, h₁, h₂, h₃, h₄⟩ := nextMember_some h
  obtain ⟨w, tok, cs, -, -, -, -, rfl⟩ := Reader.scanString_ok h₃
  rw [depth_of_expect h₄, Reader.adv_depth, depth_of_separator h₂]
  exact depth_of_peek (Prod.ext rfl h₁)

/-- The comma before an item is not behind the reader. -/
lemma pos_le_of_separator (h : r.separator = .ok r') : r.pos ≤ r'.pos := by
  unfold Reader.separator at h
  split at h
  · cases h
  · split_ifs at h
    · cases h
      exact le_rfl
    · exact (pos_lt_of_expect h).le

/-- A key that is read is passed. -/
lemma pos_lt_of_nextMember {key : Bytes} (h : r.nextMember = .ok (some key, r')) :
    r.pos < r'.pos := by
  obtain ⟨r₁, r₂, r₃, h₁, h₂, h₃, h₄⟩ := nextMember_some h
  obtain ⟨w, tok, cs, -, -, -, -, rfl⟩ := Reader.scanString_ok h₃
  have hpeek : r.pos ≤ r₁.pos := by
    rw [← h₁, Reader.peek, Reader.skipWhitespace, advanceWhile_eq]
    exact Nat.le_add_right _ _
  calc
    r.pos ≤ r₁.pos := hpeek
    _ ≤ r₂.pos := pos_le_of_separator h₂
    _ ≤ r₂.pos + (w.length + tok.length) := Nat.le_add_right _ _
    _ < r'.pos := pos_lt_of_expect h₄

/-- What comes before an element, or the end of an array. -/
private lemma nextElement_ok_cases {b : Bool} (h : r.nextElement = .ok (b, r')) :
    (b = true ∧ r.peek.2.separator = .ok r') ∨
      (b = false ∧ Reader.popLevel { r.peek.2 with pos := r.peek.2.pos + 1 } = .ok r') := by
  unfold Reader.nextElement at h
  rcases hp : r.peek with ⟨_ | c, r₁⟩
  · rw [hp] at h
    cases h
  · rw [hp] at h
    simp only at h
    split_ifs at h
    · obtain ⟨r₂, h₂, h⟩ := bind_eq_ok.mp h
      cases h
      exact Or.inr ⟨rfl, h₂⟩
    · obtain ⟨r₂, h₂, h⟩ := bind_eq_ok.mp h
      cases h
      exact Or.inl ⟨rfl, h₂⟩

/-- An element leaves the levels as they are. -/
lemma depth_of_nextElement (h : r.nextElement = .ok (true, r')) : r'.depth = r.depth := by
  rcases nextElement_ok_cases h with ⟨-, h⟩ | ⟨h, -⟩
  · rw [depth_of_separator h]
    rfl
  · cases h

end Structure

/-! ## Values -/

section Values

variable {r : Reader} {fuel : ℕ}

/-- **`read_int`** answers the same integer. -/
theorem refines_readInt (hr : r.pos ≤ r.text.length) (hf : r.text.length < fuel) :
    Refines cap (readInt fuel) r r.readInt := by
  refine (refines_scanNumber hr hf).bind hr ?_
  rintro ⟨token, integral⟩ r' - -
  cases integral with
  | false => rfl
  | true =>
    simp only [not_true_eq_false, if_false]
    cases JsonText.fromCharsInt (-2 ^ 63) (2 ^ 63 - 1) token <;> rfl

/-- **`read_double`** answers the same number. -/
theorem refines_readDouble {F : Type} [CharConv F] (hr : r.pos ≤ r.text.length)
    (hf : r.text.length < fuel) :
    Refines cap (readDouble (F := F) fuel) r r.readDouble := by
  refine (refines_scanNumber hr hf).bind hr ?_
  rintro ⟨token, integral⟩ r' - -
  simp only
  cases (CharConv.fromChars token : JsonText.FromChars F) <;> rfl

/-- `starts_with` takes a slice of the text only where there is one. -/
lemma refines_startsWith {token : Bytes} (hr : r.pos ≤ r.text.length) :
    Refines cap (startsWith token) r (.ok (Json.startsWith r.text r.pos token, r)) := by
  rw [Refines, startsWith, Json.startsWith]
  by_cases h : r.pos ≤ r.text.length ∧ r.text.length - r.pos ≥ token.length
  · have hstop : r.pos + token.length ≤ r.text.length := by omega
    have : (List.isPrefixOf token (r.text.drop r.pos)) =
        decide ((r.text.drop r.pos).take token.length = token) := by
      rw [Bool.eq_iff_iff, List.isPrefixOf_iff_prefix, List.prefix_iff_eq_take, decide_eq_true_iff,
        eq_comm]
    simp [h, hstop, this]
  · have : (List.isPrefixOf token (r.text.drop r.pos)) = false := by
      rw [Bool.eq_false_iff, ne_eq, List.isPrefixOf_iff_prefix]
      intro hp
      have hle := hp.length_le
      rw [List.length_drop] at hle
      exact h ⟨hr, hle⟩
    simp [h, this]

/-- Where a token starts, its bytes are left. -/
lemma le_of_startsWith {token : Bytes} (hr : r.pos ≤ r.text.length)
    (h : Json.startsWith r.text r.pos token = true) : r.pos + token.length ≤ r.text.length := by
  rw [Json.startsWith, List.isPrefixOf_iff_prefix] at h
  have hle := h.length_le
  rw [List.length_drop] at hle
  omega

/-- **`read_bool`** answers the same truth value. -/
theorem refines_readBool (hr : r.pos ≤ r.text.length) (hf : r.text.length < fuel) :
    Refines cap (readBool fuel) r r.readBool := by
  rw [Refines, readBool, ends_bind]
  refine (refines_peek hr hf).ends_answer hr fun c r₁ hp ho => ?_
  unfold Reader.readBool
  rw [hp, onto_ok]
  cases c with
  | none => rfl
  | some c =>
    simp only [ends_bind]
    refine (refines_startsWith ho.le_length).ends_ok ho.le_length fun _ => ?_
    cases htrue : Json.startsWith r₁.text r₁.pos (bytes "true") with
    | true =>
      have hle : r₁.pos + 4 ≤ r₁.text.length := le_of_startsWith ho.le_length htrue
      simpa [Reader.adv] using hle
    | false =>
      simp only [onto_ok, ends_bind, Bool.false_eq_true, if_false]
      refine (refines_startsWith ho.le_length).ends_ok ho.le_length fun _ => ?_
      cases hfalse : Json.startsWith r₁.text r₁.pos (bytes "false") with
      | true =>
        have hle : r₁.pos + 5 ≤ r₁.text.length := le_of_startsWith ho.le_length hfalse
        simpa [Reader.adv] using hle
      | false => rfl

/-- `at_null` answers the same. -/
lemma refines_atNull (hr : r.pos ≤ r.text.length) (hf : r.text.length < fuel) :
    Refines cap (atNull fuel) r (.ok r.atNull) := by
  rw [Refines, atNull, ends_bind]
  exact (refines_skipWhitespace hr hf).ends_ok hr fun ho => refines_startsWith ho.le_length

/-- `read_null` passes the same texts. -/
lemma refines_readNull (hr : r.pos ≤ r.text.length) (hf : r.text.length < fuel) :
    Refines cap (readNull fuel) r (silent r.readNull) := by
  rw [Refines, readNull, Reader.readNull, ends_bind]
  refine (refines_atNull hr hf).ends_answer hr fun b r₁ hp ho => ?_
  rw [hp, onto_ok]
  cases b with
  | false => rfl
  | true =>
    rw [Reader.atNull, Prod.mk.injEq] at hp
    obtain ⟨hnull, rfl⟩ := hp
    have hle : r.skipWhitespace.pos + 4 ≤ r.skipWhitespace.text.length :=
      le_of_startsWith ho.le_length hnull
    simpa [Reader.adv] using hle

/-- `at_document_end` passes the same texts. -/
lemma refines_atDocumentEnd (hr : r.pos ≤ r.text.length) (hf : r.text.length < fuel) :
    Refines cap (atDocumentEnd fuel) r (silent r.atDocumentEnd) := by
  rw [Refines, atDocumentEnd, Reader.atDocumentEnd, ends_bind]
  refine (refines_skipWhitespace hr hf).ends_ok hr fun _ => ?_
  rw [onto_ok, ends_bind, ends_pos, onto_ok, ends_bind, ends_size, onto_ok]
  show Ends cap _ (if r.skipWhitespace.pos ≠ r.text.length then _ else _) _
  split_ifs
  · rfl
  · rfl

end Values

end Method

end Hotpath.Json
