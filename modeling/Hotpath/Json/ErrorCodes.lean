import Hotpath.Json.Cursor

set_option relaxedAutoImplicit false
set_option autoImplicit false

/-!
# The error codes of the reader

The reader reports malformed text, a token of the wrong type, or a number that does not fit;
which code an error has tells the layer that it comes from. Each method is followed once.

## Main definitions

* `Fails` — the codes that a computation can fail with.
* `readerCodes` — the codes of the reader.

## Main results

* `Fails.bind`, `Fails.loop` — the codes of a sequence and of a loop.
* `Reader.fails_nextMember`, `Reader.fails_nextElement`, `Reader.fails_readInt` and the others —
  the reader fails with its own codes only.
-/

namespace Hotpath.Json

open JsonText

/-- Every error that the computation reports has a code of the list. -/
def Fails {α : Type} (codes : List DecodeErrorCode) (x : Parse α) : Prop :=
  ∀ e, x = .error (.error e) → e.code ∈ codes

/-- The codes that `json::Reader` fails with. -/
def readerCodes : List DecodeErrorCode := [.malformedJson, .wrongType, .outOfRange]

namespace Fails

variable {α β : Type} {codes codes' : List DecodeErrorCode}

/-- A value is not a failure, so it reports no code. -/
@[simp] lemma ok (a : α) : Fails codes (.ok a : Parse α) := by
  intro e h
  cases h

/-- An access out of bounds is a fault, which is not an error that is reported. -/
@[simp] lemma fault : Fails codes (.error .fault : Parse α) := by
  intro e h
  cases h

/-- An error has its own code. -/
lemma error {e : DecodeError} (h : e.code ∈ codes) :
    Fails codes (.error (.error e) : Parse α) := by
  intro e' h'
  obtain rfl : e = e' := by simpa using h'
  exact h

/-- A failure that `fail` makes has the code it is made with. -/
lemma fail {code : DecodeErrorCode} (h : code ∈ codes) (message : Bytes) :
    Fails codes (fail code message : Parse α) :=
  Fails.error h

/-- A sequence fails with a code of one of its steps. -/
lemma bind {x : Parse α} {g : α → Parse β} (hx : Fails codes x) (hg : ∀ a, Fails codes (g a)) :
    Fails codes (x >>= g) := by
  intro e h
  rcases bind_eq_error.mp h with h | ⟨a, -, h⟩
  · exact hx e h
  · exact hg a e h

/-- A loop fails with a code of the iteration that it leaves. -/
lemma loop {σ : Type} {body : σ → Loop.Step σ (Parse α)}
    (h : ∀ s x, body s = .done x → Fails codes x) (n : ℕ) (s : σ) :
    Fails codes ((Loop.run body n s).getD (.error .fault)) := by
  cases hrun : Loop.run body n s with
  | none => exact fault
  | some x =>
    obtain ⟨s', -, hdone⟩ := Loop.exists_done hrun
    exact h s' x hdone

/-- What fails with some codes fails with any more. -/
lemma mono (h : codes ⊆ codes') {x : Parse α} (hx : Fails codes x) : Fails codes' x :=
  fun e he => h (hx e he)

end Fails

namespace Reader

/-! ## Numbers -/

/-- `scan_number` reports the digits before the point. -/
lemma fails_scanWhole (text : Bytes) (pos : ℕ) : Fails readerCodes (scanWhole text pos) := by
  unfold scanWhole
  split
  · exact Fails.fail (by decide) _
  · split_ifs
    · split
      · exact Fails.ok _
      · split_ifs
        · exact Fails.fail (by decide) _
        · exact Fails.ok _
    · exact Fails.ok _
    · exact Fails.fail (by decide) _

/-- `scan_number` reports missing digits, with any message. -/
lemma fails_scanDigits (text : Bytes) (pos : ℕ) (message : Bytes) :
    Fails readerCodes (scanDigits text pos message) := by
  unfold scanDigits
  split
  · exact Fails.fail (by decide) _
  · split_ifs
    · exact Fails.ok _
    · exact Fails.fail (by decide) _

/-- `scan_number` reports a point without digits. -/
lemma fails_scanFraction (text : Bytes) (pos : ℕ) :
    Fails readerCodes (scanFraction text pos) := by
  unfold scanFraction
  split
  · exact Fails.ok _
  · split_ifs
    · exact (fails_scanDigits _ _ _).bind fun _ => Fails.ok _
    · exact Fails.ok _

/-- `scan_number` reports an exponent without digits. -/
lemma fails_scanExponent (text : Bytes) (pos : ℕ) :
    Fails readerCodes (scanExponent text pos) := by
  unfold scanExponent
  split
  · exact Fails.ok _
  · split_ifs
    · exact (fails_scanDigits _ _ _).bind fun _ => Fails.ok _
    · exact Fails.ok _

/-- A token that is not a number is of the wrong type or malformed. -/
lemma fails_scanNumber (r : Reader) : Fails readerCodes r.scanNumber := by
  unfold scanNumber
  split
  · exact Fails.fail (by decide) _
  · split
    · exact Fails.fail (by decide) _
    · exact (fails_scanWhole _ _).bind fun _ => (fails_scanFraction _ _).bind fun _ =>
        (fails_scanExponent _ _).bind fun _ => Fails.ok _

/-! ## Strings -/

/-- An access to the text reports nothing. -/
lemma fails_byteAt (r : Reader) (i : ℕ) : Fails readerCodes (r.byteAt i) := by
  unfold byteAt
  split
  · exact Fails.ok _
  · exact Fails.fault

/-- The loop over hexadecimal digits reports nothing: it answers that there are none. -/
lemma fails_hexLoop (r : Reader) (n i value : ℕ) : Fails readerCodes (hexLoop r n i value) := by
  induction n generalizing i value with
  | zero => exact Fails.ok _
  | succ n ih =>
    refine (fails_byteAt _ _).bind fun c => ?_
    split
    · exact Fails.ok _
    · exact ih _ _

/-- `read_hex4` reports nothing either: it answers false. -/
lemma fails_readHex4 (r : Reader) : Fails readerCodes r.readHex4 := by
  unfold readHex4
  split_ifs
  · exact Fails.ok _
  · refine (fails_hexLoop _ _ _ _).bind fun value => ?_
    cases value <;> exact Fails.ok _

/-- A missing low surrogate is malformed. -/
lemma fails_readLowSurrogate (r : Reader) : Fails readerCodes r.readLowSurrogate := by
  unfold readLowSurrogate
  split_ifs
  · exact Fails.fail (by decide) _
  · refine (fails_byteAt _ _).bind fun a => (fails_byteAt _ _).bind fun b => ?_
    split_ifs
    · exact Fails.fail (by decide) _
    · refine (fails_readHex4 _).bind fun low => ?_
      cases low with
      | none => exact Fails.fail (by decide) _
      | some p =>
        dsimp only
        split_ifs
        · exact Fails.fail (by decide) _
        · exact Fails.ok _

/-- An escape of a code point fails at its digits or at its low surrogate. -/
lemma fails_appendCodePoint (r : Reader) (out : Bytes) :
    Fails readerCodes (r.appendCodePoint out) := by
  unfold appendCodePoint
  refine (fails_readHex4 _).bind fun high => ?_
  cases high with
  | none => exact Fails.fail (by decide) _
  | some p =>
    dsimp only
    split_ifs
    · exact Fails.fail (by decide) _
    · exact (fails_readLowSurrogate _).bind fun _ => Fails.ok _
    · exact Fails.ok _

/-- An escape fails at its end, at its letter, or as that of a code point. -/
lemma fails_appendEscape (r : Reader) (out : Bytes) : Fails readerCodes (r.appendEscape out) := by
  unfold appendEscape
  split
  · exact Fails.fail (by decide) _
  · dsimp only
    split_ifs
    all_goals first
      | exact Fails.ok _
      | exact fails_appendCodePoint _ _
      | exact Fails.fail (by decide) _

/-- The loop over continuation bytes reports nothing: it answers false. -/
lemma fails_tailLoop (r : Reader) (n i : ℕ) : Fails readerCodes (r.tailLoop n i) := by
  induction n generalizing i with
  | zero => exact Fails.ok _
  | succ n ih =>
    refine (fails_byteAt _ _).bind fun b => ?_
    split_ifs
    · exact ih _
    · exact Fails.ok _

/-- A sequence of bytes that is not UTF-8 is malformed. -/
lemma fails_validateUtf8Run (r : Reader) : Fails readerCodes r.validateUtf8Run := by
  unfold validateUtf8Run
  refine (fails_byteAt _ _).bind fun lead => ?_
  split
  · exact Fails.fail (by decide) _
  · split_ifs
    · exact Fails.fail (by decide) _
    · refine (fails_byteAt _ _).bind fun second => ?_
      split
      · exact Fails.fail (by decide) _
      · refine (fails_tailLoop _ _ _).bind fun tail => ?_
        split_ifs
        · exact Fails.ok _
        · exact Fails.fail (by decide) _

/-- The loop of `scan_string` fails at its end, at an escape, at a control character, or at a
sequence that is not UTF-8. -/
lemma fails_stringBody (s : StringLoop) (x : Parse (Bytes × Reader))
    (h : stringBody s = .done x) : Fails readerCodes x := by
  unfold stringBody at h
  dsimp only at h
  split at h
  · cases h
    exact Fails.fail (by decide) _
  · split_ifs at h
    · cases h
      exact Fails.ok _
    · split at h
      · rename_i e he
        cases h
        intro e' he'
        cases he'
        exact fails_appendEscape _ _ e' he
      · cases h
    · cases h
      exact Fails.fail (by decide) _
    · split at h
      · rename_i e he
        cases h
        intro e' he'
        cases he'
        exact fails_validateUtf8Run _ e' he
      · cases h

/-- A token that is not a string is of the wrong type, and one that does not end well is malformed.
-/
lemma fails_scanString (r : Reader) : Fails readerCodes r.scanString := by
  unfold scanString
  split
  · exact Fails.fail (by decide) _
  · split_ifs
    · exact Fails.fail (by decide) _
    · exact Fails.loop fails_stringBody _ _

/-! ## Structure -/

/-- Another byte than the expected one is malformed. -/
lemma fails_expect (r : Reader) (c : UInt8) : Fails readerCodes (r.expect c) := by
  unfold expect
  split
  · exact Fails.fail (by decide) _
  · split
    · exact Fails.fail (by decide) _
    · exact Fails.ok _

/-- Nesting that is too deep is malformed. -/
lemma fails_pushLevel (r : Reader) : Fails readerCodes r.pushLevel := by
  unfold pushLevel
  split_ifs
  · exact Fails.fail (by decide) _
  · exact Fails.ok _
  · exact Fails.fault

/-- Leaving a level reports nothing. -/
lemma fails_popLevel (r : Reader) : Fails readerCodes r.popLevel := by
  unfold popLevel
  split
  · exact Fails.fault
  · exact Fails.ok _

/-- Before an item a missing comma is malformed. -/
lemma fails_separator (r : Reader) : Fails readerCodes r.separator := by
  unfold separator
  split
  · exact Fails.fault
  · split_ifs
    · exact Fails.ok _
    · exact fails_expect _ _
    · exact Fails.fault

/-- An object fails at its brace or at its depth. -/
lemma fails_beginObject (r : Reader) : Fails readerCodes r.beginObject :=
  (fails_expect _ _).bind fun _ => fails_pushLevel _

/-- An array fails at its bracket or at its depth. -/
lemma fails_beginArray (r : Reader) : Fails readerCodes r.beginArray :=
  (fails_expect _ _).bind fun _ => fails_pushLevel _

/-- The next member fails at its comma, its key or its colon, or at the end of the text. -/
lemma fails_nextMember (r : Reader) : Fails readerCodes r.nextMember := by
  unfold nextMember
  split
  · exact Fails.fail (by decide) _
  · split_ifs
    · exact (fails_popLevel _).bind fun _ => Fails.ok _
    · exact (fails_separator _).bind fun _ => (fails_scanString _).bind fun _ =>
        (fails_expect _ _).bind fun _ => Fails.ok _

/-- The next element fails at its comma or at the end of the text. -/
lemma fails_nextElement (r : Reader) : Fails readerCodes r.nextElement := by
  unfold nextElement
  split
  · exact Fails.fail (by decide) _
  · split_ifs
    · exact (fails_popLevel _).bind fun _ => Fails.ok _
    · exact (fails_separator _).bind fun _ => Fails.ok _

/-- Content after the document is malformed. -/
lemma fails_atDocumentEnd (r : Reader) : Fails readerCodes r.atDocumentEnd := by
  unfold atDocumentEnd
  split_ifs
  · exact Fails.fail (by decide) _
  · exact Fails.ok _

/-! ## Values -/

/-- An integer fails as a number, as one with a fraction or an exponent, or out of range. -/
lemma fails_readInt (r : Reader) : Fails readerCodes r.readInt := by
  refine (fails_scanNumber r).bind fun p => ?_
  dsimp only
  split
  · exact Fails.fail (by decide) _
  · split
    · exact Fails.fail (by decide) _
    · exact Fails.fail (by decide) _
    · exact Fails.ok _

/-- A number fails as a token or out of range. -/
lemma fails_readDouble {F : Type} [CharConv F] (r : Reader) :
    Fails readerCodes (r.readDouble (F := F)) := by
  refine (fails_scanNumber r).bind fun p => ?_
  dsimp only
  split
  · exact Fails.fail (by decide) _
  · exact Fails.fail (by decide) _
  · exact Fails.ok _

/-- What is neither true nor false is of the wrong type. -/
lemma fails_readBool (r : Reader) : Fails readerCodes r.readBool := by
  unfold readBool
  split
  · exact Fails.fail (by decide) _
  · split_ifs
    · exact Fails.ok _
    · exact Fails.ok _
    · exact Fails.fail (by decide) _

/-- What is not null is of the wrong type. -/
lemma fails_readNull (r : Reader) : Fails readerCodes r.readNull := by
  unfold readNull
  split
  · exact Fails.fail (by decide) _
  · exact Fails.ok _

end Reader

end Hotpath.Json
