import Hotpath.Json.ItemLoop
import Hotpath.Json.ScanNumber
import Hotpath.Protocol.Codec

set_option relaxedAutoImplicit false
set_option autoImplicit false

/-!
# The languages of the field values

The values a member of a wake message or of an ack can have, as languages over bytes, with the
texts that a field reader refuses by quoting them back. Each reader of `src/protocol.cpp` and
each `read_*` method of `json::Reader` is shown to read its language, in the sense of
`Json.Reader.Reads`.

## Main definitions

* `IntToken`, `NumberToken`, `TextToken`, `FlagToken`, `DirectionToken`, `StatusToken`,
  `RangeToken`, `RangesToken`, `ReasonToken`.
* `IntQuoted`, `NumberQuoted`, `EnumQuoted`, `RangesQuoted` — the refused texts.

## Main results

* `reads_int`, `reads_number`, `reads_text`, `reads_flag`, `reads_direction`, `reads_status`,
  `reads_ranges`, `reads_reason`.
-/

namespace Hotpath

open Json Json.Reader JsonText
open Utf8 (bytes encode)

variable {F : Type}

/-! ## Integers -/

/-- An integer literal of the range of `std::int64_t`, without fraction or exponent. -/
def IntToken (tok : Bytes) (v : Int64) : Prop :=
  ∃ n : Number, n.integral = true ∧ -2 ^ 63 ≤ n.intValue ∧ n.intValue ≤ 2 ^ 63 - 1 ∧
    tok = n.render ∧ v = Int64.ofInt n.intValue

/-- A number where an integer of that range is due: it has a fraction or an exponent, or is out
of range. -/
def IntQuoted (u : Bytes) (e : DecodeError) : Prop :=
  ∃ (n : Number) (t : Bytes), u = n.render ++ t ∧ n.Ends t ∧
    ((n.integral = false ∧ e = ⟨.wrongType, bytes "expected an integer, got " ++ n.render⟩) ∨
      (n.integral = true ∧ ¬ (-2 ^ 63 ≤ n.intValue ∧ n.intValue ≤ 2 ^ 63 - 1) ∧
        e = ⟨.outOfRange, bytes "integer out of range: " ++ n.render⟩))

/-- The reader goes over the number it scans. -/
private lemma goes_number {r : Reader} {w t : Bytes} {n : Number}
    (h : r.rest = w ++ (n.render ++ t)) :
    r.Goes (w ++ n.render) 0 (r.adv (w.length + n.render.length)) := by
  rw [← List.length_append]
  exact goes_adv (by rw [h, List.append_assoc])

/-- `read_int` reads the integer literals. -/
lemma reads_int : Reads 0 Reader.readInt IntToken IntQuoted where
  accepts := by
    rintro r w tok t v - hr hw ⟨n, hi, hlo, hhi, rfl, rfl⟩ ht
    refine ⟨_, ?_, goes_number hr⟩
    rw [readInt_scanned (scanNumber_of hr hw (ht.ends n)), if_neg (by simp [hi]),
      if_pos ⟨hlo, hhi⟩]
  accepted := by
    intro r r' v _ hok
    obtain ⟨⟨⟨tok, i⟩, r₁⟩, hscan, -⟩ := bind_eq_ok.mp hok
    obtain ⟨w, n, hw, hr, -, rfl, rfl, rfl⟩ := scanNumber_ok hscan
    rw [readInt_scanned hscan] at hok
    split_ifs at hok with hi hrange
    · simp at hok
    · simp only [Except.ok.injEq, Prod.mk.injEq] at hok
      obtain ⟨rfl, rfl⟩ := hok
      exact ⟨w, n.render, hw, ⟨n, by simpa using hi, hrange.1, hrange.2, rfl, rfl⟩, goes_number hr⟩
    · simp at hok
  quotes := by
    rintro r w u e - hr hw ⟨n, t, rfl, hends, ⟨hi, rfl⟩ | ⟨hi, hrange, rfl⟩⟩
    · rw [readInt_scanned (scanNumber_of hr hw hends), if_pos hi]
      rfl
    · rw [readInt_scanned (scanNumber_of hr hw hends), if_neg (by simp [hi]), if_neg hrange]
      rfl
  failed := by
    intro r f _ hf
    rcases bind_eq_error.mp hf with hscan | ⟨⟨⟨tok, i⟩, r₁⟩, hscan, -⟩
    · exact Or.inl (scanNumber_error hscan)
    · obtain ⟨w, n, hw, hr, hends, rfl, rfl, rfl⟩ := scanNumber_ok hscan
      rw [readInt_scanned hscan] at hf
      right
      split_ifs at hf with hi hrange
      · cases hf
        exact ⟨w, _, _, hw, hr, ⟨n, _, rfl, hends, Or.inl ⟨hi, rfl⟩⟩, rfl⟩
      · cases hf
        exact ⟨w, _, _, hw, hr, ⟨n, _, rfl, hends, Or.inr ⟨by simpa using hi, hrange, rfl⟩⟩, rfl⟩

/-! ## Numbers -/

/-- A number that `std::from_chars` converts. -/
def NumberToken [CharConv F] (tok : Bytes) (x : F) : Prop :=
  ∃ n : Number, tok = n.render ∧ CharConv.fromChars n.render = FromChars.value x

/-- A number that `std::from_chars` finds out of range. -/
def NumberQuoted (F : Type) [CharConv F] (u : Bytes) (e : DecodeError) : Prop :=
  ∃ (n : Number) (t : Bytes), u = n.render ++ t ∧ n.Ends t ∧
    (CharConv.fromChars n.render : FromChars F) = .outOfRange ∧
    e = ⟨.outOfRange, bytes "number out of range: " ++ n.render⟩

/-- `read_double` reads the numbers. -/
lemma reads_number [CharConv F] :
    Reads 0 (Reader.readDouble (F := F)) NumberToken (NumberQuoted F) where
  accepts := by
    rintro r w tok t x - hr hw ⟨n, rfl, hx⟩ ht
    refine ⟨_, ?_, goes_number hr⟩
    rw [readDouble, scanNumber_of hr hw (ht.ends n)]
    simp only [ok_bind, hx]
  accepted := by
    intro r r' x _ hok
    obtain ⟨⟨⟨tok, i⟩, r₁⟩, hscan, hok⟩ := bind_eq_ok.mp hok
    obtain ⟨w, n, hw, hr, -, rfl, rfl, rfl⟩ := scanNumber_ok hscan
    simp only at hok
    split at hok
    · simp at hok
    · simp at hok
    · next v hv =>
      simp only [Except.ok.injEq, Prod.mk.injEq] at hok
      obtain ⟨rfl, rfl⟩ := hok
      exact ⟨w, n.render, hw, ⟨n, rfl, hv⟩, goes_number hr⟩
  quotes := by
    rintro r w u e - hr hw ⟨n, t, rfl, hends, hx, rfl⟩
    rw [readDouble, scanNumber_of hr hw hends]
    simp only [ok_bind, hx]
    rfl
  failed := by
    intro r f _ hf
    rcases bind_eq_error.mp hf with hscan | ⟨⟨⟨tok, i⟩, r₁⟩, hscan, hf⟩
    · exact Or.inl (scanNumber_error hscan)
    · obtain ⟨w, n, hw, hr, hends, rfl, rfl, rfl⟩ := scanNumber_ok hscan
      simp only at hf
      split at hf
      · next hx =>
        cases hf
        exact Or.inr ⟨w, _, _, hw, hr, ⟨n, _, rfl, hends, hx, rfl⟩, rfl⟩
      · next hx => exact absurd hx (CharConv.fromChars_ne_invalid n)
      · cases hf

/-! ## Strings and enumerations -/

/-- A string token, as the UTF-8 of its scalar values. -/
def TextToken (tok : Bytes) (v : Bytes) : Prop := ∃ cs, StringToken tok cs ∧ v = encode cs

/-- Nothing is quoted. -/
def NotQuoted (_ : Bytes) (_ : DecodeError) : Prop := False

/-- The reader goes over the string it scans. -/
private lemma goes_string {r : Reader} {w tok t : Bytes} (h : r.rest = w ++ (tok ++ t)) :
    r.Goes (w ++ tok) 0 (r.adv (w.length + tok.length)) := by
  rw [← List.length_append]
  exact goes_adv (by rw [h, List.append_assoc])

/-- `read_string` reads the strings. -/
lemma reads_text : Reads 0 Reader.readString TextToken NotQuoted where
  accepts := by
    rintro r w tok t v - hr hw ⟨cs, htok, rfl⟩ -
    exact ⟨_, scanString_of hr hw htok, goes_string hr⟩
  accepted := by
    intro r r' v _ hok
    obtain ⟨w, tok, cs, hw, htok, hr, rfl, rfl⟩ := scanString_ok hok
    exact ⟨w, tok, hw, ⟨cs, htok, rfl⟩, goes_string hr⟩
  quotes := by
    rintro r w u e - - - ⟨⟩
  failed := fun _ hf => Or.inl (scanString_error hf)

/-- A string that is none of the two names of an enumeration. -/
def EnumQuoted (first second message : Bytes) (u : Bytes) (e : DecodeError) : Prop :=
  ∃ tok cs t, StringToken tok cs ∧ u = tok ++ t ∧ encode cs ≠ first ∧ encode cs ≠ second ∧
    e = ⟨.unknownEnumValue, message ++ encode cs⟩

/-- The reader of an enumeration with two names, in the form `read_direction` and `read_status`
share. -/
private lemma reads_enum {α : Type} {a b : α} {first second message : Bytes}
    {read : Reader → Parse (α × Reader)} {Token : Bytes → α → Prop} (hne : first ≠ second)
    (hread : ∀ r : Reader, read r = r.readString >>= fun p =>
      if p.1 = first then .ok (a, p.2)
      else if p.1 = second then .ok (b, p.2)
      else .error (.error ⟨.unknownEnumValue, message ++ p.1⟩))
    (hT : ∀ tok x, Token tok x ↔ ∃ cs, StringToken tok cs ∧
      (encode cs = first ∧ x = a ∨ encode cs = second ∧ x = b)) :
    Reads 0 read Token (EnumQuoted first second message) where
  accepts := by
    rintro r w tok t x - hr hw htok -
    obtain ⟨cs, hs, hx⟩ := (hT tok x).mp htok
    refine ⟨_, ?_, goes_string hr⟩
    rw [hread, readString, scanString_of hr hw hs, ok_bind]
    rcases hx with ⟨hcs, rfl⟩ | ⟨hcs, rfl⟩
    · rw [if_pos hcs]
    · rw [if_neg (by rw [hcs]; exact hne.symm), if_pos hcs]
  accepted := by
    intro r r' x _ hok
    rw [hread] at hok
    obtain ⟨⟨out, r₁⟩, hscan, hok⟩ := bind_eq_ok.mp hok
    obtain ⟨w, tok, cs, hw, hs, hr, rfl, rfl⟩ := scanString_ok hscan
    refine ⟨w, tok, hw, (hT tok x).mpr ⟨cs, hs, ?_⟩, ?_⟩
    · simp only at hok
      split_ifs at hok with h1 h2 <;> simp only [Except.ok.injEq, Prod.mk.injEq] at hok
      · exact Or.inl ⟨h1, hok.1.symm⟩
      · exact Or.inr ⟨h2, hok.1.symm⟩
    · have hr' : r' = r.adv (w.length + tok.length) := by
        simp only at hok
        split_ifs at hok <;> simp only [Except.ok.injEq, Prod.mk.injEq] at hok <;>
          exact hok.2.symm
      rw [hr']
      exact goes_string hr
  quotes := by
    rintro r w u e - hr hw ⟨tok, cs, t, hs, rfl, h1, h2, rfl⟩
    rw [hread, readString, scanString_of hr hw hs, ok_bind]
    simp only [if_neg h1, if_neg h2]
  failed := by
    intro r f _ hf
    rw [hread] at hf
    rcases bind_eq_error.mp hf with hscan | ⟨⟨out, r₁⟩, hscan, hf⟩
    · exact Or.inl (scanString_error hscan)
    · obtain ⟨w, tok, cs, hw, hs, hr, rfl, rfl⟩ := scanString_ok hscan
      simp only at hf
      split_ifs at hf with h1 h2
      cases hf
      exact Or.inr ⟨w, _, _, hw, hr, ⟨tok, cs, _, hs, rfl, h1, h2, rfl⟩, rfl⟩

/-- The name of a direction, as a string. -/
def DirectionToken (tok : Bytes) (d : Direction) : Prop :=
  ∃ cs, StringToken tok cs ∧ encode cs = d.nameOf

/-- The name of a status, as a string. -/
def StatusToken (tok : Bytes) (s : WakeAckStatus) : Prop :=
  ∃ cs, StringToken tok cs ∧ encode cs = s.nameOf

/-- A string that names no direction. -/
def DirectionQuoted : Bytes → DecodeError → Prop :=
  EnumQuoted (bytes "yes") (bytes "no") (bytes "direction must be yes or no, got ")

/-- A string that names no status. -/
def StatusQuoted : Bytes → DecodeError → Prop :=
  EnumQuoted (bytes "accepted") (bytes "rejected")
    (bytes "status must be accepted or rejected, got ")

/-- `read_direction` reads the names of the directions. -/
lemma reads_direction : Reads 0 readDirection DirectionToken DirectionQuoted := by
  refine reads_enum (a := .yes) (b := .no) (by decide) (fun r => rfl) fun tok x => ?_
  cases x <;> simp [DirectionToken, Direction.nameOf]

/-- `read_status` reads the names of the statuses. -/
lemma reads_status : Reads 0 readStatus StatusToken StatusQuoted := by
  refine reads_enum (a := .accepted) (b := .rejected) (by decide) (fun r => rfl) fun tok x => ?_
  cases x <;> simp [StatusToken, WakeAckStatus.nameOf]

/-! ## Literals -/

/-- The text of a boolean. -/
def flagText (b : Bool) : Bytes := if b then bytes "true" else bytes "false"

/-- `true` or `false`. -/
def FlagToken (tok : Bytes) (b : Bool) : Prop := tok = flagText b

/-- `starts_with` at a reader's position. -/
private lemma startsWith_rest {r : Reader} {tok : Bytes} :
    startsWith r.text r.pos tok = true ↔ ∃ t, r.rest = tok ++ t := by
  rw [startsWith, List.isPrefixOf_iff_prefix, ← rest]
  constructor
  · rintro ⟨t, ht⟩
    exact ⟨t, ht.symm⟩
  · rintro ⟨t, ht⟩
    exact ⟨t, ht.symm⟩

/-- `read_bool` reads the two literals. -/
lemma reads_flag : Reads 0 Reader.readBool FlagToken NotQuoted where
  accepts := by
    rintro r w tok t b - hr hw htok -
    obtain rfl : tok = flagText b := htok
    have hg : r.Goes (w ++ flagText b) 0 (r.adv (w ++ flagText b).length) :=
      goes_adv (by rw [hr, List.append_assoc])
    have hrest : (r.adv w.length).rest = flagText b ++ t := rest_adv_of hr
    have hstart := startsWith_rest.mpr ⟨t, hrest⟩
    refine ⟨_, ?_, hg⟩
    cases b with
    | true =>
      have hlen : (flagText true).length = 4 := by decide
      have hp : r.peek = (some 0x74, r.adv w.length) := peek_of hr hw (by decide)
      rw [readBool, hp]
      simp only
      rw [show bytes "true" = flagText true from rfl, if_pos hstart, List.length_append, hlen,
        ← adv_adv]
      rfl
    | false =>
      have hlen : (flagText false).length = 5 := by decide
      have hp : r.peek = (some 0x66, r.adv w.length) := peek_of hr hw (by decide)
      have hnot : ¬ startsWith (r.adv w.length).text (r.adv w.length).pos
          (bytes "true") = true := by
        rw [startsWith_rest, hrest]
        rintro ⟨t', ht'⟩
        have h1 : (flagText false ++ t).head? = some 0x66 := rfl
        rw [ht'] at h1
        exact absurd h1 (by simp [show bytes "true" = [0x74, 0x72, 0x75, 0x65] from rfl])
      rw [readBool, hp]
      simp only
      rw [if_neg hnot, show bytes "false" = flagText false from rfl, if_pos hstart,
        List.length_append, hlen, ← adv_adv]
      rfl
  accepted := by
    intro r r' b _ hok
    rcases r.peek_cases with ⟨w, -, -, hp⟩ | ⟨w, c, t, hw, -, hr, hp⟩
    · simp [readBool, hp] at hok
    · have hgo : ∀ tok : Bytes, startsWith (r.adv w.length).text (r.adv w.length).pos tok = true →
          r.Goes (w ++ tok) 0 (r.adv (w ++ tok).length) := by
        intro tok htok
        obtain ⟨t', ht'⟩ := startsWith_rest.mp htok
        exact goes_adv (t := t') (by rw [hr, List.append_assoc, ← ht', rest_adv_of hr])
      rw [readBool, hp] at hok
      simp only at hok
      split_ifs at hok with h1 h2 <;>
        simp only [fail_ne_ok, Except.ok.injEq, Prod.mk.injEq] at hok
      · obtain ⟨rfl, rfl⟩ := hok
        have hlen : (bytes "true").length = 4 := by decide
        have hg := hgo _ h1
        rw [List.length_append, hlen, ← adv_adv] at hg
        exact ⟨w, bytes "true", hw, rfl, hg⟩
      · obtain ⟨rfl, rfl⟩ := hok
        have hlen : (bytes "false").length = 5 := by decide
        have hg := hgo _ h2
        rw [List.length_append, hlen, ← adv_adv] at hg
        exact ⟨w, bytes "false", hw, rfl, hg⟩
  quotes := by
    rintro r w u e - - - ⟨⟩
  failed := by
    intro r f _ hf
    left
    rcases r.peek_cases with ⟨w, -, -, hp⟩ | ⟨w, c, t, -, -, -, hp⟩
    · rw [readBool, hp] at hf
      exact plain_of_fail (by decide) hf
    · rw [readBool, hp] at hf
      simp only at hf
      split_ifs at hf
      exact plain_of_fail (by decide) hf

/-- A string, or `null` for its absence. -/
def ReasonToken (tok : Bytes) (v : Option Bytes) : Prop :=
  (tok = bytes "null" ∧ v = none) ∨ ∃ cs, StringToken tok cs ∧ v = some (encode cs)

/-- At `null` the `reason` branch reads it. -/
private lemma readReason_null {r : Reader} {w t : Bytes} (hr : r.rest = w ++ (bytes "null" ++ t))
    (hw : Blank w) : readReason r = .ok (none, r.adv (w ++ bytes "null").length) := by
  have hlen : (bytes "null").length = 4 := by decide
  have hhead : ∀ b ∈ (bytes "null" ++ t).head?, isSpace b = false := by
    intro b hb
    obtain rfl : 0x6E = b := by
      simpa [show bytes "null" = [0x6E, 0x75, 0x6C, 0x6C] from rfl] using hb
    decide
  have hrest : (r.adv w.length).rest = bytes "null" ++ t := rest_adv_of hr
  have hskip : r.skipWhitespace = r.adv w.length := skipWhitespace_of hr hw hhead
  have hskip' : (r.adv w.length).skipWhitespace = r.adv w.length :=
    skipWhitespace_of (w := []) hrest blank_nil hhead
  have hnull : startsWith (r.adv w.length).text (r.adv w.length).pos (bytes "null") = true :=
    startsWith_rest.mpr ⟨t, hrest⟩
  have hat : r.atNull = (true, r.adv w.length) := by
    rw [atNull, hskip]
    exact Prod.ext hnull rfl
  have hat' : (r.adv w.length).atNull = (true, r.adv w.length) := by
    rw [atNull, hskip']
    exact Prod.ext hnull rfl
  rw [readReason, hat]
  simp only [if_true, readNull, hat', not_true_eq_false, if_false, ok_bind]
  rw [List.length_append, hlen, ← adv_adv]
  rfl

/-- Elsewhere the `reason` branch reads a string. -/
private lemma readReason_text {r : Reader} {w t : Bytes} (hr : r.rest = w ++ t) (hw : Blank w)
    (ht : ∀ b ∈ t.head?, isSpace b = false) (hnull : ∀ t', t ≠ bytes "null" ++ t') :
    readReason r = (r.adv w.length).readString >>= fun p => .ok (some p.1, p.2) := by
  have hat : r.atNull = (false, r.adv w.length) := by
    rw [atNull, skipWhitespace_of hr hw ht]
    refine Prod.ext ?_ rfl
    have : ¬ startsWith (r.adv w.length).text (r.adv w.length).pos (bytes "null") = true := by
      rw [startsWith_rest, rest_adv_of hr]
      rintro ⟨t', ht'⟩
      exact hnull t' ht'
    simpa using this
  rw [readReason, hat]
  rfl

/-- The `reason` branch reads the strings and `null`. -/
lemma reads_reason : Reads 0 readReason ReasonToken NotQuoted where
  accepts := by
    rintro r w tok t v hd hr hw htok hstop
    rcases htok with ⟨rfl, rfl⟩ | ⟨cs, hs, rfl⟩
    · exact ⟨_, readReason_null hr hw, goes_adv (by rw [hr, List.append_assoc])⟩
    · obtain ⟨u, hu, rfl⟩ := hs
      have hrest : (r.adv w.length).rest = [] ++ ((0x22 :: (u ++ [0x22])) ++ t) := rest_adv_of hr
      obtain ⟨r', hr', hg⟩ := reads_text.accepts (r := r.adv w.length) hd hrest blank_nil
        ⟨cs, ⟨u, hu, rfl⟩, rfl⟩ hstop
      have hgo : r.Goes w 0 (r.adv w.length) := goes_adv hr
      refine ⟨r', ?_, by simpa using hgo.trans_zero hg⟩
      rw [readReason_text hr hw (by simp; decide) (fun t' ht' => ?_), hr', ok_bind]
      have := congrArg List.head? ht'
      simp [show bytes "null" = [0x6E, 0x75, 0x6C, 0x6C] from rfl] at this
  accepted := by
    intro r r' v hd hok
    obtain ⟨w, t, hw, hr, ht⟩ := r.exists_blank
    by_cases hnull : ∃ t', t = bytes "null" ++ t'
    · obtain ⟨t', rfl⟩ := hnull
      rw [readReason_null hr hw] at hok
      simp only [Except.ok.injEq, Prod.mk.injEq] at hok
      obtain ⟨rfl, rfl⟩ := hok
      exact ⟨w, bytes "null", hw, Or.inl ⟨rfl, rfl⟩, goes_adv (by rw [hr, List.append_assoc])⟩
    · rw [readReason_text hr hw ht fun t' h => hnull ⟨t', h⟩] at hok
      obtain ⟨⟨out, r₁⟩, h₁, h₂⟩ := bind_eq_ok.mp hok
      simp only [Except.ok.injEq, Prod.mk.injEq] at h₂
      obtain ⟨rfl, rfl⟩ := h₂
      obtain ⟨w', tok, hw', ⟨cs, hs, rfl⟩, hg⟩ := reads_text.accepted (r := r.adv w.length) hd h₁
      have hgo : r.Goes w 0 (r.adv w.length) := goes_adv hr
      exact ⟨w ++ w', tok, hw.append hw', Or.inr ⟨cs, hs, rfl⟩, by simpa using hgo.trans_zero hg⟩
  quotes := by
    rintro r w u e - - - ⟨⟩
  failed := by
    intro r f hd hf
    obtain ⟨w, t, hw, hr, ht⟩ := r.exists_blank
    by_cases hnull : ∃ t', t = bytes "null" ++ t'
    · obtain ⟨t', rfl⟩ := hnull
      rw [readReason_null hr hw] at hf
      cases hf
    · rw [readReason_text hr hw ht fun t' h => hnull ⟨t', h⟩] at hf
      rcases bind_eq_error.mp hf with hf | ⟨p, -, hf⟩
      · exact Or.inl (scanString_error hf)
      · cases hf

/-! ## Price ranges -/

/-- An entry of `price_ranges`: an array of exactly three numbers. -/
def RangeToken [CharConv F] (tok : Bytes) (range : PriceRange F) : Prop :=
  ∃ c w, Listing NumberToken [range.start, range.end_, range.step] c ∧ Blank w ∧
    tok = 0x5B :: (c ++ (w ++ [0x5D]))

/-- A `price_ranges` array. -/
def RangesToken [CharConv F] (tok : Bytes) (ranges : List (PriceRange F)) : Prop :=
  ∃ c w, Listing RangeToken ranges c ∧ Blank w ∧ tok = 0x5B :: (c ++ (w ++ [0x5D]))

/-- An entry one of whose three numbers is out of range. -/
def RangeQuoted (F : Type) [CharConv F] (u : Bytes) (e : DecodeError) : Prop :=
  ∃ (xs : List F) (c s u' : Bytes), Listing NumberToken xs c ∧ xs.length < 3 ∧
    Lead xs.isEmpty s ∧ NumberQuoted F u' e ∧ u = 0x5B :: (c ++ (s ++ u'))

/-- An array after some of whose entries comes one with a number out of range. -/
def RangesQuoted (F : Type) [CharConv F] (u : Bytes) (e : DecodeError) : Prop :=
  ∃ (ranges : List (PriceRange F)) (c s u' : Bytes), Listing RangeToken ranges c ∧
    Lead ranges.isEmpty s ∧ RangeQuoted F u' e ∧ u = 0x5B :: (c ++ (s ++ u'))

/-- An entry that is closed before its third number, or goes on behind it. -/
def RangeMalformed (F : Type) [CharConv F] (u : Bytes) : Prop :=
  ∃ (xs : List F) (c : Bytes), Listing NumberToken xs c ∧
    ((xs.length < 3 ∧ ∃ w t, Blank w ∧ u = 0x5B :: (c ++ (w ++ 0x5D :: t))) ∨
      xs.length = 3 ∧ ∃ w t, Blank w ∧ u = 0x5B :: (c ++ (w ++ 0x2C :: t)))

/-- An array after some of whose entries comes one that is malformed. -/
def RangesMalformed (F : Type) [CharConv F] (u : Bytes) : Prop :=
  ∃ (ranges : List (PriceRange F)) (c s u' : Bytes), Listing RangeToken ranges c ∧
    Lead ranges.isEmpty s ∧ RangeMalformed F u' ∧ u = 0x5B :: (c ++ (s ++ u'))

/-- A number starts an element. -/
private lemma startsElement_number {n : Number} {t : Bytes} : StartsElement (n.render ++ t) := by
  obtain ⟨b, u, hu, hb⟩ := n.head_render
  refine ⟨b, u ++ t, by rw [hu]; rfl, ?_⟩
  rcases hb with rfl | hb
  · exact ⟨by decide, by decide⟩
  · refine ⟨isSpace_of_isDigit hb, ?_⟩
    rintro rfl
    exact absurd hb (by decide)

/-- A bracket starts an element. -/
private lemma startsElement_bracket {t : Bytes} : StartsElement (0x5B :: t) :=
  ⟨0x5B, t, rfl, by decide, by decide⟩

section Ranges

variable [CharConv F]

/-- A bound is read. -/
private lemma readBound_of {r₀ r : Reader} {c s tok t : Bytes} {first : Bool} {x : F}
    (hd : r₀.depth + 1 ≤ kMaxDepth) (h : Inside r₀ c first r) (hr : r.rest = s ++ (tok ++ t))
    (hs : Lead first s) (hx : NumberToken tok x) (ht : Stops t) :
    ∃ r', readBound r = .ok (x, r') ∧ Inside r₀ (c ++ (s ++ tok)) false r' ∧ r'.rest = t := by
  obtain ⟨n, rfl, -⟩ := id hx
  have hstart : StartsElement n.render := by
    simpa using startsElement_number (n := n) (t := [])
  obtain ⟨r₁, r', h₁, h₂, hin⟩ := element_of reads_number hd h hr hs hx hstart ht
  refine ⟨r', ?_, hin, hin.goes.rest_of (by rw [h.goes.rest, hr]; simp)⟩
  rw [readBound, h₁, ok_bind]
  exact h₂

/-- What is read as a bound is one. -/
lemma readBound_ok {r₀ r r' : Reader} {c : Bytes} {first : Bool} {x : F}
    (hd : r₀.depth + 1 ≤ kMaxDepth) (h : Inside r₀ c first r) (hok : readBound r = .ok (x, r')) :
    ∃ s tok, Lead first s ∧ NumberToken tok x ∧ Inside r₀ (c ++ (s ++ tok)) false r' := by
  obtain ⟨⟨present, r₁⟩, h₁, hok⟩ := bind_eq_ok.mp hok
  cases present with
  | false => cases hok
  | true => exact element_ok reads_number hd h h₁ hok

/-- A bound out of range is quoted. -/
private lemma readBound_quoted {r₀ r : Reader} {c s u : Bytes} {first : Bool} {e : DecodeError}
    (hd : r₀.depth + 1 ≤ kMaxDepth) (h : Inside r₀ c first r) (hr : r.rest = s ++ u)
    (hs : Lead first s) (hq : NumberQuoted F u e) :
    readBound (F := F) r = .error (.error e) := by
  obtain ⟨n, t, rfl, -⟩ := id hq
  obtain ⟨r₁, h₁, h₂⟩ := element_quoted reads_number hd h hr hs hq startsElement_number
  rw [readBound, h₁, ok_bind]
  exact h₂

/-- The errors of a bound. -/
private lemma readBound_error {r₀ r : Reader} {c : Bytes} {first : Bool} {f : Failure}
    (hd : r₀.depth + 1 ≤ kMaxDepth) (h : Inside r₀ c first r)
    (hf : readBound (F := F) r = .error f) :
    f.Plain ∨ ∃ s u e, Lead first s ∧ r.rest = s ++ u ∧ NumberQuoted F u e ∧ f = .error e := by
  rcases bind_eq_error.mp hf with hf | ⟨⟨present, r₁⟩, h₁, hf⟩
  · exact Or.inl (nextElement_error h hf)
  · cases present with
    | false =>
      cases hf
      exact Or.inl ⟨_, rfl, by decide⟩
    | true => exact element_error reads_number hd h h₁ hf

/-- An entry, opened. -/
private lemma beginArray_of {r : Reader} {w t : Bytes} (hr : r.rest = w ++ 0x5B :: t)
    (hw : Blank w) (hd : r.depth < kMaxDepth) :
    ∃ r', r.beginArray = .ok r' ∧ Inside r (w ++ [0x5B]) true r' ∧ r'.rest = t := by
  obtain ⟨r', hr', hin⟩ := open_of hr hw (by decide) hd
  exact ⟨r', hr', hin, hin.goes.rest_of (by simp [hr])⟩

/-- `read_price_ranges` reads an entry of three numbers.

**Proof sketch.** The three bounds and the closing bracket one after another. In the
inversions, the bounds read so far are a listing, and the error of the next one quotes it. -/
lemma reads_range : Reads 1 (readEntry (F := F)) RangeToken (RangeQuoted F) where
  accepts := by
    rintro r w tok t ⟨x, y, z⟩ hd hr hw ⟨c, w', hl, hw', rfl⟩ ht
    obtain ⟨c₂, s₃, t₃, hl₂, hs₃, hz, rfl⟩ := Listing.snoc_inv (l := [x, y]) hl
    obtain ⟨c₁, s₂, t₂, hl₁, hs₂, hy, rfl⟩ := Listing.snoc_inv (l := [x]) hl₂
    obtain ⟨c₀, s₁, t₁, hl₀, hs₁, hx, rfl⟩ := Listing.snoc_inv (l := []) hl₁
    obtain rfl := hl₀.nil_inv
    simp only [List.append_assoc, List.nil_append, List.cons_append] at hr
    obtain ⟨r₁, h₁, hin₁, hr₁⟩ := beginArray_of hr hw (by omega)
    obtain ⟨r₂, h₂, hin₂, hr₂⟩ := readBound_of hd hin₁ hr₁ hs₁ hx (stops_lead hs₂)
    obtain ⟨r₃, h₃, hin₃, hr₃⟩ := readBound_of hd hin₂ hr₂ hs₂ hy (stops_lead hs₃)
    obtain ⟨r₄, h₄, hin₄, hr₄⟩ := readBound_of hd hin₃ hr₃ hs₃ hz
      (stops_blank hw' (by intro b hb; obtain rfl : 0x5D = b := by simpa using hb
                           decide))
    obtain ⟨r₅, h₅, hg⟩ := nextElement_close hin₄ hr₄ hw'
    refine ⟨r₅, ?_, by simpa [List.append_assoc] using hg⟩
    simp only [readEntry, h₁, h₂, h₃, h₄, h₅, ok_bind]
    rfl
  accepted := by
    rintro r r' ⟨x, y, z⟩ hd hok
    obtain ⟨r₁, h₁, hok⟩ := bind_eq_ok.mp hok
    obtain ⟨⟨x', r₂⟩, h₂, hok⟩ := bind_eq_ok.mp hok
    obtain ⟨⟨y', r₃⟩, h₃, hok⟩ := bind_eq_ok.mp hok
    obtain ⟨⟨z', r₄⟩, h₄, hok⟩ := bind_eq_ok.mp hok
    obtain ⟨⟨extra, r₅⟩, h₅, hok⟩ := bind_eq_ok.mp hok
    cases extra with
    | true => cases hok
    | false =>
      simp only [Bool.false_eq_true, if_false, Except.ok.injEq, Prod.mk.injEq,
        PriceRange.mk.injEq] at hok
      obtain ⟨⟨rfl, rfl, rfl⟩, rfl⟩ := hok
      obtain ⟨w, t, hw, -, hin₁⟩ := open_ok h₁
      obtain ⟨s₁, t₁, hs₁, hx, hin₂⟩ := readBound_ok hd hin₁ h₂
      obtain ⟨s₂, t₂, hs₂, hy, hin₃⟩ := readBound_ok hd hin₂ h₃
      obtain ⟨s₃, t₃, hs₃, hz, hin₄⟩ := readBound_ok hd hin₃ h₄
      rcases nextElement_ok hin₄ h₅ with ⟨-, w', hw', hg⟩ | ⟨hf, -⟩
      · have hl := ((Listing.nil.snoc hs₁ hx).snoc hs₂ hy).snoc hs₃ hz
        exact ⟨w, _, hw, ⟨_, w', hl, hw', rfl⟩, by simpa [List.append_assoc] using hg⟩
      · cases hf
  quotes := by
    rintro r w u e hd hr hw ⟨xs, c, s, u', hl, hlen, hs, hq, rfl⟩
    obtain ⟨r₁, h₁, hin₁, hr₁⟩ := beginArray_of hr hw (by omega)
    rw [readEntry, h₁, ok_bind]
    match xs, hlen with
    | [], _ =>
      obtain rfl := hl.nil_inv
      rw [readBound_quoted hd hin₁ (by simpa using hr₁) hs hq]
      rfl
    | [x], _ =>
      obtain ⟨c₀, s₁, t₁, hl₀, hs₁, hx, rfl⟩ := Listing.snoc_inv (l := []) hl
      obtain rfl := hl₀.nil_inv
      simp only [List.append_assoc, List.nil_append] at hr₁
      obtain ⟨r₂, h₂, hin₂, hr₂⟩ := readBound_of hd hin₁ hr₁ hs₁ hx (stops_lead hs)
      simp only [h₂, ok_bind, readBound_quoted hd hin₂ hr₂ hs hq]
      rfl
    | [x, y], _ =>
      obtain ⟨c₁, s₂, t₂, hl₁, hs₂, hy, rfl⟩ := Listing.snoc_inv (l := [x]) hl
      obtain ⟨c₀, s₁, t₁, hl₀, hs₁, hx, rfl⟩ := Listing.snoc_inv (l := []) hl₁
      obtain rfl := hl₀.nil_inv
      simp only [List.append_assoc, List.nil_append] at hr₁
      obtain ⟨r₂, h₂, hin₂, hr₂⟩ := readBound_of hd hin₁ hr₁ hs₁ hx (stops_lead hs₂)
      obtain ⟨r₃, h₃, hin₃, hr₃⟩ := readBound_of hd hin₂ hr₂ hs₂ hy (stops_lead hs)
      simp only [h₂, h₃, ok_bind, readBound_quoted hd hin₃ hr₃ hs hq]
      rfl
  failed := by
    intro r f hd hf
    rcases bind_eq_error.mp hf with hf | ⟨r₁, h₁, hf⟩
    · exact Or.inl (open_error (by decide) (by omega) hf)
    obtain ⟨w, t, hw, hr, hin₁⟩ := open_ok h₁
    have hquote : ∀ {xs : List F} {c s u : Bytes} {r' : Reader} {e : DecodeError},
        Listing NumberToken xs c → xs.length < 3 → Inside r (w ++ [0x5B] ++ c) xs.isEmpty r' →
        Lead xs.isEmpty s → r'.rest = s ++ u → NumberQuoted F u e →
        ∃ w u e', Blank w ∧ r.rest = w ++ u ∧ RangeQuoted F u e' ∧
          (Failure.error e : Failure) = .error e' := by
      intro xs c s u r' e hl hlen hin hs hr' hq
      refine ⟨w, _, e, hw, ?_, ⟨xs, c, s, u, hl, hlen, hs, hq, rfl⟩, rfl⟩
      rw [hin.goes.rest, hr']
      simp
    rcases bind_eq_error.mp hf with hf | ⟨⟨x, r₂⟩, h₂, hf⟩
    · refine (readBound_error hd hin₁ hf).imp id ?_
      rintro ⟨s, u, e, hs, hr', hq, rfl⟩
      exact hquote Listing.nil (by simp) (by simpa using hin₁) hs hr' hq
    obtain ⟨s₁, t₁, hs₁, hx, hin₂⟩ := readBound_ok hd hin₁ h₂
    have hl₁ := Listing.nil.snoc hs₁ hx
    rcases bind_eq_error.mp hf with hf | ⟨⟨y, r₃⟩, h₃, hf⟩
    · refine (readBound_error hd hin₂ hf).imp id ?_
      rintro ⟨s, u, e, hs, hr', hq, rfl⟩
      exact hquote hl₁ (by simp) (by simpa using hin₂) hs hr' hq
    obtain ⟨s₂, t₂, hs₂, hy, hin₃⟩ := readBound_ok hd hin₂ h₃
    have hl₂ := hl₁.snoc hs₂ hy
    rcases bind_eq_error.mp hf with hf | ⟨⟨z, r₄⟩, h₄, hf⟩
    · refine (readBound_error hd hin₃ hf).imp id ?_
      rintro ⟨s, u, e, hs, hr', hq, rfl⟩
      exact hquote hl₂ (by simp) (by simpa [List.append_assoc] using hin₃) hs hr' hq
    obtain ⟨s₃, t₃, hs₃, hz, hin₄⟩ := readBound_ok hd hin₃ h₄
    left
    rcases bind_eq_error.mp hf with hf | ⟨⟨extra, r₅⟩, -, hf⟩
    · exact nextElement_error hin₄ hf
    · cases extra with
      | true =>
        cases hf
        exact ⟨_, rfl, by decide⟩
      | false => cases hf

/-- An entry starts with its bracket. -/
private lemma startsElement_range {tok : Bytes} {range : PriceRange F} (h : RangeToken tok range) :
    StartsElement tok := by
  obtain ⟨c, w, -, -, rfl⟩ := h
  exact startsElement_bracket

/-- Adding the entries one by one makes up the list. -/
private lemma foldl_append_singleton {α : Type} (xs ys : List α) :
    ys.foldl (fun acc x => acc ++ [x]) xs = xs ++ ys := by
  induction ys generalizing xs with
  | nil => simp
  | cons y ys ih => simp [ih]

/-- The loop of `read_price_ranges` reads the entries of an array. -/
lemma itemLoop_ranges {r₀ : Reader} (hd : r₀.depth + 2 ≤ kMaxDepth) :
    ItemLoop r₀ (rangesBody (F := F)) (fun acc range => acc ++ [range]) (fun acc r => (acc, r))
      0x5D RangeToken (RangeQuoted F) where
  close_delimiter := by decide
  item_pos := by
    rintro tok range ⟨c, w, -, -, rfl⟩
    simp
  item_of := by
    intro r acc first c s tok t range hin hr hs hx ht
    obtain ⟨r₁, r', h₁, h₂, hin'⟩ :=
      element_of reads_range (by omega) hin hr hs hx (startsElement_range hx) ht
    exact ⟨r', by simp only [rangesBody, h₁, h₂], hin'⟩
  close_of := by
    intro r acc first c w t hin hr hw
    obtain ⟨r', h₁, hg⟩ := nextElement_close hin hr hw
    exact ⟨r', by simp only [rangesBody, h₁], hg⟩
  quote_of := by
    intro r acc first c s u e hin hr hs hq
    have hstart : StartsElement u := by
      obtain ⟨xs, c', s', u', -, -, -, -, rfl⟩ := id hq
      exact startsElement_bracket
    obtain ⟨r₁, h₁, h₂⟩ := element_quoted reads_range (by omega) hin hr hs hq hstart
    simp only [rangesBody, h₁, h₂]
  cases := by
    intro r acc first c hin
    cases h₁ : r.nextElement with
    | error f =>
      exact Or.inr (Or.inr ⟨f, by simp only [rangesBody, h₁], Or.inl (nextElement_error hin h₁)⟩)
    | ok p =>
      obtain ⟨present, r₁⟩ := p
      rcases nextElement_ok hin h₁ with ⟨rfl, w, hw, hg⟩ | ⟨rfl, s, hs, hin₁⟩
      · exact Or.inr (Or.inl ⟨w, r₁, hw, by simp only [rangesBody, h₁], hg⟩)
      · cases h₂ : readEntry (F := F) r₁ with
        | error f =>
          exact Or.inr (Or.inr ⟨f, by simp only [rangesBody, h₁, h₂],
            element_error reads_range (by omega) hin h₁ h₂⟩)
        | ok q =>
          obtain ⟨range, r₂⟩ := q
          obtain ⟨s', tok, hs', hx, hin₂⟩ := element_ok reads_range (by omega) hin h₁ h₂
          exact Or.inl ⟨s', tok, range, r₂, hs', hx, by simp only [rangesBody, h₁, h₂], hin₂⟩

/-- The text left inside a container is no longer than the document. -/
lemma length_rest_lt (r : Reader) : r.rest.length < r.text.length + 1 := by
  rw [length_rest]
  omega

/-- `read_price_ranges` reads the arrays of entries. -/
lemma reads_ranges : Reads 2 (readPriceRanges (F := F)) RangesToken (RangesQuoted F) where
  accepts := by
    rintro r w tok t ranges hd hr hw ⟨c, w', hl, hw', rfl⟩ -
    obtain ⟨r₁, h₁, hin₁, hr₁⟩ := beginArray_of hr hw (by omega)
    obtain ⟨r', hrun, hg⟩ := (itemLoop_ranges hd).run_of hl hw' (b := []) (t := t) hin₁
      (by simpa using hr₁) (length_rest_lt r₁)
    rw [foldl_append_singleton, List.nil_append] at hrun
    refine ⟨r', ?_, by simpa [List.append_assoc] using hg⟩
    rw [readPriceRanges, h₁, ok_bind, hrun]
    rfl
  accepted := by
    intro r r' ranges hd hok
    obtain ⟨r₁, h₁, hok⟩ := bind_eq_ok.mp hok
    obtain ⟨w, t, hw, -, hin₁⟩ := open_ok h₁
    obtain ⟨res, hrun, hres⟩ := (itemLoop_ranges (F := F) hd).run_cases (b := []) hin₁
      (length_rest_lt r₁)
    rw [hrun, Option.getD_some] at hok
    subst hok
    rcases hres with ⟨as, c, w', r₂, hl, hw', heq, hg⟩ | ⟨f, heq, -⟩
    · rw [foldl_append_singleton, List.nil_append] at heq
      simp only [Except.ok.injEq, Prod.mk.injEq] at heq
      obtain ⟨rfl, rfl⟩ := heq
      exact ⟨w, _, hw, ⟨c, w', hl, hw', rfl⟩, by simpa [List.append_assoc] using hg⟩
    · cases heq
  quotes := by
    rintro r w u e hd hr hw ⟨ranges, c, s, u', hl, hs, hq, rfl⟩
    obtain ⟨r₁, h₁, hin₁, hr₁⟩ := beginArray_of hr hw (by omega)
    have hrun := (itemLoop_ranges hd).run_quoted hl hs hq (b := []) hin₁ hr₁ (length_rest_lt r₁)
    rw [readPriceRanges, h₁, ok_bind, hrun]
    rfl
  failed := by
    intro r f hd hf
    rcases bind_eq_error.mp hf with hf | ⟨r₁, h₁, hf⟩
    · exact Or.inl (open_error (by decide) (by omega) hf)
    obtain ⟨w, t, hw, -, hin₁⟩ := open_ok h₁
    obtain ⟨res, hrun, hres⟩ :=
      (itemLoop_ranges (F := F) hd).run_cases (b := []) hin₁ (length_rest_lt r₁)
    rw [hrun, Option.getD_some] at hf
    subst hf
    rcases hres with ⟨as, c, w', r₂, -, -, heq, -⟩ | ⟨f', heq, hf'⟩
    · cases heq
    · cases heq
      refine hf'.imp id ?_
      rintro ⟨as, c, s, u, e, hl, hs, hr₁, hq, rfl⟩
      refine ⟨w, _, e, hw, ?_, ⟨as, c, s, u, hl, hs, hq, rfl⟩, rfl⟩
      rw [hin₁.goes.rest, hr₁]
      simp

end Ranges

end Hotpath
