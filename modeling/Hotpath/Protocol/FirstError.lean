import Hotpath.Json.ErrorCodes
import Hotpath.Protocol.Records

set_option relaxedAutoImplicit false
set_option autoImplicit false

/-!
# The error is that of the first offending member

The decoder reads members from the left and stops at the first failure, so the code of its error
says where in the body it is. An unknown key is reported exactly if all members before it were
read, whatever follows; a missing field only of a whole document, and then the first one in the
order of the list; and the codes of an enumeration and of the price ranges come from the members
with those keys, after members that were all read.

## Main definitions

* `Kind.codes` — the codes that reading a value of a kind can fail with.

## Main results

* `Schema.fails_member` — where an iteration of the member loop fails.
* `decodeWakeMessage_first_error` — what each of these codes says about the body.
-/

namespace Hotpath

open Json Json.Reader JsonText
open Utf8 (bytes encode)

variable {F : Type}

/-! ## The codes of the values -/

/-- The codes that reading a value can fail with. -/
def Kind.codes : Kind → List DecodeErrorCode
  | .direction | .status => .unknownEnumValue :: readerCodes
  | .ranges => .malformedPriceRange :: readerCodes
  | _ => readerCodes

/-- A reader's code is one of a longer list. -/
private lemma fails_cons {α : Type} {x : Parse α} (code : DecodeErrorCode)
    (h : Fails readerCodes x) : Fails (code :: readerCodes) x :=
  h.mono (List.subset_cons_self _ _)

/-- A direction fails as a string, or as one that names none. -/
lemma fails_readDirection (r : Reader) : Fails Kind.direction.codes (readDirection r) := by
  refine Fails.bind (fails_cons _ (fails_scanString r)) fun p => ?_
  dsimp only
  split_ifs
  · exact Fails.ok _
  · exact Fails.ok _
  · exact Fails.error List.mem_cons_self

/-- A status fails as a string, or as one that names none. -/
lemma fails_readStatus (r : Reader) : Fails Kind.status.codes (readStatus r) := by
  refine Fails.bind (fails_cons _ (fails_scanString r)) fun p => ?_
  dsimp only
  split_ifs
  · exact Fails.ok _
  · exact Fails.ok _
  · exact Fails.error List.mem_cons_self

/-- A reason fails as a string. -/
lemma fails_readReason (r : Reader) : Fails readerCodes (readReason r) := by
  unfold readReason
  split
  · exact (fails_readNull _).bind fun _ => Fails.ok _
  · exact (fails_scanString _).bind fun _ => Fails.ok _

/-- A bound of a price range fails at the end of its array or as a number. -/
lemma fails_readBound [CharConv F] (r : Reader) :
    Fails Kind.ranges.codes (readBound (F := F) r) := by
  refine Fails.bind (fails_cons _ (fails_nextElement r)) fun p => ?_
  dsimp only
  split
  · exact Fails.error List.mem_cons_self
  · exact fails_cons _ (fails_readDouble _)

/-- An entry of the price ranges fails at a bound, or by having too many or too few. -/
lemma fails_readEntry [CharConv F] (r : Reader) :
    Fails Kind.ranges.codes (readEntry (F := F) r) := by
  refine Fails.bind (fails_cons _ (fails_beginArray r)) fun _ => ?_
  refine (fails_readBound _).bind fun _ => (fails_readBound _).bind fun _ =>
    (fails_readBound _).bind fun _ => ?_
  refine Fails.bind (fails_cons _ (fails_nextElement _)) fun p => ?_
  dsimp only
  split_ifs
  · exact Fails.error List.mem_cons_self
  · exact Fails.ok _

/-- The price ranges fail as an array or at an entry. -/
lemma fails_readPriceRanges [CharConv F] (r : Reader) :
    Fails Kind.ranges.codes (readPriceRanges (F := F) r) := by
  refine Fails.bind (fails_cons _ (fails_beginArray r)) fun _ => Fails.loop ?_ _ _
  intro s x h
  unfold rangesBody at h
  split at h
  · rename_i e he
    cases h
    intro e' he'
    cases he'
    exact fails_cons _ (fails_nextElement s.1) e' he
  · cases h
    exact Fails.ok _
  · split at h
    · rename_i e he
      cases h
      intro e' he'
      cases he'
      exact fails_readEntry _ e' he
    · cases h

/-! ## The values that are refused -/

/-- A direction is refused as such if it is a string that names none. -/
lemma readDirection_refused {r : Reader} {e : DecodeError}
    (h : readDirection r = .error (.error e)) (hcode : e.code = .unknownEnumValue) :
    ∃ w u, Blank w ∧ r.rest = w ++ u ∧ DirectionQuoted u e := by
  rcases bind_eq_error.mp h with hscan | ⟨⟨out, r'⟩, hscan, h⟩
  · have := fails_scanString r e hscan
    rw [hcode] at this
    exact absurd this (by decide)
  · obtain ⟨w, tok, cs, hw, htok, hr, rfl, rfl⟩ := scanString_ok hscan
    dsimp only at h
    split_ifs at h with hyes hno
    cases h
    exact ⟨w, _, hw, hr, tok, cs, _, htok, rfl, hyes, hno, rfl⟩

/-- A bound is refused for the arity of its entry if the entry is closed in its place. -/
private lemma readBound_refused [CharConv F] {r₀ r : Reader} {c : Bytes} {first : Bool}
    {e : DecodeError} (hin : Inside r₀ c first r)
    (h : readBound (F := F) r = .error (.error e)) (hcode : e.code = .malformedPriceRange) :
    e = priceRangeArityError ∧ ∃ w t, Blank w ∧ r₀.rest = c ++ (w ++ 0x5D :: t) := by
  rcases bind_eq_error.mp h with hnext | ⟨⟨present, r'⟩, hnext, h⟩
  · have := fails_nextElement r e hnext
    rw [hcode] at this
    exact absurd this (by decide)
  · cases present with
    | true =>
      have := fails_readDouble (F := F) r' e h
      rw [hcode] at this
      exact absurd this (by decide)
    | false =>
      cases h
      rcases nextElement_ok hin hnext with ⟨-, w, hw, hg⟩ | ⟨hfalse, -⟩
      · exact ⟨rfl, w, r'.rest, hw, by simpa [List.append_assoc] using hg.rest⟩
      · cases hfalse

/-- An entry is refused for its arity if it is malformed.

**Proof sketch.** The entry is read one number after the other. The bounds read so far are a
listing, and behind it the entry is closed, or goes on after the third. -/
private lemma readEntry_refused [CharConv F] {r : Reader} {e : DecodeError}
    (hd : r.depth + 1 ≤ kMaxDepth) (h : readEntry (F := F) r = .error (.error e))
    (hcode : e.code = .malformedPriceRange) :
    e = priceRangeArityError ∧ ∃ w u, Blank w ∧ r.rest = w ++ u ∧ RangeMalformed F u := by
  rcases bind_eq_error.mp h with hopen | ⟨r₁, h₁, h⟩
  · have := fails_beginArray r e hopen
    rw [hcode] at this
    exact absurd this (by decide)
  obtain ⟨w, t, hw, -, hin₁⟩ := open_ok h₁
  have hclosed : ∀ {xs : List F} {c : Bytes} {r' : Reader}, Listing NumberToken xs c →
      xs.length < 3 → Inside r (w ++ [0x5B] ++ c) xs.isEmpty r' →
      readBound (F := F) r' = .error (.error e) →
      e = priceRangeArityError ∧ ∃ w u, Blank w ∧ r.rest = w ++ u ∧ RangeMalformed F u := by
    intro xs c r' hl hlen hin hbound
    obtain ⟨he, w', t', hw', hr⟩ := readBound_refused hin hbound hcode
    refine ⟨he, w, 0x5B :: (c ++ (w' ++ 0x5D :: t')), hw, ?_, xs, c, hl,
      .inl ⟨hlen, w', t', hw', rfl⟩⟩
    rw [hr]
    simp
  rcases bind_eq_error.mp h with h | ⟨⟨x, r₂⟩, h₂, h⟩
  · exact hclosed Listing.nil (by simp) (by simpa using hin₁) h
  obtain ⟨s₁, t₁, hs₁, hx, hin₂⟩ := readBound_ok hd hin₁ h₂
  have hl₁ := Listing.nil.snoc hs₁ hx
  rcases bind_eq_error.mp h with h | ⟨⟨y, r₃⟩, h₃, h⟩
  · exact hclosed hl₁ (by simp) (by simpa using hin₂) h
  obtain ⟨s₂, t₂, hs₂, hy, hin₃⟩ := readBound_ok hd hin₂ h₃
  have hl₂ := hl₁.snoc hs₂ hy
  rcases bind_eq_error.mp h with h | ⟨⟨z, r₄⟩, h₄, h⟩
  · exact hclosed hl₂ (by simp) (by simpa [List.append_assoc] using hin₃) h
  obtain ⟨s₃, t₃, hs₃, hz, hin₄⟩ := readBound_ok hd hin₃ h₄
  have hl₃ := hl₂.snoc hs₃ hz
  rcases bind_eq_error.mp h with h | ⟨⟨extra, r₅⟩, h₅, h⟩
  · have := fails_nextElement r₄ e h
    rw [hcode] at this
    exact absurd this (by decide)
  cases extra with
  | false => cases h
  | true =>
    cases h
    rcases nextElement_ok hin₄ h₅ with ⟨hfalse, -⟩ | ⟨-, s, ⟨w', hw', rfl⟩, hin₅⟩
    · cases hfalse
    · refine ⟨rfl, w, _, hw, ?_, _, _, hl₃, .inr ⟨rfl, w', r₅.rest, hw', rfl⟩⟩
      rw [hin₅.goes.rest]
      simp

/-- Price ranges are refused for an arity if they are malformed. -/
lemma readPriceRanges_refused [CharConv F] {r : Reader} {e : DecodeError}
    (hd : r.depth + 2 ≤ kMaxDepth) (h : readPriceRanges (F := F) r = .error (.error e))
    (hcode : e.code = .malformedPriceRange) :
    e = priceRangeArityError ∧ ∃ w u, Blank w ∧ r.rest = w ++ u ∧ RangesMalformed F u := by
  rcases bind_eq_error.mp h with hopen | ⟨r₁, h₁, h⟩
  · have := fails_beginArray r e hopen
    rw [hcode] at this
    exact absurd this (by decide)
  obtain ⟨w, t, hw, -, hin₁⟩ := open_ok h₁
  obtain ⟨res, hrun, as, c, r₂, hl, hin₂, hdone⟩ := (itemLoop_ranges (F := F) hd).run_done
    (b := []) hin₁ (length_rest_lt r₁)
  rw [hrun, Option.getD_some] at h
  subst h
  unfold rangesBody at hdone
  dsimp only at hdone
  split at hdone
  · rename_i f hnext
    cases hdone
    have := fails_nextElement r₂ e hnext
    rw [hcode] at this
    exact absurd this (by decide)
  · cases hdone
  · rename_i r₃ hnext
    split at hdone
    · rename_i f hentry
      cases hdone
      rcases nextElement_ok hin₂ hnext with ⟨hfalse, -⟩ | ⟨-, s, hs, hin₃⟩
      · cases hfalse
      · have hd₃ : r₃.depth + 1 ≤ kMaxDepth := by
          have := hin₃.goes.depth
          omega
        obtain ⟨he, w', u, hw', hr₃, hu⟩ := readEntry_refused hd₃ hentry hcode
        refine ⟨he, w, _, hw, ?_, as, c, s ++ w', u, hl, lead_append hs hw', hu, rfl⟩
        rw [hin₃.goes.rest, hr₃]
        simp
    · cases hdone

/-- Reading a value of a kind fails with a code of the kind. -/
lemma Kind.fails_read [CharConv F] (k : Kind) (r : Reader) :
    Fails k.codes (k.read (F := F) r) := by
  cases k with
  | int => exact (fails_readInt r).bind fun _ => Fails.ok _
  | text => exact (fails_scanString r).bind fun _ => Fails.ok _
  | number => exact (fails_readDouble r).bind fun _ => Fails.ok _
  | flag => exact (fails_readBool r).bind fun _ => Fails.ok _
  | direction => exact (fails_readDirection r).bind fun _ => Fails.ok _
  | ranges => exact (fails_readPriceRanges r).bind fun _ => Fails.ok _
  | status => exact (fails_readStatus r).bind fun _ => Fails.ok _
  | reason => exact (fails_readReason r).bind fun _ => Fails.ok _

/-- Which fields fail with the protocol's own codes: none with those about keys, one with each of
those about values. -/
private lemma WakeField.codes_own (f : WakeField) :
    DecodeErrorCode.unknownField ∉ f.kind.codes ∧ DecodeErrorCode.missingField ∉ f.kind.codes ∧
      (DecodeErrorCode.unknownEnumValue ∈ f.kind.codes → f = .direction) ∧
      (DecodeErrorCode.malformedPriceRange ∈ f.kind.codes → f = .priceRanges) := by
  cases f <;> decide

/-! ## The member that fails -/

/-- **Where an iteration fails**: before the colon of the next member, or in the field reader,
with a key that follows the members read so far. -/
lemma Schema.fails_member {M : Type} (S : Schema M) {body w c : Bytes}
    {ms : List (S.Field × S.Value)} {r : Reader} {acc : M × UInt32} {f : Failure} (hw : Blank w)
    (hl : Listing S.Member ms c) (hin : Inside (ofText body) (w ++ 0x7B :: c) ms.isEmpty r)
    (h : memberBody S.readField (r, acc) = .done (.error f)) :
    r.nextMember = .error f ∨ ∃ key before r₁, S.Before ms key before ∧
      body = before ++ r₁.rest ∧ r₁.depth = 1 ∧ S.readField r₁ key acc.1 acc.2 = .error f := by
  unfold memberBody at h
  dsimp only at h
  split at h
  · rename_i e he
    cases h
    exact Or.inl he
  · cases h
  · rename_i key r₁ hok
    right
    split at h
    · rename_i e he
      cases h
      rcases nextMember_ok hin hok with ⟨hnone, -⟩ | ⟨s, tok, w', cs, hkey, hs, htok, hw', hin'⟩
      · cases hnone
      · obtain rfl := Option.some.inj hkey
        refine ⟨_, _, r₁, ⟨w, c, s, tok, cs, w', hw, hl, hs, htok, rfl, hw', rfl⟩, ?_,
          hin'.goes.depth, he⟩
        have hrest := hin'.goes.rest
        rw [rest_ofText] at hrest
        simpa [List.append_assoc] using hrest
    · cases h

/-- The field reader fails where reading the value of the field fails, or because the key is not
one of the names. -/
private lemma readWakeField_error [OfScientific F] [CharConv F] {r : Reader} {key : Bytes}
    {m : WakeMessage F} {seen : UInt32} {e : DecodeError}
    (h : readWakeField r key m seen = .error (.error e)) :
    (∃ f, key = WakeField.name f ∧ f.kind.read (F := F) r = .error (.error e)) ∨
      (∀ f, key ≠ WakeField.name f) ∧ e = ⟨.unknownField, bytes "unexpected field: " ++ key⟩ := by
  by_cases hname : ∃ f, key = WakeField.name f
  · obtain ⟨f, rfl⟩ := hname
    have hread := ((wakeSchema F).readField_name f r m seen).symm.trans h
    rcases bind_eq_error.mp hread with hvalue | ⟨p, -, hput⟩
    · exact Or.inl ⟨f, rfl, hvalue⟩
    · cases hput
  · right
    have hother : ∀ f, key ≠ WakeField.name f := fun f hf => hname ⟨f, hf⟩
    refine ⟨hother, ?_⟩
    have heq := ((wakeSchema F).readField_other key hother r m seen).symm.trans h
    simpa using heq.symm

/-- A code that is not the reader's comes from the member that follows some members, all of them
read: from its value or from its key. Otherwise the whole document was read. -/
private lemma decode_code [OfScientific F] [CharConv F] {body : Bytes} {e : DecodeError}
    (h : decodeWakeMessage (F := F) body = .error e) (hcode : e.code ∉ readerCodes) :
    (∃ ms key before r, (wakeSchema F).Before ms key before ∧ body = before ++ r.rest ∧
      r.depth = 1 ∧ ((∃ f, key = WakeField.name f ∧ f.kind.read (F := F) r = .error (.error e)) ∨
        (∀ f, key ≠ WakeField.name f) ∧
          e = ⟨.unknownField, bytes "unexpected field: " ++ key⟩)) ∨
    ∃ ms, WakeDocument (F := F) body ms := by
  rcases (wakeSchema F).decode_fails (decodeWakeMessage_eq_error.mp h) with
    hopen | ⟨w, ms, c, r, acc, hw, hl, hin, hbody⟩ | ⟨r, hend⟩ | hdoc
  · exact absurd (fails_beginObject _ e hopen) hcode
  · rcases (wakeSchema F).fails_member hw hl hin hbody with
      hnext | ⟨key, before, r₁, hbefore, hrest, hdepth, hfield⟩
    · exact absurd (fails_nextMember r e hnext) hcode
    · exact Or.inl ⟨ms, key, before, r₁, hbefore, hrest, hdepth, readWakeField_error hfield⟩
  · exact absurd (fails_atDocumentEnd r e hend) hcode
  · exact Or.inr hdoc

/-! ## The missing field -/

/-- A required key does not occur, and those before it in the list do. -/
def FirstMissing (ms : List (WakeField × Value F)) (f : WakeField) : Prop :=
  ∃ present rest, WakeField.required = present ++ f :: rest ∧
    (∀ g ∈ present, ∃ v, (g, v) ∈ ms) ∧ ∀ v, (f, v) ∉ ms

/-- Unless every required key occurs there is a first that does not. -/
lemma exists_firstMissing {ms : List (WakeField × Value F)}
    (h : ¬ ∀ f ∈ WakeField.required, ∃ v, (f, v) ∈ ms) : ∃ f, FirstMissing ms f := by
  classical
  push Not at h
  obtain ⟨f, hf, hnone⟩ := h
  have hsome : (WakeField.required.find? fun g => ¬ ∃ v, (g, v) ∈ ms).isSome := by
    rw [List.find?_isSome]
    exact ⟨f, hf, by simpa using hnone⟩
  obtain ⟨g, hg⟩ := Option.isSome_iff_exists.mp hsome
  obtain ⟨hmissing, present, rest, hsplit, hpresent⟩ := List.find?_eq_some_iff_append.mp hg
  refine ⟨g, present, rest, hsplit, fun x hx => ?_, fun v hv => ?_⟩
  · simpa using hpresent x hx
  · simp only [decide_not, Bool.not_eq_true', decide_eq_false_iff_not] at hmissing
    exact hmissing ⟨v, hv⟩

/-- A document without some required key is refused with the name of the first such key. -/
lemma decodeWakeMessage_missing [OfScientific F] [CharConv F] {body : Bytes}
    {ms : List (WakeField × Value F)} {f : WakeField} (h : WakeDocument body ms)
    (hf : FirstMissing ms f) : decodeWakeMessage (F := F) body =
      .error ⟨.missingField, bytes "missing required field: " ++ f.name⟩ := by
  obtain ⟨present, rest, hsplit, hpresent, hnone⟩ := hf
  have hindex : ∀ g ∈ WakeField.required, g.index = some (g.index.getD 0) := by decide
  have hrequired : kWakeMessageRequired =
      WakeField.required.map fun g => (UInt32.ofNat (2 ^ g.index.getD 0), g.name) := by decide
  rw [hsplit] at hindex hrequired
  exact decodeWakeMessage_eq_error.mpr
    ((wakeSchema F).decode_missing h hindex hrequired hpresent hnone)

/-- A document is accepted, or refused for its first missing key. -/
lemma decodeWakeMessage_document [OfScientific F] [CharConv F] {body : Bytes}
    {ms : List (WakeField × Value F)} (h : WakeDocument body ms) :
    (∃ m : WakeMessage F, decodeWakeMessage body = .ok m) ∨
      ∃ f, FirstMissing ms f ∧ decodeWakeMessage (F := F) body =
        .error ⟨.missingField, bytes "missing required field: " ++ f.name⟩ := by
  by_cases hc : ∀ f ∈ WakeField.required, ∃ v, (f, v) ∈ ms
  · exact Or.inl ⟨_, decodeWakeMessage_eq_build.mpr ⟨ms, h, hc, rfl⟩⟩
  · obtain ⟨f, hf⟩ := exists_firstMissing hc
    exact Or.inr ⟨f, hf, decodeWakeMessage_missing h hf⟩

/-- A body that is refused for more than a missing field is not a document. -/
private lemma not_document [OfScientific F] [CharConv F] {body : Bytes} {e : DecodeError}
    {ms : List (WakeField × Value F)} (hdoc : WakeDocument body ms)
    (h : decodeWakeMessage (F := F) body = .error e) (hcode : e.code ≠ .missingField) : False := by
  rcases decodeWakeMessage_document hdoc with ⟨m, hm⟩ | ⟨f, -, hf⟩
  · rw [h] at hm
    cases hm
  · rw [h] at hf
    obtain rfl := Except.error.inj hf
    exact hcode rfl

/-- A code that only the values of one field have comes from the value of that field, behind
members that were all read. -/
private lemma decode_value [OfScientific F] [CharConv F] {body : Bytes} {e : DecodeError}
    {code : DecodeErrorCode} {f : WakeField} (h : decodeWakeMessage (F := F) body = .error e)
    (hcode : e.code = code) (hreader : code ∉ readerCodes)
    (hown : code ≠ .unknownField ∧ code ≠ .missingField)
    (hfield : ∀ g : WakeField, code ∈ g.kind.codes → g = f) :
    ∃ ms before r, (wakeSchema F).Before ms f.name before ∧ body = before ++ r.rest ∧
      r.depth = 1 ∧ f.kind.read (F := F) r = .error (.error e) := by
  rcases decode_code h (by rw [hcode]; exact hreader) with
    ⟨ms, key, before, r, hbefore, hbody, hdepth, ⟨g, rfl, hg⟩ | ⟨-, rfl⟩⟩ | ⟨ms, hdoc⟩
  · obtain rfl := hfield g (hcode ▸ g.kind.fails_read r e hg)
    exact ⟨ms, before, r, hbefore, hbody, hdepth, hg⟩
  · exact absurd hcode.symm hown.1
  · exact (not_document hdoc h (by rw [hcode]; exact hown.2)).elim

/-- A value that is wrapped fails where reading it fails. -/
private lemma map_eq_error {α β : Type} {x : Parse α} {g : α → β} {f : Failure}
    (h : (x >>= fun a => .ok (g a)) = .error f) : x = .error f := by
  rcases bind_eq_error.mp h with h | ⟨a, -, h⟩
  · exact h
  · cases h

/-! ## The first error -/

/-- **The error is that of the first offending member.** A body is refused for an unknown field
iff all members up to some key are members of the record and that key, with its colon, is none
of the names, whatever follows; for a missing field iff it is a whole document that lacks a
required key, and the message names the first one in the order of the record; for an unknown name
of an enumeration only if some members, all of them read, are followed by a direction whose value
is a string that names none, which the message quotes; and for a malformed price range only if
they are followed by price ranges with an entry, behind entries that were all read, that is closed
before its third number or goes on behind it. -/
theorem decodeWakeMessage_first_error [OfScientific F] [CharConv F] (body : Bytes) :
    (∀ e, decodeWakeMessage (F := F) body = .error e ∧ e.code = .unknownField ↔
      ∃ ms key before t, (wakeSchema F).Before ms key before ∧
        (∀ f, key ≠ WakeField.name f) ∧ body = before ++ t ∧
        e = ⟨.unknownField, bytes "unexpected field: " ++ key⟩) ∧
    (∀ e, decodeWakeMessage (F := F) body = .error e ∧ e.code = .missingField ↔
      ∃ (ms : List (WakeField × Value F)) (f : WakeField), WakeDocument body ms ∧
        FirstMissing ms f ∧
        e = ⟨.missingField, bytes "missing required field: " ++ f.name⟩) ∧
    (∀ e, decodeWakeMessage (F := F) body = .error e → e.code = .unknownEnumValue →
      ∃ ms before w u, (wakeSchema F).Before ms (WakeField.name .direction) before ∧ Blank w ∧
        body = before ++ (w ++ u) ∧ DirectionQuoted u e) ∧
    ∀ e, decodeWakeMessage (F := F) body = .error e → e.code = .malformedPriceRange →
      ∃ ms before w u, (wakeSchema F).Before ms (WakeField.name .priceRanges) before ∧ Blank w ∧
        body = before ++ (w ++ u) ∧ RangesMalformed F u ∧ e = priceRangeArityError := by
  refine ⟨?_, ?_, ?_, ?_⟩
  · intro e
    constructor
    · rintro ⟨h, hcode⟩
      rcases decode_code h (by rw [hcode]; decide) with
        ⟨ms, key, before, r, hbefore, hbody, -, ⟨f, -, hf⟩ | ⟨hother, he⟩⟩ | ⟨ms, hdoc⟩
      · exact absurd (hcode ▸ f.kind.fails_read r e hf) (WakeField.codes_own f).1
      · exact ⟨ms, key, before, r.rest, hbefore, hother, hbody, he⟩
      · exact (not_document hdoc h (by rw [hcode]; decide)).elim
    · rintro ⟨ms, _, _, t, ⟨w, c, s, tok, cs, w', hw, hl, hs, htok, rfl, hw', rfl⟩, hother,
        rfl, rfl⟩
      refine ⟨decodeWakeMessage_quoted ⟨w, ms, c, s, _, hw, hl, hs,
        Schema.MemberQuoted.key (t := t) htok hw' hother, ?_⟩, rfl⟩
      simp only [List.append_assoc, List.cons_append, List.nil_append]
  · intro e
    constructor
    · rintro ⟨h, hcode⟩
      rcases decode_code h (by rw [hcode]; decide) with
        ⟨ms, key, before, r, -, -, -, ⟨f, -, hf⟩ | ⟨-, rfl⟩⟩ | ⟨ms, hdoc⟩
      · exact absurd (hcode ▸ f.kind.fails_read r e hf) (WakeField.codes_own f).2.1
      · cases hcode
      · rcases decodeWakeMessage_document hdoc with ⟨m, hm⟩ | ⟨f, hmissing, hf⟩
        · rw [h] at hm
          cases hm
        · rw [h] at hf
          exact ⟨ms, f, hdoc, hmissing, Except.error.inj hf⟩
    · rintro ⟨ms, f, hdoc, hmissing, rfl⟩
      exact ⟨decodeWakeMessage_missing hdoc hmissing, rfl⟩
  · intro e h hcode
    obtain ⟨ms, before, r, hbefore, hbody, -, hread⟩ := decode_value h hcode
      (by decide) (by decide) fun f => (WakeField.codes_own f).2.2.1
    have hdirection : readDirection r = .error (.error e) := map_eq_error hread
    obtain ⟨w, u, hw, hr, hu⟩ := readDirection_refused hdirection hcode
    exact ⟨ms, before, w, u, hbefore, hw, by rw [hbody, hr], hu⟩
  · intro e h hcode
    obtain ⟨ms, before, r, hbefore, hbody, hdepth, hread⟩ := decode_value h hcode
      (by decide) (by decide) fun f => (WakeField.codes_own f).2.2.2
    have hranges : readPriceRanges (F := F) r = .error (.error e) := map_eq_error hread
    obtain ⟨he, w, u, hw, hr, hu⟩ :=
      readPriceRanges_refused (by rw [hdepth]; decide) hranges hcode
    exact ⟨ms, before, w, u, hbefore, hw, by rw [hbody, hr], hu, he⟩

end Hotpath
