import Mathlib.Data.Nat.Bitwise
import Hotpath.Protocol.Fields

set_option relaxedAutoImplicit false
set_option autoImplicit false

/-!
# Decoding a record

The two decoders of `src/protocol.cpp` run the same loop over the members of one object and
differ in their fields. A `Schema` describes the fields of a record; the language of the
records and the decoder's answer on every byte string follow from it.

## Main definitions

* `Schema` — the fields of a record, with the field reader that serves them.
* `Schema.Document` — the language: one object, its members in order.
* `lastValue` — the value of the last member with a given key.
* `Schema.Before` — a document up to the key of its next member.
* `Schema.DocumentQuoted` — the documents refused with a quotation of their own text.

## Main results

* `Schema.decode_eq_ok` — what is accepted, and with which result.
* `Schema.decode_quoted`, `Schema.decode_error` — what is refused, and with which error.
* `Schema.decode_missing`, `Schema.decode_fails` — the first missing field, and where else the
  decoder fails.
-/

namespace Hotpath

open Json Json.Reader JsonText
open Utf8 (bytes encode)

/-! ## The last value of a key -/

/-- The value of the last member with the key `f`. -/
def lastValue {ι V : Type} [DecidableEq ι] (f : ι) (ms : List (ι × V)) : Option V :=
  ((ms.filter fun p => p.1 = f).getLast?).map Prod.snd

/-- One more member is the last one of its key, and of no other. -/
lemma lastValue_snoc {ι V : Type} [DecidableEq ι] (f g : ι) (v : V) (ms : List (ι × V)) :
    lastValue f (ms ++ [(g, v)]) = if g = f then some v else lastValue f ms := by
  unfold lastValue
  split_ifs with h <;> simp [List.filter_append, h]

/-- No member, no value. -/
@[simp] lemma lastValue_nil {ι V : Type} [DecidableEq ι] (f : ι) :
    lastValue f ([] : List (ι × V)) = none := rfl

/-- The last value of a key is the value of a member. -/
lemma mem_of_lastValue {ι V : Type} [DecidableEq ι] {f : ι} {ms : List (ι × V)} {v : V}
    (h : lastValue f ms = some v) : (f, v) ∈ ms := by
  obtain ⟨⟨g, w⟩, hlast, rfl⟩ := Option.map_eq_some_iff.mp h
  obtain ⟨hmem, hkey⟩ := List.mem_filter.mp (List.mem_of_getLast? hlast)
  obtain rfl : g = f := by simpa using hkey
  exact hmem

/-! ## Schemas -/

/-- The fields of a record type `M` and the values they take. A required field has an index,
the position of its bit in the decoder's mask. -/
structure Schema (M : Type) where
  Field : Type
  Value : Type
  name : Field → Bytes
  Token : Field → Bytes → Value → Prop
  Quoted : Field → Bytes → DecodeError → Prop
  read : Field → Reader → Parse (Value × Reader)
  put : Field → Value → M → M
  index : Field → Option ℕ
  /-- The decoder's field reader, its result before the first member, and its mask. -/
  readField : Reader → Bytes → M → UInt32 → Parse (Reader × M × UInt32)
  initial : M
  mask : UInt32
  required : List (UInt32 × Bytes)
  reads : ∀ f, Reads 2 (read f) (Token f) (Quoted f)
  token_pos : ∀ f tok v, Token f tok v → 0 < tok.length
  name_inj : ∀ f g, name f = name g → f = g
  readField_name : ∀ f r m seen, readField r (name f) m seen =
    read f r >>= fun p => .ok (p.2, put f p.1 m, seen ||| UInt32.ofNat ((index f).elim 0 (2 ^ ·)))
  readField_other : ∀ key, (∀ f, key ≠ name f) → ∀ r m seen, readField r key m seen =
    .error (.error ⟨.unknownField, bytes "unexpected field: " ++ key⟩)
  index_lt : ∀ f k, index f = some k → k < 32
  index_inj : ∀ f g k, index f = some k → index g = some k → f = g
  mask_testBit : ∀ k, mask.toNat.testBit k = true ↔ ∃ f, index f = some k
  required_legible : ∀ p ∈ required, Legible (bytes "missing required field: " ++ p.2)

namespace Schema

variable {M : Type} (S : Schema M)

/-- A member: a field's name, a colon and a value of the field. -/
def Member (tok : Bytes) (m : S.Field × S.Value) : Prop :=
  ∃ ktok cs w w' vtok, StringToken ktok cs ∧ encode cs = S.name m.1 ∧ Blank w ∧ Blank w' ∧
    S.Token m.1 vtok m.2 ∧ tok = ktok ++ (w ++ 0x3A :: (w' ++ vtok))

/-- A member that is refused with a quotation: its key names no field, or its value is
quoted. -/
inductive MemberQuoted : Bytes → DecodeError → Prop
  | key {ktok w t : Bytes} {cs : List Char} (hk : StringToken ktok cs) (hw : Blank w)
      (hname : ∀ f, encode cs ≠ S.name f) : MemberQuoted (ktok ++ (w ++ 0x3A :: t))
        ⟨.unknownField, bytes "unexpected field: " ++ encode cs⟩
  | value {f : S.Field} {ktok w w' u : Bytes} {cs : List Char} {e : DecodeError}
      (hk : StringToken ktok cs) (hname : encode cs = S.name f) (hw : Blank w) (hw' : Blank w')
      (hq : S.Quoted f u e) : MemberQuoted (ktok ++ (w ++ 0x3A :: (w' ++ u))) e

/-- A document: one object between blanks, with the given members in order. -/
def Document (body : Bytes) (ms : List (S.Field × S.Value)) : Prop :=
  ∃ w c w' w'', Blank w ∧ Listing S.Member ms c ∧ Blank w' ∧ Blank w'' ∧
    body = w ++ 0x7B :: (c ++ (w' ++ 0x7D :: w''))

/-- The text of a document up to the colon of its next member: the members so far, what leads
the next one, and its key. -/
def Before (ms : List (S.Field × S.Value)) (key before : Bytes) : Prop :=
  ∃ w c s tok cs w', Blank w ∧ Listing S.Member ms c ∧ Lead ms.isEmpty s ∧ StringToken tok cs ∧
    encode cs = key ∧ Blank w' ∧ before = w ++ 0x7B :: (c ++ (s ++ (tok ++ (w' ++ [0x3A]))))

/-- A text that is well formed up to a member which is refused with a quotation. -/
def DocumentQuoted (body : Bytes) (e : DecodeError) : Prop :=
  ∃ w ms c s u, Blank w ∧ Listing S.Member ms c ∧ Lead ms.isEmpty s ∧ S.MemberQuoted u e ∧
    body = w ++ 0x7B :: (c ++ (s ++ u))

/-- The record a list of members makes up. -/
def build (ms : List (S.Field × S.Value)) : M :=
  ms.foldl (fun m p => S.put p.1 p.2 m) S.initial

/-- One more member sets its field. -/
lemma build_snoc (ms : List (S.Field × S.Value)) (f : S.Field) (v : S.Value) :
    S.build (ms ++ [(f, v)]) = S.put f v (S.build ms) := by
  rw [build, List.foldl_append]
  rfl

/-- Every required field occurs. -/
def Complete (ms : List (S.Field × S.Value)) : Prop :=
  ∀ f, S.index f ≠ none → ∃ v, (f, v) ∈ ms

/-- The decoder of a schema. -/
def decode (body : Bytes) : Parse M :=
  decodeObject S.readField S.initial S.mask S.required body

/-- The record some members make up, field by field: the last value of the field, or its
initial one. `get` is how a field is seen in a record. -/
lemma get_build [DecidableEq S.Field] (get : M → S.Field → S.Value)
    (hput : ∀ f tok v m g, S.Token f tok v → get (S.put f v m) g = if f = g then v else get m g)
    {body : Bytes} {ms : List (S.Field × S.Value)} (h : S.Document body ms) (f : S.Field) :
    get (S.build ms) f = (lastValue f ms).getD (get S.initial f) := by
  obtain ⟨w, c, w', w'', -, hl, -⟩ := h
  induction hl with
  | nil => rfl
  | @snoc ms c s tok p _ _ hp ih =>
    obtain ⟨g, v⟩ := p
    obtain ⟨_, _, _, _, vtok, -, -, -, -, hv, -⟩ := hp
    rw [build_snoc, hput g vtok v _ f hv, lastValue_snoc, ih]
    split_ifs <;> rfl

/-! ## The mask -/

/-- What one member does to the record and the mask. -/
private def upd (acc : M × UInt32) (p : S.Field × S.Value) : M × UInt32 :=
  (S.put p.1 p.2 acc.1, acc.2 ||| UInt32.ofNat ((S.index p.1).elim 0 (2 ^ ·)))

/-- The record after some members. -/
private lemma foldl_upd_fst (ms : List (S.Field × S.Value)) (acc : M × UInt32) :
    (ms.foldl S.upd acc).1 = ms.foldl (fun m p => S.put p.1 p.2 m) acc.1 := by
  induction ms generalizing acc with
  | nil => rfl
  | cons p ms ih => rw [List.foldl_cons, ih]; rfl

/-- The bit of one field. -/
private lemma testBit_bit (f : S.Field) (k : ℕ) :
    (UInt32.ofNat ((S.index f).elim 0 (2 ^ ·))).toNat.testBit k = true ↔ S.index f = some k := by
  cases h : S.index f with
  | none => simp
  | some j =>
    have hlt : 2 ^ j < 2 ^ 32 := Nat.pow_lt_pow_right (by decide) (S.index_lt f j h)
    simp only [Option.elim_some, UInt32.toNat_ofNat', Nat.mod_eq_of_lt hlt, Option.some.injEq]
    rw [Nat.testBit_two_pow]
    simp

/-- The bits set after some members are those of their fields. -/
private lemma testBit_foldl_upd (ms : List (S.Field × S.Value)) (acc : M × UInt32) (k : ℕ) :
    (ms.foldl S.upd acc).2.toNat.testBit k = true ↔
      acc.2.toNat.testBit k = true ∨ ∃ p ∈ ms, S.index p.1 = some k := by
  induction ms generalizing acc with
  | nil => simp
  | cons p ms ih =>
    rw [List.foldl_cons, ih]
    simp only [upd, UInt32.toNat_or, Nat.testBit_or, Bool.or_eq_true, testBit_bit,
      List.mem_cons, exists_eq_or_imp]
    tauto

/-- **The mask test** asks whether every required field occurs. -/
private lemma mask_iff (ms : List (S.Field × S.Value)) :
    (ms.foldl S.upd (S.initial, 0)).2 &&& S.mask = S.mask ↔ S.Complete ms := by
  obtain ⟨seen, hseen⟩ : ∃ seen, seen = (ms.foldl S.upd (S.initial, 0)).2 := ⟨_, rfl⟩
  have hbits : ∀ k, seen.toNat.testBit k = true ↔ ∃ p ∈ ms, S.index p.1 = some k := by
    intro k
    rw [hseen, testBit_foldl_upd]
    simp
  have hand : seen &&& S.mask = S.mask ↔
      ∀ k, S.mask.toNat.testBit k = true → seen.toNat.testBit k = true := by
    rw [← UInt32.toNat_inj, UInt32.toNat_and]
    constructor
    · intro h k hk
      rw [← h, Nat.testBit_and, Bool.and_eq_true] at hk
      exact hk.1
    · intro h
      refine Nat.eq_of_testBit_eq fun k => ?_
      rw [Nat.testBit_and]
      cases hk : S.mask.toNat.testBit k with
      | false => simp
      | true => simp [h k hk]
  rw [← hseen, hand]
  constructor
  · intro h f hf
    obtain ⟨k, hk⟩ := Option.ne_none_iff_exists'.mp hf
    obtain ⟨⟨g, v⟩, hp, hg⟩ := (hbits k).mp (h k ((S.mask_testBit k).mpr ⟨f, hk⟩))
    rw [S.index_inj f g k hk hg]
    exact ⟨v, hp⟩
  · intro h k hk
    obtain ⟨f, hf⟩ := (S.mask_testBit k).mp hk
    obtain ⟨v, hv⟩ := h f (by simp [hf])
    exact (hbits k).mpr ⟨(f, v), hv, hf⟩

/-- The error about a missing field is legible. -/
private lemma legible_missingField (seen : UInt32) {required : List (UInt32 × Bytes)}
    (h : ∀ p ∈ required, Legible (bytes "missing required field: " ++ p.2)) :
    Legible (missingField seen required).message := by
  induction required with
  | nil => exact (by decide : Legible (bytes "missing required field"))
  | cons p required ih =>
    obtain ⟨bit, name⟩ := p
    rw [missingField]
    split_ifs
    · exact h (bit, name) (by simp)
    · exact ih fun q hq => h q (by simp [hq])

/-- The bit of a field is clear after some members if none of them is of the field. -/
private lemma and_bit_eq_zero_iff (ms : List (S.Field × S.Value)) {f : S.Field} {k : ℕ}
    (hk : S.index f = some k) :
    (ms.foldl S.upd (S.initial, 0)).2 &&& UInt32.ofNat (2 ^ k) = 0 ↔ ∀ v, (f, v) ∉ ms := by
  have hbit : (UInt32.ofNat (2 ^ k)).toNat = 2 ^ k := by
    have hlt : 2 ^ k < 2 ^ 32 := Nat.pow_lt_pow_right (by decide) (S.index_lt f k hk)
    rw [UInt32.toNat_ofNat', Nat.mod_eq_of_lt hlt]
  have hset : (ms.foldl S.upd (S.initial, 0)).2.toNat.testBit k = true ↔ ∃ v, (f, v) ∈ ms := by
    rw [testBit_foldl_upd]
    constructor
    · rintro (h | ⟨⟨g, v⟩, hmem, hg⟩)
      · simp at h
      · exact ⟨v, S.index_inj g f k hg hk ▸ hmem⟩
    · rintro ⟨v, hmem⟩
      exact Or.inr ⟨(f, v), hmem, hk⟩
  rw [← UInt32.toNat_inj, UInt32.toNat_and, hbit, UInt32.toNat_zero, Nat.and_two_pow,
    ← not_exists, ← hset]
  cases (ms.foldl S.upd (S.initial, 0)).2.toNat.testBit k <;> simp

/-- The error about a missing field names the first required field that has no member. -/
private lemma missingField_first (ms : List (S.Field × S.Value)) {present rest : List S.Field}
    {f : S.Field} {index : S.Field → ℕ} (hindex : ∀ g ∈ present ++ f :: rest,
      S.index g = some (index g)) (hpresent : ∀ g ∈ present, ∃ v, (g, v) ∈ ms)
    (hf : ∀ v, (f, v) ∉ ms) :
    missingField (ms.foldl S.upd (S.initial, 0)).2
        ((present ++ f :: rest).map fun g => (UInt32.ofNat (2 ^ index g), S.name g)) =
      ⟨.missingField, bytes "missing required field: " ++ S.name f⟩ := by
  induction present with
  | nil =>
    rw [List.nil_append, List.map_cons, missingField, if_pos]
    exact (S.and_bit_eq_zero_iff ms (hindex f (by simp))).mpr hf
  | cons g present ih =>
    obtain ⟨v, hv⟩ := hpresent g List.mem_cons_self
    rw [List.cons_append, List.map_cons, missingField, if_neg]
    · exact ih (fun g hg => hindex g (List.mem_cons_of_mem _ hg))
        (fun g hg => hpresent g (List.mem_cons_of_mem _ hg))
    · intro hzero
      exact (S.and_bit_eq_zero_iff ms (hindex g (by simp))).mp hzero v hv

/-! ## The member loop -/

/-- Every member is at least its colon. -/
private lemma member_pos {tok : Bytes} {m : S.Field × S.Value} (h : S.Member tok m) :
    0 < tok.length := by
  obtain ⟨ktok, cs, w, w', vtok, -, -, -, -, -, rfl⟩ := h
  simp only [List.length_append, List.length_cons]
  omega

/-- The member loop reads the members of an object. -/
private lemma itemLoop {r₀ : Reader} (hd : r₀.depth + 3 ≤ kMaxDepth) :
    ItemLoop r₀ (memberBody S.readField) S.upd (fun acc r => (r, acc)) 0x7D S.Member
      S.MemberQuoted where
  close_delimiter := by decide
  item_pos := S.member_pos
  item_of := by
    rintro r ⟨m, seen⟩ first c s tok t ⟨f, v⟩ hin hr hs
      ⟨ktok, cs, w, w', vtok, hk, hname, hw, hw', hv, rfl⟩ ht
    simp only [List.append_assoc, List.cons_append] at hr
    obtain ⟨r₁, h₁, hin₁⟩ := nextMember_item hin hr hs hk hw
    have hr₁ : r₁.rest = w' ++ (vtok ++ t) :=
      hin₁.goes.rest_of (by rw [hin.goes.rest, hr]; simp)
    have hd₁ : r₁.depth + 2 ≤ kMaxDepth := by rw [hin₁.goes.depth]; omega
    obtain ⟨r₂, h₂, hg⟩ := (S.reads f).accepts hd₁ hr₁ hw' hv ht
    refine ⟨r₂, ?_, by simpa [List.append_assoc] using hin₁.goes_on hg⟩
    simp only [memberBody, h₁, hname, S.readField_name, h₂, ok_bind, upd]
  close_of := by
    rintro r acc first c w t hin hr hw
    obtain ⟨r', h₁, hg⟩ := nextMember_close hin hr hw
    exact ⟨r', by simp only [memberBody, h₁], hg⟩
  quote_of := by
    rintro r acc first c s u e hin hr hs hq
    cases hq with
    | key hk hw hname =>
      obtain ⟨r₁, h₁, -⟩ := nextMember_item hin hr hs hk hw
      simp only [memberBody, h₁, S.readField_other _ hname]
    | value hk hname hw hw' hq =>
      obtain ⟨r₁, h₁, hin₁⟩ := nextMember_item hin hr hs hk hw
      have hr₁ := hin₁.goes.rest_of (t := _) (by rw [hin.goes.rest, hr]; simp; rfl)
      have hd₁ : r₁.depth + 2 ≤ kMaxDepth := by rw [hin₁.goes.depth]; omega
      have h₂ := (S.reads _).quotes hd₁ hr₁ hw' hq
      simp only [memberBody, h₁, hname, S.readField_name, h₂]
      rfl
  cases := by
    rintro r ⟨m, seen⟩ first c hin
    cases h₁ : r.nextMember with
    | error f =>
      exact Or.inr (Or.inr ⟨f, by simp only [memberBody, h₁], Or.inl (nextMember_error hin h₁)⟩)
    | ok p =>
      obtain ⟨key, r₁⟩ := p
      rcases nextMember_ok hin h₁ with ⟨rfl, w, hw, hg⟩ | ⟨s, ktok, w, cs, rfl, hs, hk, hw, hin₁⟩
      · exact Or.inr (Or.inl ⟨w, r₁, hw, by simp only [memberBody, h₁], hg⟩)
      have hr : r.rest = s ++ (ktok ++ (w ++ 0x3A :: r₁.rest)) := by
        have h := hin.goes.rest
        rw [hin₁.goes.rest, List.append_assoc] at h
        rw [← List.append_cancel_left h]
        simp
      have hd₁ : r₁.depth + 2 ≤ kMaxDepth := by rw [hin₁.goes.depth]; omega
      by_cases hname : ∃ f, encode cs = S.name f
      · obtain ⟨f, hf⟩ := hname
        cases h₂ : S.read f r₁ with
        | error g =>
          refine Or.inr (Or.inr ⟨g, ?_, ((S.reads f).failed hd₁ h₂).imp id ?_⟩)
          · simp only [memberBody, h₁, hf, S.readField_name, h₂]
            rfl
          · rintro ⟨w', u, e, hw', hr₁, hq, rfl⟩
            exact ⟨s, _, e, hs, hr, hr₁ ▸ MemberQuoted.value hk hf hw hw' hq, rfl⟩
        | ok q =>
          obtain ⟨v, r₂⟩ := q
          obtain ⟨w', vtok, hw', hv, hg⟩ := (S.reads f).accepted hd₁ h₂
          refine Or.inl ⟨s, _, (f, v), r₂, hs, ⟨ktok, cs, w, w', vtok, hk, hf, hw, hw', hv, rfl⟩,
            ?_, by simpa [List.append_assoc] using hin₁.goes_on hg⟩
          simp only [memberBody, h₁, hf, S.readField_name, h₂, ok_bind, upd]
      · have hother : ∀ f, encode cs ≠ S.name f := fun f hf => hname ⟨f, hf⟩
        refine Or.inr (Or.inr ⟨_, ?_, Or.inr ⟨s, _, _, hs, hr, MemberQuoted.key hk hw hother, rfl⟩⟩)
        simp only [memberBody, h₁, S.readField_other _ hother]

/-! ## The decoder -/

/-- There is room for the three levels of a document. -/
private lemma room_ofText (body : Bytes) : (ofText body).depth + 3 ≤ kMaxDepth := by
  simp [ofText, kMaxDepth]

/-- The object's opening brace. -/
private lemma begin_of {body w t : Bytes} (hbody : body = w ++ 0x7B :: t) (hw : Blank w) :
    ∃ r, (ofText body).beginObject = .ok r ∧ Inside (ofText body) (w ++ [0x7B]) true r ∧
      r.rest = t := by
  obtain ⟨r, hr, hin⟩ := open_of (r := ofText body) (w := w) (t := t) (c := 0x7B) hbody hw
    (by decide) (by simp [ofText, kMaxDepth])
  exact ⟨r, hr, hin, hin.goes.rest_of (by rw [rest_ofText, hbody]; simp)⟩

/-- The loop's bound suffices. -/
private lemma rest_lt {body c : Bytes} {b : Bool} {r : Reader}
    (h : Inside (ofText body) c b r) : r.rest.length < body.length + 1 := by
  have := congrArg List.length h.goes.rest
  rw [rest_ofText, List.length_append] at this
  omega

/-- The end of the document. -/
private lemma atDocumentEnd_of {body c : Bytes} {r : Reader} (h : (ofText body).Goes c 0 r)
    (hw : Blank r.rest) : ∃ r', r.atDocumentEnd = .ok r' := by
  have hskip : r.skipWhitespace = r.adv r.rest.length :=
    skipWhitespace_of (t := []) (by simp) hw (by simp)
  have hpos : (r.adv r.rest.length).pos = r.text.length := by
    have := congrArg List.length h.rest
    rw [rest_ofText, List.length_append] at this
    rw [adv_pos, h.pos, h.text]
    simp only [ofText]
    omega
  refine ⟨r.adv r.rest.length, ?_⟩
  rw [atDocumentEnd, hskip, if_neg (by rw [hpos]; simp)]

/-- What follows the object is blank. -/
private lemma atDocumentEnd_ok {body c : Bytes} {r r' : Reader} (h : (ofText body).Goes c 0 r)
    (hok : r.atDocumentEnd = .ok r') : Blank r.rest := by
  obtain ⟨w, t, hw, hr, ht⟩ := r.exists_blank
  rw [atDocumentEnd, skipWhitespace_of hr hw ht] at hok
  split_ifs at hok with hpos
  · simp at hok
  · have hlen := congrArg List.length h.rest
    rw [rest_ofText, List.length_append, hr, List.length_append] at hlen
    rw [not_not, adv_pos, h.pos, h.text] at hpos
    simp only [ofText] at hpos
    have : t = [] := List.eq_nil_of_length_eq_zero (by omega)
    rw [hr, this, List.append_nil]
    exact hw

/-- A document decodes to the record its members make up, if they complete the mask. -/
private lemma decode_document {body : Bytes} {ms : List (S.Field × S.Value)}
    (h : S.Document body ms) : S.decode body =
      if (ms.foldl S.upd (S.initial, 0)).2 &&& S.mask ≠ S.mask then
        .error (.error (missingField (ms.foldl S.upd (S.initial, 0)).2 S.required))
      else .ok (S.build ms) := by
  obtain ⟨w, c, w', w'', hw, hl, hw', hw'', hbody⟩ := h
  obtain ⟨r₁, h₁, hin₁, hr₁⟩ := begin_of hbody hw
  obtain ⟨r₂, h₂, hg⟩ := (S.itemLoop (room_ofText body)).run_of hl hw' (b := (S.initial, 0)) hin₁
    hr₁ (rest_lt hin₁)
  have hr₂ : r₂.rest = w'' := hg.rest_of (by rw [rest_ofText, hbody]; simp)
  obtain ⟨r₃, h₃⟩ := atDocumentEnd_of hg (by rw [hr₂]; exact hw'')
  simp only [decode, decodeObject, h₁, ok_bind, h₂, Option.getD_some, h₃, foldl_upd_fst]
  rfl

/-- **A complete document is accepted**, with the record its members make up. -/
theorem decode_of {body : Bytes} {ms : List (S.Field × S.Value)} (h : S.Document body ms)
    (hc : S.Complete ms) : S.decode body = .ok (S.build ms) := by
  rw [S.decode_document h, if_neg (not_not.mpr ((S.mask_iff ms).mpr hc))]

/-- What a document is accepted with is the record its members make up. -/
lemma eq_build_of_decode {body : Bytes} {ms : List (S.Field × S.Value)} {m : M}
    (h : S.Document body ms) (hok : S.decode body = .ok m) : m = S.build ms := by
  rw [S.decode_document h] at hok
  split_ifs at hok
  exact (Except.ok.inj hok).symm

/-- What the decoder accepts is a complete document. -/
private lemma decode_inv {body : Bytes} {m : M} (h : S.decode body = .ok m) :
    ∃ ms, S.Document body ms ∧ S.Complete ms ∧ m = S.build ms := by
  obtain ⟨r₁, h₁, h⟩ := bind_eq_ok.mp h
  obtain ⟨⟨r₂, m', seen⟩, h₂, h⟩ := bind_eq_ok.mp h
  obtain ⟨r₃, h₃, h⟩ := bind_eq_ok.mp h
  obtain ⟨w, t, hw, -, hin₁⟩ := open_ok h₁
  obtain ⟨res, hrun, hres⟩ := (S.itemLoop (room_ofText body)).run_cases (b := (S.initial, 0)) hin₁
    (rest_lt hin₁)
  rw [hrun, Option.getD_some] at h₂
  subst h₂
  rcases hres with ⟨ms, c, w', r', hl, hw', heq, hg⟩ | ⟨f, heq, -⟩
  · simp only [Except.ok.injEq, Prod.mk.injEq] at heq
    obtain ⟨rfl, hacc⟩ := heq
    have hw'' := atDocumentEnd_ok hg h₃
    have hseen : seen = (ms.foldl S.upd (S.initial, 0)).2 := by rw [← hacc]
    have hm' : m' = S.build ms := by
      have := S.foldl_upd_fst ms (S.initial, 0)
      rw [← hacc] at this
      exact this
    split_ifs at h with hmask
    simp only [Except.ok.injEq] at h
    refine ⟨ms, ⟨w, c, w', r₂.rest, hw, hl, hw', hw'', ?_⟩, ?_, by rw [← h, hm']⟩
    · have := hg.rest
      rw [rest_ofText] at this
      simpa [List.append_assoc] using this
    · exact (S.mask_iff ms).mp (by rw [← hseen]; exact not_not.mp hmask)
  · cases heq

/-- **The decoder accepts the complete documents**, and nothing else, and returns the record
their members make up. -/
theorem decode_eq_ok {body : Bytes} {m : M} :
    S.decode body = .ok m ↔ ∃ ms, S.Document body ms ∧ S.Complete ms ∧ m = S.build ms := by
  constructor
  · exact S.decode_inv
  · rintro ⟨ms, hd, hc, rfl⟩
    exact S.decode_of hd hc

/-- **Where a value of a field is due, an accepted body has one**: the text after the colon of a
member's key, with any members before it, starts with blanks and a token of the field.

**Proof sketch.** The loop comes past the members and reads the key. If the field's reader
refused what follows, the loop would end there with its error. -/
theorem exists_token {before u : Bytes} {ms : List (S.Field × S.Value)} {f : S.Field} {m : M}
    (h : S.Before ms (S.name f) before) (hok : S.decode (before ++ u) = .ok m) :
    ∃ w tok v t, Blank w ∧ S.Token f tok v ∧ u = w ++ (tok ++ t) := by
  obtain ⟨w, c, s, ktok, cs, w', hw, hl, hs, hk, hname, hw', rfl⟩ := h
  obtain ⟨body, hbody⟩ : ∃ body, body = w ++ 0x7B :: (c ++ (s ++ (ktok ++ (w' ++ 0x3A :: u)))) :=
    ⟨_, rfl⟩
  have hbefore : w ++ 0x7B :: (c ++ (s ++ (ktok ++ (w' ++ [0x3A])))) ++ u = body := by
    simp [hbody]
  rw [hbefore] at hok
  obtain ⟨r₁, h₁, hin₁, hr₁⟩ := begin_of hbody hw
  have hstop : ms ≠ [] → Stops (s ++ (ktok ++ (w' ++ 0x3A :: u))) := by
    intro hne
    rw [List.isEmpty_eq_false_iff.mpr hne] at hs
    exact stops_lead hs
  obtain ⟨r₂, hin₂, hr₂, hafter⟩ := (S.itemLoop (room_ofText body)).run_after hl hstop
    (b := (S.initial, 0)) hin₁ hr₁ (rest_lt hin₁)
  obtain ⟨r₃, h₃, hin₃⟩ := nextMember_item hin₂ hr₂ hs hk hw'
  have hr₃ : r₃.rest = u := by
    refine hin₃.goes.rest_of ?_
    rw [hin₂.goes.rest, hr₂]
    simp
  have hd₃ : r₃.depth + 2 ≤ kMaxDepth := by
    rw [hin₃.goes.depth]
    exact room_ofText body
  cases hread : S.read f r₃ with
  | error g =>
    have hrun := hafter (.error g) (by
      simp only [memberBody, h₃, hname, S.readField_name, hread]
      rfl)
    have hfails : S.decode body = .error g := by
      simp only [decode, decodeObject, h₁, ok_bind, hrun, Option.getD_some]
      rfl
    rw [hfails] at hok
    cases hok
  | ok q =>
    obtain ⟨v, r₄⟩ := q
    obtain ⟨w'', tok, hw'', htok, hg⟩ := (S.reads f).accepted hd₃ hread
    refine ⟨w'', tok, v, r₄.rest, hw'', htok, ?_⟩
    rw [← hr₃, hg.rest, List.append_assoc]

/-- **The decoder quotes** the text of a member it refuses so. -/
theorem decode_quoted {body : Bytes} {e : DecodeError} (h : S.DocumentQuoted body e) :
    S.decode body = .error (.error e) := by
  obtain ⟨w, ms, c, s, u, hw, hl, hs, hq, hbody⟩ := h
  obtain ⟨r₁, h₁, hin₁, hr₁⟩ := begin_of hbody hw
  have hrun := (S.itemLoop (room_ofText body)).run_quoted hl hs hq (b := (S.initial, 0)) hin₁ hr₁
    (rest_lt hin₁)
  simp only [decode, decodeObject, h₁, ok_bind, hrun, Option.getD_some]
  rfl

/-- **Every other refusal is legible.** -/
theorem decode_error {body : Bytes} {f : Failure} (h : S.decode body = .error f) :
    f.Plain ∨ ∃ e, S.DocumentQuoted body e ∧ f = .error e := by
  rcases bind_eq_error.mp h with h | ⟨r₁, h₁, h⟩
  · exact Or.inl (open_error (by decide) (by simp [ofText]) h)
  obtain ⟨w, t, hw, -, hin₁⟩ := open_ok h₁
  obtain ⟨res, hrun, hres⟩ := (S.itemLoop (room_ofText body)).run_cases (b := (S.initial, 0)) hin₁
    (rest_lt hin₁)
  rw [hrun, Option.getD_some] at h
  rcases hres with ⟨ms, c, w', r₂, -, -, rfl, -⟩ | ⟨g, rfl, hg⟩
  · left
    rw [ok_bind] at h
    rcases bind_eq_error.mp h with h | ⟨r₃, -, h⟩
    · rw [atDocumentEnd] at h
      split_ifs at h
      exact plain_of_fail (by decide) h
    · split_ifs at h with hmask
      cases h
      exact ⟨_, rfl, legible_missingField _ S.required_legible⟩
  · cases h
    refine hg.imp id ?_
    rintro ⟨ms, c, s, u, e, hl, hs, hr₁, hq, rfl⟩
    refine ⟨e, ⟨w, ms, c, s, u, hw, hl, hs, hq, ?_⟩, rfl⟩
    have := hin₁.goes.rest
    rw [rest_ofText, hr₁] at this
    simpa [List.append_assoc] using this

/-- **The first missing field.** A document without some required field is refused with the name
of the first such field in the order of the list of required fields. -/
theorem decode_missing {body : Bytes} {ms : List (S.Field × S.Value)} (h : S.Document body ms)
    {present rest : List S.Field} {f : S.Field} {index : S.Field → ℕ}
    (hindex : ∀ g ∈ present ++ f :: rest, S.index g = some (index g))
    (hrequired : S.required =
      (present ++ f :: rest).map fun g => (UInt32.ofNat (2 ^ index g), S.name g))
    (hpresent : ∀ g ∈ present, ∃ v, (g, v) ∈ ms) (hf : ∀ v, (f, v) ∉ ms) :
    S.decode body =
      .error (.error ⟨.missingField, bytes "missing required field: " ++ S.name f⟩) := by
  have hincomplete : ¬ S.Complete ms := by
    intro hc
    obtain ⟨v, hv⟩ := hc f (by rw [hindex f (by simp)]; simp)
    exact hf v hv
  rw [S.decode_document h, if_pos (fun hmask => hincomplete ((S.mask_iff ms).mp hmask)), hrequired,
    S.missingField_first ms hindex hpresent hf]

/-- **Where the decoder fails**: at the opening brace; in the iteration after some members, each
of them read; at what follows the object; or at the mask, with the whole document read. -/
theorem decode_fails {body : Bytes} {f : Failure} (h : S.decode body = .error f) :
    (ofText body).beginObject = .error f ∨
    (∃ w ms c r acc, Blank w ∧ Listing S.Member ms c ∧
      Inside (ofText body) (w ++ 0x7B :: c) ms.isEmpty r ∧
      memberBody S.readField (r, acc) = .done (.error f)) ∨
    (∃ r : Reader, r.atDocumentEnd = .error f) ∨ ∃ ms, S.Document body ms := by
  rcases bind_eq_error.mp h with h | ⟨r₁, h₁, h⟩
  · exact Or.inl h
  obtain ⟨w, t, hw, -, hin₁⟩ := open_ok h₁
  obtain ⟨res, hrun, ms, c, r₂, hl, hin₂, hdone⟩ :=
    (S.itemLoop (room_ofText body)).run_done (b := (S.initial, 0)) hin₁ (rest_lt hin₁)
  rw [hrun, Option.getD_some] at h
  rcases bind_eq_error.mp h with hres | ⟨⟨r₃, acc⟩, hres, hend⟩
  · rw [hres] at hdone
    exact Or.inr (Or.inl ⟨w, ms, c, r₂, _, hw, hl, by simpa using hin₂, hdone⟩)
  rcases bind_eq_error.mp hend with hend | ⟨r₄, h₄, -⟩
  · exact Or.inr (Or.inr (Or.inl ⟨r₃, hend⟩))
  rw [hres] at hdone
  -- the loop left at the closing brace
  rcases (S.itemLoop (room_ofText body)).cases (b := ms.foldl S.upd (S.initial, 0)) hin₂ with
    ⟨_, _, _, _, _, _, hb, _⟩ | ⟨w', r₅, hw', hb, hg⟩ | ⟨_, hb, _⟩
  · rw [hb] at hdone
    cases hdone
  · rw [hb] at hdone
    cases hdone
    refine Or.inr (Or.inr (Or.inr ⟨ms, w, c, w', _, hw, hl, hw', atDocumentEnd_ok hg h₄, ?_⟩))
    have hrest := hg.rest
    rw [rest_ofText] at hrest
    simpa [List.append_assoc] using hrest
  · rw [hb] at hdone
    cases hdone

/-- The decoder never stops with a fault. -/
theorem decode_ne_fault (body : Bytes) : S.decode body ≠ .error .fault := by
  intro h
  rcases S.decode_error h with ⟨e, he, -⟩ | ⟨e, -, he⟩ <;> cases he

end Schema

end Hotpath
