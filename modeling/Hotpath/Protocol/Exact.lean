import Hotpath.Lib.Brackets
import Hotpath.Protocol.RoundTrip

set_option relaxedAutoImplicit false
set_option autoImplicit false

/-!
# The encoders are exact

What an encoder writes for a record with a text that is not UTF-8, or with a number that is not
finite, is refused by its own decoder: it is never another record. For a text this is seen on the
body as a whole, since only valid UTF-8 is accepted; for a number, at the place where the encoder
writes `null` for it, where only a number would be accepted.

## Main definitions

* `Value.Sound` — the strings of a value are valid.
* `CharConv.ReadsFinite` — what is read from a number is finite.

## Main results

* `Schema.Document.valid` — an accepted body is valid UTF-8.
* `Schema.forall_of_decode` — a property of values that their texts cannot be read without.
* `decode_encode_iff` — what is decoded from an encoded record.
* `encodable_of_decode`, `reencode` — what is accepted can be sent on.
-/

namespace Hotpath

open Json Json.Reader JsonText Brackets
open Utf8 (bytes encode Valid)

variable {F : Type}

/-! ## Accepted bodies are valid UTF-8 -/

/-- Whitespace is ASCII. -/
private lemma lt_of_isSpace {b : UInt8} (h : isSpace b = true) : b < 0x80 := by
  simp only [isSpace, Bool.or_eq_true, beq_iff_eq] at h
  rcases h with ((rfl | rfl) | rfl) | rfl <;> decide

/-- Blanks are valid. -/
private lemma valid_blank {w : Bytes} (h : Blank w) : Valid w :=
  Utf8.valid_of_ascii fun b hb => lt_of_isSpace (h b hb)

/-- What leads an item is valid. -/
private lemma valid_lead {first : Bool} {s : Bytes} (h : Lead first s) : Valid s := by
  refine Utf8.valid_of_ascii fun b hb => ?_
  rcases h.mem b hb with hspace | rfl
  · exact lt_of_isSpace hspace
  · decide

/-- A listing of valid tokens is valid. -/
private lemma valid_listing {α : Type} {item : Bytes → α → Prop}
    (hitem : ∀ tok a, item tok a → Valid tok) {as : List α} {c : Bytes}
    (h : Listing item as c) : Valid c :=
  h.of_append Utf8.valid_nil (fun _ _ => Valid.append) (fun _ _ => valid_lead) hitem

/-- A valid text between two ASCII bytes is valid. -/
private lemma valid_between {a b : UInt8} {s : Bytes} (ha : a < 0x80) (hb : b < 0x80)
    (h : Valid s) : Valid (a :: (s ++ [b])) := by
  have hopen : Valid [a] := Utf8.valid_of_ascii (by simpa using ha)
  have hclose : Valid [b] := Utf8.valid_of_ascii (by simpa using hb)
  exact hopen.append (h.append hclose)

/-- A string token is valid. -/
private lemma valid_stringToken {tok : Bytes} {cs : List Char} (h : StringToken tok cs) :
    Valid tok := by
  obtain ⟨s, hs, rfl⟩ := h
  exact valid_between (by decide) (by decide) hs.valid

/-- **The tokens of every kind are valid.** -/
lemma Kind.valid_of_token [CharConv F] {k : Kind} {tok : Bytes} {v : Value F}
    (h : k.Token tok v) : Valid tok := by
  cases k with
  | int => obtain ⟨a, ⟨n, -, -, -, rfl, -⟩, -⟩ := h; exact valid_render n
  | text => obtain ⟨a, ⟨cs, hs, -⟩, -⟩ := h; exact valid_stringToken hs
  | number => obtain ⟨a, ⟨n, rfl, -⟩, -⟩ := h; exact valid_render n
  | flag => obtain ⟨a, rfl, -⟩ := h; exact Utf8.valid_of_ascii (by cases a <;> decide)
  | direction => obtain ⟨a, ⟨cs, hs, -⟩, -⟩ := h; exact valid_stringToken hs
  | ranges =>
    obtain ⟨a, ⟨c, w, hc, hw, rfl⟩, -⟩ := h
    have hrange : ∀ (tok : Bytes) (range : PriceRange F), RangeToken tok range → Valid tok := by
      rintro tok range ⟨c, w, hc, hw, rfl⟩
      have hlist := valid_listing (fun tok x hx => by
        obtain ⟨n, rfl, -⟩ := hx
        exact valid_render n) hc
      rw [← List.append_assoc]
      exact valid_between (by decide) (by decide) (hlist.append (valid_blank hw))
    rw [← List.append_assoc]
    exact valid_between (by decide) (by decide)
      ((valid_listing hrange hc).append (valid_blank hw))
  | status => obtain ⟨a, ⟨cs, hs, -⟩, -⟩ := h; exact valid_stringToken hs
  | reason =>
    obtain ⟨a, ⟨rfl, -⟩ | ⟨cs, hs, -⟩, -⟩ := h
    · exact Utf8.valid_of_ascii (by decide)
    · exact valid_stringToken hs

/-- **A document of valid tokens is valid.** -/
lemma Schema.Document.valid {M : Type} {S : Schema M}
    (htoken : ∀ f tok v, S.Token f tok v → Valid tok) {body : Bytes}
    {ms : List (S.Field × S.Value)} (h : S.Document body ms) : Valid body := by
  obtain ⟨w, c, w', w'', hw, hc, hw', hw'', rfl⟩ := h
  have hmember : ∀ tok p, S.Member tok p → Valid tok := by
    rintro tok p ⟨ktok, cs, u, u', vtok, hk, -, hu, hu', hv, rfl⟩
    have hcolon : Valid [0x3A] := Utf8.valid_of_ascii (by decide)
    exact (valid_stringToken hk).append ((valid_blank hu).append
      (hcolon.append ((valid_blank hu').append (htoken _ _ _ hv))))
  have hbraces := valid_between (a := 0x7B) (b := 0x7D) (by decide) (by decide)
    ((valid_listing hmember hc).append (valid_blank hw'))
  have hbody : w ++ 0x7B :: (c ++ (w' ++ 0x7D :: w'')) =
      w ++ (0x7B :: (c ++ w' ++ [0x7D]) ++ w'') := by simp
  rw [hbody]
  exact (valid_blank hw).append (hbraces.append (valid_blank hw''))

/-! ## The texts of values -/

/-- The strings of a value are valid UTF-8. -/
def Value.Sound : Value F → Prop
  | .text v => Valid v
  | .reason (some r) => Valid r
  | _ => True

/-- A double is written as a number, or as `null` if it is not finite. -/
private lemma formatDouble_cases [CharConv F] (x : F) :
    (CharConv.isFinite x = true ∧ ∃ n : Number, formatDouble x = n.render) ∨
      (CharConv.isFinite x = false ∧ formatDouble x = bytes "null") := by
  cases hx : CharConv.isFinite x with
  | false => exact Or.inr ⟨rfl, by simp [formatDouble, hx]⟩
  | true =>
    obtain ⟨n, hn, -⟩ := formatDouble_spec hx
    exact Or.inl ⟨rfl, n, hn⟩

/-- The text of a double is ASCII. -/
private lemma ascii_formatDouble [CharConv F] (x : F) : ∀ b ∈ formatDouble x, b < 0x80 := by
  rcases formatDouble_cases x with ⟨-, n, hn⟩ | ⟨-, hn⟩
  · rw [hn]
    exact Number.lt_of_mem_render
  · rw [hn]
    decide

/-- The text of price ranges is ASCII. -/
private lemma ascii_rangesText [CharConv F] (first : Bool) (ranges : List (PriceRange F)) :
    ∀ b ∈ rangesText first ranges, b < 0x80 := by
  induction ranges generalizing first with
  | nil => simp [rangesText]
  | cons range ranges ih =>
    intro b hb
    rw [rangesText, List.mem_append, List.mem_append] at hb
    rcases hb with hb | hb | hb
    · cases first with
      | true => simp at hb
      | false =>
        obtain rfl := List.mem_singleton.mp hb
        decide
    · simp only [rangeText, List.mem_cons, List.mem_append, List.not_mem_nil, or_false] at hb
      rcases hb with rfl | hb | rfl | hb | rfl | hb | rfl
      · decide
      · exact ascii_formatDouble _ b hb
      · decide
      · exact ascii_formatDouble _ b hb
      · decide
      · exact ascii_formatDouble _ b hb
      · decide
    · exact ih false b hb

/-- **Valid text was written for a sound value**, and is valid after it. -/
lemma Value.sound_of_written [CharConv F] {v : Value F} {t : Bytes}
    (h : Valid (v.written ++ t)) : v.Sound ∧ Valid t := by
  cases v with
  | int v =>
    have hascii : ∀ b ∈ intText v.toInt, b < 0x80 := by
      rw [← render_intNumber]
      exact Number.lt_of_mem_render
    exact ⟨trivial, h.drop_ascii hascii⟩
  | text v => exact valid_of_stringText h
  | number x => exact ⟨trivial, h.drop_ascii (ascii_formatDouble x)⟩
  | flag flag =>
    have hascii : ∀ b ∈ flagText flag, b < 0x80 := by cases flag <;> decide
    exact ⟨trivial, h.drop_ascii hascii⟩
  | direction d =>
    have hascii : ∀ b ∈ stringText d.nameOf, b < 0x80 := by cases d <;> decide
    exact ⟨trivial, h.drop_ascii hascii⟩
  | ranges ranges =>
    refine ⟨trivial, h.drop_ascii fun b hb => ?_⟩
    simp only [Value.written, List.mem_cons, List.mem_append, List.not_mem_nil, or_false] at hb
    rcases hb with rfl | hb | rfl
    · decide
    · exact ascii_rangesText true ranges b hb
    · decide
  | status s =>
    have hascii : ∀ b ∈ stringText s.nameOf, b < 0x80 := by cases s <;> decide
    exact ⟨trivial, h.drop_ascii hascii⟩
  | reason r =>
    cases r with
    | none =>
      have hascii : ∀ b ∈ bytes "null", b < 0x80 := by decide
      exact ⟨trivial, h.drop_ascii hascii⟩
    | some r => exact valid_of_stringText h

/-- A valid object was written for sound values. -/
private lemma sound_of_objectText [CharConv F] {ι : Type} {name : ι → Bytes}
    {value : ι → Value F} (hname : ∀ i, PlainName (name i)) {is : List ι} {first : Bool}
    {t : Bytes} (h : Valid (objectText first (is.map fun i => (name i, (value i).written)) ++ t)) :
    ∀ i ∈ is, (value i).Sound := by
  induction is generalizing first with
  | nil => simp
  | cons i is ih =>
    have hlead : ∀ b ∈ (if first then [] else [(0x2C : UInt8)]), b < 0x80 := by
      cases first <;> decide
    have hkey : ∀ b ∈ 0x22 :: (name i ++ [0x22, 0x3A]), b < (0x80 : UInt8) := by
      simp only [List.mem_cons, List.mem_append, List.not_mem_nil, or_false]
      rintro b (rfl | hb | rfl | rfl)
      · decide
      · exact (hname i b hb).1.2
      · decide
      · decide
    have htext : objectText first ((i :: is).map fun i => (name i, (value i).written)) ++ t =
        (if first then [] else [(0x2C : UInt8)]) ++ (0x22 :: (name i ++ [0x22, 0x3A]) ++
          ((value i).written ++
            (objectText false (is.map fun i => (name i, (value i).written)) ++ t))) := by
      simp [objectText, List.append_assoc]
    rw [htext] at h
    obtain ⟨hi, hrest⟩ := Value.sound_of_written ((h.drop_ascii hlead).drop_ascii hkey)
    intro j hj
    rcases List.mem_cons.mp hj with rfl | hj
    · exact hi
    · exact ih hrest j hj

/-! ## The text of a number that is not finite -/

/-- A byte that is no bracket and does not start `null`. -/
private def IsPlain (b : UInt8) : Prop := b ≠ 0x5B ∧ b ≠ 0x5D ∧ b ≠ 0x6E

/-- The bytes of a number are plain. -/
private lemma plain_render (n : Number) : ∀ b ∈ n.render, IsPlain b := by
  intro b hb
  rcases Number.mem_render b hb with hdigit | rfl | rfl | rfl | rfl | rfl
  · unfold IsPlain
    refine ⟨?_, ?_, ?_⟩ <;>
    · rintro rfl
      exact absurd hdigit (by decide)
  all_goals
    unfold IsPlain
    decide

/-- What leads an item is plain. -/
private lemma plain_lead {first : Bool} {s : Bytes} (h : Lead first s) : ∀ b ∈ s, IsPlain b := by
  intro b hb
  rcases h.mem b hb with hspace | rfl
  · unfold IsPlain
    refine ⟨?_, ?_, ?_⟩ <;>
    · rintro rfl
      exact absurd hspace (by decide)
  · unfold IsPlain
    decide

/-- A text of a price range array: balanced, and without an `n`. -/
private def Flat (s : Bytes) : Prop := Balanced 0x5B 0x5D s ∧ (0x6E : UInt8) ∉ s

/-- Flat texts concatenate. -/
private lemma Flat.append {s t : Bytes} (hs : Flat s) (ht : Flat t) : Flat (s ++ t) :=
  ⟨hs.1.append ht.1, by simp [hs.2, ht.2]⟩

/-- A plain text is flat. -/
private lemma flat_of_plain {s : Bytes} (h : ∀ b ∈ s, IsPlain b) : Flat s :=
  ⟨balanced_of_not_mem (fun hb => (h _ hb).1 rfl) (fun hb => (h _ hb).2.1 rfl),
    fun hb => (h _ hb).2.2 rfl⟩

/-- A flat text in brackets is flat. -/
private lemma Flat.wrap {s : Bytes} (h : Flat s) : Flat (0x5B :: (s ++ [0x5D])) :=
  ⟨h.1.wrap (by decide), by simp [h.2]⟩

/-- A listing of flat tokens is flat. -/
private lemma flat_listing {α : Type} {item : Bytes → α → Prop}
    (hitem : ∀ tok a, item tok a → Flat tok) {as : List α} {c : Bytes}
    (h : Listing item as c) : Flat c :=
  h.of_append (flat_of_plain (by simp)) (fun _ _ => Flat.append)
    (fun _ _ hs => flat_of_plain (plain_lead hs)) hitem

/-- **A price range array is flat.** -/
private lemma flat_rangesToken [CharConv F] {tok : Bytes} {ranges : List (PriceRange F)}
    (h : RangesToken tok ranges) : Flat tok := by
  have hblank : ∀ {w : Bytes}, Blank w → Flat w := fun hw =>
    flat_of_plain (plain_lead (show Lead true _ from hw))
  have hrange : ∀ (tok : Bytes) (range : PriceRange F), RangeToken tok range → Flat tok := by
    rintro tok range ⟨c, w, hc, hw, rfl⟩
    have hlist := flat_listing (fun tok x hx => by
      obtain ⟨n, rfl, -⟩ := hx
      exact flat_of_plain (plain_render n)) hc
    rw [← List.append_assoc]
    exact (hlist.append (hblank hw)).wrap
  obtain ⟨c, w, hc, hw, rfl⟩ := h
  rw [← List.append_assoc]
  exact ((flat_listing hrange hc).append (hblank hw)).wrap

/-- A text goes wrong at a `null`, with no bracket closed before it that was not opened. -/
private def Breaks (s : Bytes) : Prop := ∃ p t, s = p ++ 0x6E :: t ∧ Nested 0x5B 0x5D p

/-- A nested text before one that goes wrong. -/
private lemma Breaks.after {p s : Bytes} (hp : Nested 0x5B 0x5D p) (h : Breaks s) :
    Breaks (p ++ s) := by
  obtain ⟨q, t, rfl, hq⟩ := h
  exact ⟨p ++ q, t, by rw [List.append_assoc], hp.append hq⟩

/-- What follows a text that goes wrong makes no difference. -/
private lemma Breaks.before {s : Bytes} (h : Breaks s) (t : Bytes) : Breaks (s ++ t) := by
  obtain ⟨p, u, rfl, hp⟩ := h
  exact ⟨p, u ++ t, by rw [List.append_assoc, List.cons_append], hp⟩

/-- The text of a double is that of a number, or goes wrong. -/
private lemma breaks_formatDouble [CharConv F] (x : F) :
    (CharConv.isFinite x = true ∧ (0x5D : UInt8) ∉ formatDouble x) ∨
      Breaks (formatDouble x) := by
  rcases formatDouble_cases x with ⟨hx, n, hn⟩ | ⟨-, hn⟩
  · rw [hn]
    exact Or.inl ⟨hx, fun hb => (plain_render n _ hb).2.1 rfl⟩
  · rw [hn]
    exact Or.inr ⟨[], bytes "ull", by decide, nested_of_not_mem (by simp)⟩

/-- The text of a price range is nested, or goes wrong. -/
private lemma breaks_rangeText [CharConv F] (range : PriceRange F) :
    ((CharConv.isFinite range.start = true ∧ CharConv.isFinite range.end_ = true ∧
      CharConv.isFinite range.step = true) ∧ Nested 0x5B 0x5D (rangeText range)) ∨
        Breaks (rangeText range) := by
  have hopen : Nested (0x5B : UInt8) 0x5D [0x5B] := nested_of_not_mem (by decide)
  have hcomma : Nested (0x5B : UInt8) 0x5D [0x2C] := nested_of_not_mem (by decide)
  have htext : rangeText range = [0x5B] ++ (formatDouble range.start ++ ([0x2C] ++
      (formatDouble range.end_ ++ ([0x2C] ++ (formatDouble range.step ++ [0x5D]))))) := by
    simp [rangeText]
  rcases breaks_formatDouble range.start with ⟨hstart, hs⟩ | hbreaks
  · rcases breaks_formatDouble range.end_ with ⟨hend, he⟩ | hbreaks
    · rcases breaks_formatDouble range.step with ⟨hstep, hp⟩ | hbreaks
      · refine Or.inl ⟨⟨hstart, hend, hstep⟩, ?_⟩
        have hwrap : rangeText range = 0x5B :: (formatDouble range.start ++ ([0x2C] ++
            (formatDouble range.end_ ++ ([0x2C] ++ formatDouble range.step))) ++ [0x5D]) := by
          simp [rangeText]
        rw [hwrap]
        exact nested_wrap (by decide) (by simp [hs, he, hp])
      · rw [htext]
        exact Or.inr (Breaks.after hopen (Breaks.after (nested_of_not_mem hs)
          (Breaks.after hcomma (Breaks.after (nested_of_not_mem he)
            (Breaks.after hcomma (hbreaks.before _))))))
    · rw [htext]
      exact Or.inr (Breaks.after hopen (Breaks.after (nested_of_not_mem hs)
        (Breaks.after hcomma (hbreaks.before _))))
  · rw [htext]
    exact Or.inr (Breaks.after hopen (hbreaks.before _))

/-- The texts of price ranges go wrong unless all their numbers are finite. -/
private lemma breaks_rangesText [CharConv F] (first : Bool) (ranges : List (PriceRange F)) :
    (Value.ranges ranges).Encodable ∨ Breaks (rangesText first ranges) := by
  induction ranges generalizing first with
  | nil => exact Or.inl (by simp [Value.Encodable])
  | cons range ranges ih =>
    have hlead : Nested (0x5B : UInt8) 0x5D (if first then [] else [0x2C]) := by
      cases first <;> exact nested_of_not_mem (by decide)
    rw [rangesText]
    rcases breaks_rangeText range with ⟨hfinite, hnested⟩ | hbreaks
    · refine (ih false).imp (fun h => ?_) fun h => Breaks.after hlead (Breaks.after hnested h)
      intro r hr
      rcases List.mem_cons.mp hr with rfl | hr
      · exact hfinite
      · exact h r hr
    · exact Or.inr (Breaks.after hlead (hbreaks.before _))

/-- **No price range array starts a text with a number that is not finite.**

**Proof sketch.** The array has no `n`, so it would end before the `null`; but up to there the
outer bracket of the text is never closed. -/
private lemma finite_of_rangesToken [CharConv F] {ranges ranges' : List (PriceRange F)}
    {tok t t' : Bytes} (htok : RangesToken tok ranges')
    (h : tok ++ t = (Value.ranges ranges).written ++ t') : (Value.ranges ranges).Encodable := by
  obtain ⟨hbalanced, hn⟩ := flat_rangesToken htok
  refine (breaks_rangesText true ranges).resolve_right ?_
  rintro ⟨p, u, hp, hnested⟩
  have hwritten : tok ++ t = 0x5B :: p ++ 0x6E :: (u ++ 0x5D :: t') := by
    rw [h]
    simp [Value.written, hp]
  obtain ⟨q, rfl⟩ : ∃ q, tok = 0x5B :: q := by
    obtain ⟨c, w, -, -, rfl⟩ := htok
    exact ⟨_, rfl⟩
  refine hnested.not_balanced (by decide) ?_ hbalanced
  rcases List.append_eq_append_iff.mp hwritten with ⟨v, hv, -⟩ | ⟨v, hv, hv'⟩
  · exact ⟨v, hv.symm⟩
  · cases v with
    | nil => exact ⟨[], by rw [hv, List.append_nil, List.append_nil]⟩
    | cons x v =>
      obtain ⟨rfl, -⟩ := List.cons.inj hv'
      exact absurd (by rw [hv]; simp) hn

/-- No number starts the text of a double that is not finite. -/
private lemma finite_of_numberToken [CharConv F] {x y : F} {tok t t' : Bytes}
    (htok : NumberToken tok y) (h : tok ++ t = formatDouble x ++ t') :
    CharConv.isFinite x = true := by
  rcases formatDouble_cases x with ⟨hx, -⟩ | ⟨-, hnull⟩
  · exact hx
  · obtain ⟨n, rfl, -⟩ := htok
    obtain ⟨b, u, hrender, -⟩ := n.head_render
    have hb := (plain_render n b (by simp [hrender])).2.2
    have hhead : bytes "null" = 0x6E :: bytes "ull" := by decide
    rw [hrender, hnull, hhead] at h
    exact absurd (List.cons.inj h).1 hb

/-- A number starts with no blank. -/
private lemma head_number {n : Number} {t : Bytes} :
    ∀ b ∈ (n.render ++ t).head?, isSpace b = false := by
  obtain ⟨b, u, hrender, hb⟩ := n.head_render
  rw [hrender]
  rintro c hc
  obtain rfl : b = c := by simpa using hc
  rcases hb with rfl | hdigit
  · rfl
  · exact isSpace_of_isDigit hdigit

/-- The text of a double starts with no blank. -/
private lemma head_formatDouble [CharConv F] {x : F} {t : Bytes} :
    ∀ b ∈ (formatDouble x ++ t).head?, isSpace b = false := by
  rcases formatDouble_cases x with ⟨-, n, hn⟩ | ⟨-, hn⟩
  · rw [hn]
    exact head_number
  · rw [hn]
    intro b hb
    have hnull : bytes "null" = 0x6E :: bytes "ull" := by decide
    obtain rfl : (0x6E : UInt8) = b := by simpa [hnull] using hb
    rfl

/-- **Where the text of a sound value is read as a value of its kind, the value is encodable.** -/
lemma Value.encodable_of_token [CharConv F] {v v' : Value F} {w tok t t' : Bytes}
    (hsound : v.Sound) (hw : Blank w) (htok : v.kind.Token tok v')
    (h : v.written ++ t = w ++ (tok ++ t')) : v.Encodable := by
  cases v with
  | number x =>
    obtain ⟨y, htok, -⟩ := htok
    have hstart : ∀ b ∈ (tok ++ t').head?, isSpace b = false := by
      obtain ⟨n, rfl, -⟩ := htok
      exact head_number
    obtain ⟨-, htext⟩ := blank_append_inj blank_nil hw head_formatDouble hstart h
    exact finite_of_numberToken htok htext.symm
  | ranges ranges =>
    obtain ⟨ranges', htok, -⟩ := htok
    have hstart : ∀ b ∈ (tok ++ t').head?, isSpace b = false := by
      obtain ⟨c, u, -, -, rfl⟩ := htok
      intro b hb
      obtain rfl : (0x5B : UInt8) = b := by simpa using hb
      rfl
    have hwritten : ∀ b ∈ ((Value.ranges ranges).written ++ t).head?, isSpace b = false := by
      intro b hb
      obtain rfl : (0x5B : UInt8) = b := by simpa [Value.written] using hb
      rfl
    obtain ⟨-, htext⟩ := blank_append_inj blank_nil hw hwritten hstart h
    exact finite_of_rangesToken htok htext.symm
  | text v => exact hsound
  | reason r =>
    cases r with
    | none => trivial
    | some r => exact hsound
  | _ => trivial

/-! ## Written documents -/

/-- The members of an object, some and the others. -/
private lemma objectText_append (first : Bool) (ms ms' : List (Bytes × Bytes)) :
    objectText first (ms ++ ms') =
      objectText first ms ++ objectText (first && ms.isEmpty) ms' := by
  induction ms generalizing first with
  | nil => simp [objectText]
  | cons m ms ih => simp [objectText, ih, List.append_assoc]

/-- What is written for some fields, up to the colon of one of them. -/
private lemma before_documentText {M : Type} {S : Schema M} (text : S.Value → Bytes)
    (hname : ∀ f, PlainName (S.name f)) {pre : List (S.Field × S.Value)} (p : S.Field × S.Value)
    (post : List (S.Field × S.Value)) (h : ∀ p ∈ pre, S.Token p.1 (text p.2) p.2) :
    ∃ before t, S.Before pre (S.name p.1) before ∧
      documentText ((pre ++ p :: post).map fun p => (S.name p.1, text p.2)) =
        before ++ (text p.2 ++ t) := by
  obtain ⟨cs, hs, hcs⟩ := stringToken_name (hname p.1)
  have hl := listing_objectText hname h Listing.nil
  have hlead : Lead pre.isEmpty (if pre.isEmpty then [] else [0x2C]) := by
    cases pre with
    | nil => exact blank_nil
    | cons _ _ => exact lead_comma
  refine ⟨_, objectText false (post.map fun p => (S.name p.1, text p.2)) ++ [0x7D],
    ⟨[], _, _, _, cs, [], blank_nil, hl, hlead, hs, hcs, blank_nil, rfl⟩, ?_⟩
  cases pre <;> simp [documentText, objectText, objectText_append, List.append_assoc]

/-- **A property that the text of a value cannot be read without** holds of every value of an
encoded record that is decoded.

**Proof sketch.** Induction on the fields before the value: they have the property, so their texts
are tokens, and where the text of the value comes the decoder has read a token. -/
theorem Schema.forall_of_decode {M : Type} {S : Schema M} (text : S.Value → Bytes)
    (good : S.Field × S.Value → Prop) (hname : ∀ f, PlainName (S.name f))
    {ms : List (S.Field × S.Value)} (htoken : ∀ p ∈ ms, good p → S.Token p.1 (text p.2) p.2)
    (hgood : ∀ p ∈ ms, ∀ w tok v t t', Blank w → S.Token p.1 tok v →
      text p.2 ++ t = w ++ (tok ++ t') → good p) {m : M}
    (hok : S.decode (documentText (ms.map fun p => (S.name p.1, text p.2))) = .ok m) :
    ∀ p ∈ ms, good p := by
  suffices h : ∀ pre post, ms = pre ++ post → ∀ p ∈ pre, good p from h ms [] (by simp)
  intro pre
  induction pre using List.reverseRecOn with
  | nil => simp
  | append_singleton pre p ih =>
    intro post hms q hq
    rw [List.append_assoc] at hms
    have hpre := ih _ hms
    rcases List.mem_append.mp hq with hq | hq
    · exact hpre q hq
    · obtain rfl := List.mem_singleton.mp hq
      have hmem : q ∈ ms := by simp [hms]
      obtain ⟨before, t, hbefore, htext⟩ := before_documentText text hname q post
        fun p hp => htoken p (by simp [hms, hp]) (hpre p hp)
      rw [hms, List.singleton_append, htext] at hok
      obtain ⟨w, tok, v, t', hw, htok, heq⟩ := S.exists_token hbefore hok
      exact hgood q hmem w tok v t t' hw htok heq

/-- **The fields of an encoded record that is decoded are encodable**, for every schema over the
kinds: its strings because the body is valid, its numbers because they are read.

**Proof sketch.** The body is a document of valid tokens, so valid, so written for sound values;
and the text of a sound value is read as one of its kind only if the value is encodable. -/
theorem Value.encodable_of_decode [CharConv F] {M : Type} {S : Schema M} {kind : S.Field → Kind}
    (toValue : S.Value → Value F) (hname : ∀ f, PlainName (S.name f))
    (htoken : ∀ f tok v, S.Token f tok v ↔ (kind f).Token tok (toValue v))
    {get : S.Field → S.Value} (hkind : ∀ f, (toValue (get f)).kind = kind f) {fs : List S.Field}
    {m : M}
    (hok : S.decode
      (documentText (fs.map fun f => (S.name f, (toValue (get f)).written))) = .ok m) :
    ∀ f ∈ fs, (toValue (get f)).Encodable := by
  obtain ⟨ms, hdoc, -, -⟩ := S.decode_eq_ok.mp hok
  have hvalid := hdoc.valid fun f tok v h => Kind.valid_of_token ((htoken f tok v).mp h)
  have hsound : ∀ f ∈ fs, (toValue (get f)).Sound :=
    sound_of_objectText hname (hvalid.tail (by decide))
  have hbody : (fs.map fun f => (S.name f, (toValue (get f)).written)) =
      (fs.map fun f => (f, get f)).map fun p => (S.name p.1, (toValue p.2).written) := by
    rw [List.map_map]
    rfl
  rw [hbody] at hok
  have hgood := S.forall_of_decode (fun v => (toValue v).written)
    (fun p => (toValue p.2).Encodable) hname ?_ ?_ hok
  · exact fun f hf => hgood (f, get f) (List.mem_map.mpr ⟨f, hf, rfl⟩)
  · intro p hp hencodable
    obtain ⟨f, -, rfl⟩ := List.mem_map.mp hp
    have hwritten := Value.token_written hencodable
    rw [hkind f] at hwritten
    exact (htoken f _ _).mpr hwritten
  · intro p hp w tok v t t' hw htok heq
    obtain ⟨f, hf, rfl⟩ := List.mem_map.mp hp
    have hvalue := (htoken f tok v).mp htok
    rw [← hkind f] at hvalue
    exact Value.encodable_of_token (hsound f hf) hw hvalue heq

/-! ## Exactness -/

/-- A message whose fields are encodable is. -/
private lemma WakeMessage.encodable_of_get [CharConv F] {m : WakeMessage F}
    (h : ∀ f, (m.get f).Encodable) : m.Encodable where
  correlationId := h .correlationId
  marketTicker := h .marketTicker
  asset := h .asset
  clockDomain := h .clockDomain
  correlationGroup := h .correlationGroup
  kalshiPrice := h .kalshiPrice
  modelProbability := h .modelProbability
  fee := h .fee
  edge := h .edge
  wirePriceYesDollars := h .wirePriceYesDollars
  availableSizeContracts := h .availableSizeContracts
  priceRanges := h .priceRanges

/-- An ack whose fields are encodable is. -/
private lemma WakeAck.encodable_of_get [CharConv F] {ack : WakeAck}
    (h : ∀ f, (ack.get (F := F) f).Encodable) : ack.Encodable where
  correlationId := h .correlationId
  reason := by
    intro reason hr
    have hreason := h .reason
    rw [WakeAck.get, hr] at hreason
    exact hreason

/-- The body of a message that is decoded at all is that of an encodable one. -/
lemma encodable_of_wake_body [OfScientific F] [CharConv F] {m m' : WakeMessage F}
    (h : decodeWakeMessage m.body = .ok m') : m.Encodable := by
  have hname : ∀ f : WakeField, PlainName f.name := by
    intro f
    cases f <;> decide
  have hall : ∀ f, f ∈ WakeField.all := by
    intro f
    cases f <;> decide
  rw [decodeWakeMessage, toDecoded_eq_ok] at h
  have hfields := Value.encodable_of_decode (S := wakeSchema F) id hname
    (fun _ _ _ => Iff.rfl) m.kind_get h
  exact WakeMessage.encodable_of_get fun f => hfields f (hall f)

/-- The body of an ack that is decoded at all is that of an encodable one. -/
private lemma encodable_of_ack_body [CharConv F] {ack ack' : WakeAck}
    (h : decodeWakeAck (ack.body F) = .ok ack') : ack.Encodable := by
  have hname : ∀ f : AckField, PlainName f.name := by
    intro f
    cases f <;> decide
  have hall : ∀ f, f ∈ AckField.all := by
    intro f
    cases f <;> decide
  have hkind : ∀ f, (ack.get (F := F) f).kind = f.kind := by
    intro f
    cases f <;> rfl
  rw [decodeWakeAck, toDecoded_eq_ok] at h
  have hfields := Value.encodable_of_decode (S := ackSchema F) id hname
    (fun _ _ _ => Iff.rfl) hkind h
  exact WakeAck.encodable_of_get (F := F) fun f => hfields f (hall f)

/-- **What the encoders write is never read as another record.** The body of an encoded message
or ack decodes exactly if its strings are valid UTF-8 and its numbers finite, and then to what was
encoded.

**Proof sketch.** A record that is encodable is read back. If a body is read at all, its record is
encodable: its strings because only valid UTF-8 is accepted, its numbers because `null` is no
number. -/
theorem decode_encode_iff [OfScientific F] [CharConv F] :
    (∀ (m m' : WakeMessage F) (out : Bytes),
      decodeWakeMessage ((encodeWakeMessageInto m out).drop kFrameLengthBytes) = .ok m' ↔
        m.Encodable ∧ m' = m) ∧
    ∀ (ack ack' : WakeAck) (out : Bytes),
      decodeWakeAck ((encodeWakeAckInto ack out).drop kFrameLengthBytes) = .ok ack' ↔
        ack.Encodable ∧ ack' = ack := by
  constructor
  · intro m m' out
    rw [encodeWakeMessageInto_eq, drop_writeLengthPrefix]
    constructor
    · intro h
      have hm := encodable_of_wake_body h
      rw [decodeWakeMessage_body hm] at h
      exact ⟨hm, (Except.ok.inj h).symm⟩
    · rintro ⟨hm, rfl⟩
      exact decodeWakeMessage_body hm
  · intro ack ack' out
    rw [encodeWakeAckInto_eq F, drop_writeLengthPrefix]
    constructor
    · intro h
      have hack := encodable_of_ack_body h
      rw [decodeWakeAck_body F hack] at h
      exact ⟨hack, (Except.ok.inj h).symm⟩
    · rintro ⟨hack, rfl⟩
      exact decodeWakeAck_body F hack

/-! ## What is accepted can be sent on -/

/-- What `std::from_chars` reads from a number is finite. -/
def CharConv.ReadsFinite (F : Type) [CharConv F] : Prop :=
  ∀ (n : Number) (x : F), CharConv.fromChars n.render = FromChars.value x →
    CharConv.isFinite x = true

/-- Read values are encodable. -/
private lemma Kind.encodable_of_token [CharConv F] (hfinite : CharConv.ReadsFinite F) {k : Kind}
    {tok : Bytes} {v : Value F} (h : k.Token tok v) : v.Encodable := by
  have hnumber : ∀ {tok : Bytes} {x : F}, NumberToken tok x → CharConv.isFinite x = true := by
    rintro tok x ⟨n, -, hx⟩
    exact hfinite n x hx
  cases k with
  | text => obtain ⟨a, ⟨cs, -, rfl⟩, rfl⟩ := h; exact Utf8.valid_encode cs
  | number => obtain ⟨a, hx, rfl⟩ := h; exact hnumber hx
  | ranges =>
    obtain ⟨ranges, ⟨c, w, hc, -, -⟩, rfl⟩ := h
    intro range hrange
    obtain ⟨tok, c', w', hc', -, -⟩ := hc.exists_token hrange
    have hbound : ∀ x ∈ [range.start, range.end_, range.step], CharConv.isFinite x = true := by
      intro x hx
      obtain ⟨tok, htok⟩ := hc'.exists_token hx
      exact hnumber htok
    exact ⟨hbound _ (by simp), hbound _ (by simp), hbound _ (by simp)⟩
  | reason =>
    obtain ⟨a, ⟨-, rfl⟩ | ⟨cs, -, rfl⟩, rfl⟩ := h
    · trivial
    · exact Utf8.valid_encode cs
  | int => obtain ⟨a, -, rfl⟩ := h; trivial
  | flag => obtain ⟨a, -, rfl⟩ := h; trivial
  | direction => obtain ⟨a, -, rfl⟩ := h; trivial
  | status => obtain ⟨a, -, rfl⟩ := h; trivial

/-- The value a document has for a field, or the default if that is encodable, is encodable. -/
private lemma encodable_lastValue [CharConv F] (hfinite : CharConv.ReadsFinite F) {M : Type}
    {S : Schema M} {kind : S.Field → Kind} (toValue : S.Value → Value F)
    (htoken : ∀ f tok v, S.Token f tok v ↔ (kind f).Token tok (toValue v)) [DecidableEq S.Field]
    {body : Bytes} {ms : List (S.Field × S.Value)} (h : S.Document body ms) (f : S.Field)
    {v : S.Value} (hdefault : (toValue v).Encodable) :
    (toValue ((lastValue f ms).getD v)).Encodable := by
  cases hlast : lastValue f ms with
  | none => exact hdefault
  | some u =>
    obtain ⟨_, _, _, _, -, hl, -⟩ := h
    obtain ⟨tok, -, -, -, -, vtok, -, -, -, -, hv, -⟩ := hl.exists_token (mem_of_lastValue hlast)
    exact Kind.encodable_of_token hfinite ((htoken f vtok u).mp hv)

/-- A message that was decoded is encodable. -/
private lemma encodable_of_decodeWakeMessage [OfScientific F] [CharConv F]
    (hfinite : CharConv.ReadsFinite F) (hdefault : (WakeMessage.default : WakeMessage F).Encodable)
    {body : Bytes} {m : WakeMessage F} (h : decodeWakeMessage body = .ok m) : m.Encodable := by
  obtain ⟨ms, hdoc, -, hget⟩ := (decodeWakeMessage_eq_ok body m).mp h
  refine WakeMessage.encodable_of_get fun f => ?_
  rw [hget f]
  exact encodable_lastValue hfinite (S := wakeSchema F) id (fun _ _ _ => Iff.rfl) hdoc
    f (hdefault.get f)

/-- An ack that was decoded is encodable. It has no number, so any type of numbers will do. -/
private lemma encodable_of_decodeWakeAck {body : Bytes} {ack : WakeAck}
    (h : decodeWakeAck body = .ok ack) : ack.Encodable := by
  have hfinite : CharConv.ReadsFinite SignedZero := fun _ _ _ => rfl
  have hdefault : ∀ f, (WakeAck.default.get (F := SignedZero) f).Encodable := by
    intro f
    cases f with
    | correlationId => exact Utf8.valid_nil
    | _ => trivial
  obtain ⟨ms, hdoc, -, hget⟩ := (decodeWakeAck_eq_ok SignedZero body ack).mp h
  refine WakeAck.encodable_of_get (F := SignedZero) fun f => ?_
  rw [hget f]
  exact encodable_lastValue hfinite (S := ackSchema SignedZero) id
    (fun _ _ _ => Iff.rfl) hdoc f (hdefault f)

/-- **What was accepted can be sent on without loss**: a decoded message or ack is encodable, and
decoding what is written for it gives it again. Assumed is that reading a number gives a finite
one, and that the defaults are encodable.

**Proof sketch.** Each field is a default or the value of a token; a string token denotes scalar
values, so its value is valid, and a number token is read as a finite number. -/
theorem reencode [OfScientific F] [CharConv F] (hfinite : CharConv.ReadsFinite F)
    (hdefault : (WakeMessage.default : WakeMessage F).Encodable) :
    (∀ (body out : Bytes) (m : WakeMessage F), decodeWakeMessage body = .ok m → m.Encodable ∧
      decodeWakeMessage ((encodeWakeMessageInto m out).drop kFrameLengthBytes) = .ok m) ∧
    ∀ (body out : Bytes) (ack : WakeAck), decodeWakeAck body = .ok ack → ack.Encodable ∧
      decodeWakeAck ((encodeWakeAckInto ack out).drop kFrameLengthBytes) = .ok ack := by
  constructor
  · intro body out m h
    have hm := encodable_of_decodeWakeMessage hfinite hdefault h
    rw [encodeWakeMessageInto_eq, drop_writeLengthPrefix]
    exact ⟨hm, decodeWakeMessage_body hm⟩
  · intro body out ack h
    have hack := encodable_of_decodeWakeAck h
    rw [encodeWakeAckInto_eq F, drop_writeLengthPrefix]
    exact ⟨hack, decodeWakeAck_body F hack⟩

/-- A message as the encoder does not spell it: with white space, a repeated key, escapes and a
number with an exponent. -/
def respelled : Bytes :=
  bytes "\x7b\n \"schema_version\" : 4, \"correlation_id\":\"x\"," ++
    bytes " \"correlation_id\" : \"\\u00631\", \"market_ticker\":\"\\/\", \"asset\":\"\"," ++
    bytes " \"direction\":\"no\", \"kalshi_price\":5E1," ++
    bytes " \"model_probability\":-0, \"fee\":0, \"edge\":0, \"decision_ts_ms\":1," ++
    bytes " \"sent_at_ms\":2, \"sent_at_ns\":-3 \x7d"

/-- A message in another spelling than the encoder's is accepted, and sent on in the encoder's. -/
theorem reencode_respelled :
    ∃ m : WakeMessage SignedZero, decodeWakeMessage respelled = .ok m ∧
      m.correlationId = bytes "c1" ∧ m.marketTicker = bytes "/" ∧ m.body ≠ respelled ∧
      decodeWakeMessage ((encodeWakeMessageInto m []).drop kFrameLengthBytes) = .ok m := by
  have hfinite : CharConv.ReadsFinite SignedZero := fun _ _ _ => rfl
  have hdefault : (WakeMessage.default : WakeMessage SignedZero).Encodable :=
    ⟨Utf8.valid_nil, Utf8.valid_nil, Utf8.valid_nil, Utf8.valid_nil, Utf8.valid_nil, rfl, rfl, rfl,
      rfl, rfl, rfl, fun _ _ => ⟨rfl, rfl, rfl⟩⟩
  have hread : (decodeWakeMessage (F := SignedZero) respelled).toOption.map
      (fun m => (m.correlationId, m.marketTicker, decide (m.body = respelled))) =
        some (bytes "c1", bytes "/", false) := by
    decide +kernel
  cases hm : decodeWakeMessage (F := SignedZero) respelled with
  | error e => simp [hm, Except.toOption] at hread
  | ok m =>
    rw [hm] at hread
    obtain ⟨hid, hticker, hbody⟩ : m.correlationId = bytes "c1" ∧ m.marketTicker = bytes "/" ∧
        m.body ≠ respelled := by simpa [Except.toOption] using hread
    exact ⟨m, rfl, hid, hticker, hbody, ((reencode hfinite hdefault).1 respelled [] m hm).2⟩

end Hotpath
