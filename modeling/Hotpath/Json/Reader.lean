import Mathlib.Logic.Function.Basic
import Hotpath.Lib.Loop
import Hotpath.Protocol.Message

set_option relaxedAutoImplicit false
set_option autoImplicit false

/-!
# The pull parser

`json::Reader` of `src/json.cpp`, method by method. A method that returns false in the source
stops here with the error it leaves in `error_`; since every caller returns at once on false,
the first failure is the one reported. An access the source would make outside `text_` or
`first_`, and a loop that outruns its bound, stop with `Failure.fault` instead, so that their
absence is a statement and not an assumption.

## Main definitions

* `Hotpath.Json.Failure`, `Hotpath.Json.Parse` — why a method stops, and its result type.
* `Hotpath.Json.Reader` — the reader's state, and below it the methods under their names.
* `Hotpath.Json.Reader.scanNumber`, `Hotpath.Json.Reader.scanString` — the two token scanners.
-/

namespace Hotpath.Json

open JsonText (isSpace isDigit FromChars fromCharsInt)
open Utf8 (bytes)

/-- Why a reader method stops: the error it reports, or an access or a loop the source does not
bound. -/
inductive Failure where
  | error (e : DecodeError)
  | fault
  deriving DecidableEq

/-- The result of a reader method. -/
abbrev Parse (α : Type) := Except Failure α

/-- `Reader::kMaxDepth`. -/
def kMaxDepth : ℕ := 8

/-- The members of `Reader`, less `error_` and `failed_`, which `Parse` carries. -/
structure Reader where
  text : Bytes
  pos : ℕ
  depth : ℕ
  first : Fin kMaxDepth → Bool

/-- `Reader::Reader`. -/
def Reader.ofText (text : Bytes) : Reader where
  text := text
  pos := 0
  depth := 0
  first := fun _ => false

/-- `Reader::fail`. -/
def fail {α : Type} (code : DecodeErrorCode) (message : Bytes) : Parse α :=
  .error (.error ⟨code, message⟩)

/-- An entry of `kByteHexDigits`. -/
def hexChar (i : ℕ) : UInt8 := (bytes "0123456789abcdef").getD i 0

/-- `hex_byte`. -/
def hexByte (c : UInt8) : Bytes := [hexChar (c.toNat >>> 4), hexChar (c.toNat &&& 0x0F)]

/-- `starts_with`. -/
def startsWith (text : Bytes) (pos : ℕ) (token : Bytes) : Bool :=
  token.isPrefixOf (text.drop pos)

/-- `while (pos < size && p(text[pos])) ++pos`, with `n` the bytes left. -/
def scanWhile (p : UInt8 → Bool) (text : Bytes) : ℕ → ℕ → ℕ
  | 0, pos => pos
  | n + 1, pos =>
    match text[pos]? with
    | some c => if p c then scanWhile p text n (pos + 1) else pos
    | none => pos

/-- The position where a run of bytes satisfying `p` ends. -/
def advanceWhile (p : UInt8 → Bool) (text : Bytes) (pos : ℕ) : ℕ :=
  scanWhile p text (text.length - pos) pos

/-- `append_utf8`. -/
def appendUtf8 (out : Bytes) (codePoint : ℕ) : Bytes :=
  if codePoint < 0x80 then out ++ [UInt8.ofNat codePoint]
  else if codePoint < 0x800 then
    out ++ [UInt8.ofNat (0xC0 ||| codePoint >>> 6), UInt8.ofNat (0x80 ||| codePoint &&& 0x3F)]
  else if codePoint < 0x10000 then
    out ++ [UInt8.ofNat (0xE0 ||| codePoint >>> 12),
      UInt8.ofNat (0x80 ||| codePoint >>> 6 &&& 0x3F), UInt8.ofNat (0x80 ||| codePoint &&& 0x3F)]
  else
    out ++ [UInt8.ofNat (0xF0 ||| codePoint >>> 18),
      UInt8.ofNat (0x80 ||| codePoint >>> 12 &&& 0x3F),
      UInt8.ofNat (0x80 ||| codePoint >>> 6 &&& 0x3F), UInt8.ofNat (0x80 ||| codePoint &&& 0x3F)]

namespace Reader

/-- `text_[i]` where the source has checked the bound before, or means to. -/
def byteAt (r : Reader) (i : ℕ) : Parse UInt8 :=
  match r.text[i]? with
  | some c => .ok c
  | none => .error .fault

/-- `skip_whitespace`. -/
def skipWhitespace (r : Reader) : Reader :=
  { r with pos := advanceWhile isSpace r.text r.pos }

/-- `Reader::peek`: the next byte after whitespace, if there is one. -/
def peek (r : Reader) : Option UInt8 × Reader :=
  (r.skipWhitespace.text[r.skipWhitespace.pos]?, r.skipWhitespace)

/-- `expect`: the next byte after whitespace must be this one. -/
def expect (r : Reader) (c : UInt8) : Parse Reader :=
  match r.peek with
  | (none, _) => fail .malformedJson (bytes "expected '" ++ [c] ++ bytes "', got end of input")
  | (some seen, r) =>
    if seen ≠ c then
      fail .malformedJson (bytes "expected '" ++ [c] ++ bytes "', got byte 0x" ++ hexByte seen)
    else .ok { r with pos := r.pos + 1 }

/-- `push_level`: one level more, whose first item comes next, if there is room for it. -/
def pushLevel (r : Reader) : Parse Reader :=
  if r.depth = kMaxDepth then fail .malformedJson (bytes "nesting too deep")
  else if h : r.depth < kMaxDepth then
    .ok { r with first := Function.update r.first ⟨r.depth, h⟩ true, depth := r.depth + 1 }
  else .error .fault

/-- `--depth_`. -/
def popLevel (r : Reader) : Parse Reader :=
  match r.depth with
  | 0 => .error .fault
  | d + 1 => .ok { r with depth := d }

/-- The comma before every item but the first of the open level: the test and update of
`first_[depth_ - 1]` in `next_member` and `next_element`. -/
def separator (r : Reader) : Parse Reader :=
  match r.depth with
  | 0 => .error .fault
  | d + 1 =>
    if h : d < kMaxDepth then
      if r.first ⟨d, h⟩ then .ok { r with first := Function.update r.first ⟨d, h⟩ false }
      else r.expect 0x2C
    else .error .fault

/-! ## Numbers -/

/-- The integer part in `scan_number`, from the byte after the sign. -/
def scanWhole (text : Bytes) (pos : ℕ) : Parse ℕ :=
  match text[pos]? with
  | none => fail .malformedJson (bytes "no digit after sign")
  | some c =>
    if ¬ isDigit c then fail .malformedJson (bytes "no digit after sign")
    else if c = 0x30 then
      match text[pos + 1]? with
      | none => .ok (pos + 1)
      | some d =>
        if isDigit d then fail .malformedJson (bytes "number with leading zero is not allowed")
        else .ok (pos + 1)
    else .ok (advanceWhile isDigit text pos)

/-- One digit at least, then all that follow: the tail of a fraction or an exponent. -/
def scanDigits (text : Bytes) (pos : ℕ) (message : Bytes) : Parse ℕ :=
  match text[pos]? with
  | none => fail .malformedJson message
  | some c =>
    if ¬ isDigit c then fail .malformedJson message else .ok (advanceWhile isDigit text pos)

/-- The fraction part in `scan_number`, and whether there is one. -/
def scanFraction (text : Bytes) (pos : ℕ) : Parse (ℕ × Bool) :=
  match text[pos]? with
  | none => .ok (pos, false)
  | some c =>
    if c = 0x2E then do
      let pos ← scanDigits text (pos + 1) (bytes "no digit after decimal point")
      .ok (pos, true)
    else .ok (pos, false)

/-- The sign in an exponent part. -/
def skipSign (text : Bytes) (pos : ℕ) : ℕ :=
  match text[pos]? with
  | none => pos
  | some c => if c = 0x2B ∨ c = 0x2D then pos + 1 else pos

/-- The exponent part in `scan_number`, and whether there is one. -/
def scanExponent (text : Bytes) (pos : ℕ) : Parse (ℕ × Bool) :=
  match text[pos]? with
  | none => .ok (pos, false)
  | some c =>
    if c = 0x65 ∨ c = 0x45 then do
      let pos ← scanDigits text (skipSign text (pos + 1)) (bytes "no digit after exponent")
      .ok (pos, true)
    else .ok (pos, false)

/-- `Reader::scan_number`: the token and `integral`. -/
def scanNumber (r : Reader) : Parse ((Bytes × Bool) × Reader) :=
  match r.peek with
  | (none, _) => fail .wrongType (bytes "expected a number, got end of input")
  | (some c, r) =>
    if c ≠ 0x2D ∧ ¬ isDigit c then fail .wrongType (bytes "expected a number")
    else do
      let pos ← scanWhole r.text (if c = 0x2D then r.pos + 1 else r.pos)
      let (pos, fraction) ← scanFraction r.text pos
      let (pos, exponent) ← scanExponent r.text pos
      .ok (((r.text.drop r.pos).take (pos - r.pos), !fraction && !exponent), { r with pos := pos })

/-! ## Strings -/

/-- A hexadecimal digit in `read_hex4`. -/
def hexDigitOf (c : UInt8) : Option ℕ :=
  if isDigit c then some (c.toNat - 0x30)
  else if 0x61 ≤ c ∧ c ≤ 0x66 then some (c.toNat - 0x61 + 10)
  else if 0x41 ≤ c ∧ c ≤ 0x46 then some (c.toNat - 0x41 + 10)
  else none

/-- The loop of `read_hex4`: `n` digits to go from offset `i`. -/
def hexLoop (r : Reader) : ℕ → ℕ → ℕ → Parse (Option ℕ)
  | 0, _, value => .ok (some value)
  | n + 1, i, value => do
    let c ← r.byteAt (r.pos + i)
    match hexDigitOf c with
    | none => .ok none
    | some digit => hexLoop r n (i + 1) (value <<< 4 ||| digit)

/-- `read_hex4`, the lambda of `append_code_point`; `none` is its false. -/
def readHex4 (r : Reader) : Parse (Option (ℕ × Reader)) :=
  if r.pos + 4 > r.text.length then .ok none
  else do
    match ← hexLoop r 4 0 0 with
    | none => .ok none
    | some value => .ok (some (value, { r with pos := r.pos + 4 }))

/-- The low half of a surrogate pair in `append_code_point`. -/
def readLowSurrogate (r : Reader) : Parse (ℕ × Reader) :=
  if r.pos + 2 > r.text.length then fail .malformedJson (bytes "no low surrogate in string")
  else do
    let a ← r.byteAt r.pos
    let b ← r.byteAt (r.pos + 1)
    if a ≠ 0x5C ∨ b ≠ 0x75 then fail .malformedJson (bytes "no low surrogate in string")
    else
      match ← readHex4 { r with pos := r.pos + 2 } with
      | none => fail .malformedJson (bytes "no low surrogate in string")
      | some (low, r) =>
        if low < 0xDC00 ∨ low > 0xDFFF then
          fail .malformedJson (bytes "no low surrogate in string")
        else .ok (low, r)

/-- `append_code_point`: the code point of a `\u` escape, or of two that are a surrogate pair. -/
def appendCodePoint (r : Reader) (out : Bytes) : Parse (Bytes × Reader) := do
  match ← r.readHex4 with
  | none => fail .malformedJson (bytes "invalid \\u escape")
  | some (codePoint, r) =>
    if codePoint ≥ 0xDC00 ∧ codePoint ≤ 0xDFFF then
      fail .malformedJson (bytes "no high surrogate in string")
    else if codePoint ≥ 0xD800 ∧ codePoint ≤ 0xDBFF then do
      let (low, r) ← r.readLowSurrogate
      .ok (appendUtf8 out (0x10000 + (codePoint - 0xD800) <<< 10 + (low - 0xDC00)), r)
    else .ok (appendUtf8 out codePoint, r)

/-- `append_escape`: what stands behind a backslash. -/
def appendEscape (r : Reader) (out : Bytes) : Parse (Bytes × Reader) :=
  match r.text[r.pos]? with
  | none => fail .malformedJson (bytes "unterminated escape sequence")
  | some c =>
    let r := { r with pos := r.pos + 1 }
    if c = 0x22 ∨ c = 0x5C ∨ c = 0x2F then .ok (out ++ [c], r)
    else if c = 0x62 then .ok (out ++ [0x08], r)
    else if c = 0x66 then .ok (out ++ [0x0C], r)
    else if c = 0x6E then .ok (out ++ [0x0A], r)
    else if c = 0x72 then .ok (out ++ [0x0D], r)
    else if c = 0x74 then .ok (out ++ [0x09], r)
    else if c = 0x75 then r.appendCodePoint out
    else fail .malformedJson (bytes "invalid escape: byte 0x" ++ hexByte c)

/-- The length a lead byte announces and the bounds it sets on the second byte, in
`validate_utf8_run`; `none` for a byte that leads nothing. -/
def utf8Shape (lead : UInt8) : Option (ℕ × UInt8 × UInt8) :=
  if lead ≥ 0xC2 ∧ lead ≤ 0xDF then some (2, 0x80, 0xBF)
  else if lead ≥ 0xE0 ∧ lead ≤ 0xEF then
    some (3, if lead = 0xE0 then 0xA0 else 0x80, if lead = 0xED then 0x9F else 0xBF)
  else if lead ≥ 0xF0 ∧ lead ≤ 0xF4 then
    some (4, if lead = 0xF0 then 0x90 else 0x80, if lead = 0xF4 then 0x8F else 0xBF)
  else none

/-- The loop over the tail bytes in `validate_utf8_run`: `n` bytes from index `i`. -/
def tailLoop (r : Reader) : ℕ → ℕ → Parse Bool
  | 0, _ => .ok true
  | n + 1, i => do
    let b ← r.byteAt i
    if b ≥ 0x80 ∧ b ≤ 0xBF then tailLoop r n (i + 1) else .ok false

/-- `Reader::validate_utf8_run`, its reference argument being `pos_`. -/
def validateUtf8Run (r : Reader) : Parse Reader := do
  let lead ← r.byteAt r.pos
  match utf8Shape lead with
  | none => fail .malformedJson (bytes "str is not valid UTF-8")
  | some (length, secondLow, secondHigh) =>
    if r.pos + length > r.text.length then
      fail .malformedJson (bytes "str is not valid UTF-8")
    else do
      let second ← r.byteAt (r.pos + 1)
      if ¬ (second ≥ secondLow ∧ second ≤ secondHigh) then
        fail .malformedJson (bytes "str is not valid UTF-8")
      else if ← r.tailLoop (length - 2) (r.pos + 2) then .ok { r with pos := r.pos + length }
      else fail .malformedJson (bytes "str is not valid UTF-8")

/-- The loop state of `scan_string`: the reader, the output, and where the raw run starts. -/
structure StringLoop where
  reader : Reader
  out : Bytes
  run : ℕ

/-- `text_.substr(run, pos_ - run)`. -/
def StringLoop.pending (s : StringLoop) : Bytes :=
  (s.reader.text.drop s.run).take (s.reader.pos - s.run)

/-- One iteration of the loop of `scan_string`. -/
def stringBody (s : StringLoop) : Loop.Step StringLoop (Parse (Bytes × Reader)) :=
  let r := s.reader
  match r.text[r.pos]? with
  | none => .done (fail .malformedJson (bytes "unterminated string"))
  | some byte =>
    if byte = 0x22 then .done (.ok (s.out ++ s.pending, { r with pos := r.pos + 1 }))
    else if byte = 0x5C then
      match appendEscape { r with pos := r.pos + 1 } (s.out ++ s.pending) with
      | .error e => .done (.error e)
      | .ok (out, r) => .more ⟨r, out, r.pos⟩
    else if byte < 0x20 then
      .done (fail .malformedJson (bytes "unexpected control character in string"))
    else if byte < 0x80 then .more { s with reader := { r with pos := r.pos + 1 } }
    else
      match r.validateUtf8Run with
      | .error e => .done (.error e)
      | .ok r => .more { s with reader := r }

/-- `scan_string`: the bytes that a string token denotes. -/
def scanString (r : Reader) : Parse (Bytes × Reader) :=
  match r.peek with
  | (none, _) => fail .wrongType (bytes "expected a string, got end of input")
  | (some c, r) =>
    if c ≠ 0x22 then fail .wrongType (bytes "expected a string")
    else
      (Loop.run stringBody (r.text.length + 1)
        ⟨{ r with pos := r.pos + 1 }, [], r.pos + 1⟩).getD (.error .fault)

/-! ## Structure -/

/-- `begin_object`. -/
def beginObject (r : Reader) : Parse Reader := do
  let r ← r.expect 0x7B
  r.pushLevel

/-- `Reader::next_member`: the key of the next member, or `none` at the closing brace. -/
def nextMember (r : Reader) : Parse (Option Bytes × Reader) :=
  match r.peek with
  | (none, _) => fail .malformedJson (bytes "unterminated object")
  | (some c, r) =>
    if c = 0x7D then do
      let r ← popLevel { r with pos := r.pos + 1 }
      .ok (none, r)
    else do
      let r ← r.separator
      let (key, r) ← r.scanString
      let r ← r.expect 0x3A
      .ok (some key, r)

/-- `begin_array`. -/
def beginArray (r : Reader) : Parse Reader := do
  let r ← r.expect 0x5B
  r.pushLevel

/-- `Reader::next_element`: whether another element follows, or false at the closing bracket. -/
def nextElement (r : Reader) : Parse (Bool × Reader) :=
  match r.peek with
  | (none, _) => fail .malformedJson (bytes "unterminated array")
  | (some c, r) =>
    if c = 0x5D then do
      let r ← popLevel { r with pos := r.pos + 1 }
      .ok (false, r)
    else do
      let r ← r.separator
      .ok (true, r)

/-! ## Values -/

/-- `read_string`. -/
def readString (r : Reader) : Parse (Bytes × Reader) := r.scanString

/-- `read_int`: a number token without a point or an exponent, in the range of 64 bits. -/
def readInt (r : Reader) : Parse (Int64 × Reader) := do
  let ((token, integral), r) ← r.scanNumber
  if ¬ integral then fail .wrongType (bytes "expected an integer, got " ++ token)
  else
    match fromCharsInt (-2 ^ 63) (2 ^ 63 - 1) token with
    | .outOfRange => fail .outOfRange (bytes "integer out of range: " ++ token)
    | .invalid => fail .malformedJson (bytes "malformed integer: " ++ token)
    | .value v => .ok (Int64.ofInt v, r)

/-- `read_double`: a number token as `std::from_chars` reads it. -/
def readDouble {F : Type} [CharConv F] (r : Reader) : Parse (F × Reader) := do
  let ((token, _), r) ← r.scanNumber
  match (CharConv.fromChars token : FromChars F) with
  | .outOfRange => fail .outOfRange (bytes "number out of range: " ++ token)
  | .invalid => fail .malformedJson (bytes "malformed number: " ++ token)
  | .value v => .ok (v, r)

/-- `read_bool`. Only the prefix of what stands there is looked at. -/
def readBool (r : Reader) : Parse (Bool × Reader) :=
  match r.peek with
  | (none, _) => fail .wrongType (bytes "expected a boolean, got end of input")
  | (some _, r) =>
    if startsWith r.text r.pos (bytes "true") then .ok (true, { r with pos := r.pos + 4 })
    else if startsWith r.text r.pos (bytes "false") then .ok (false, { r with pos := r.pos + 5 })
    else fail .wrongType (bytes "expected a boolean")

/-- `Reader::at_null`, which leaves the reader after the whitespace it skipped. -/
def atNull (r : Reader) : Bool × Reader :=
  (startsWith r.text r.skipWhitespace.pos (bytes "null"), r.skipWhitespace)

/-- `read_null`. -/
def readNull (r : Reader) : Parse Reader :=
  if ¬ r.atNull.1 then fail .wrongType (bytes "expected null")
  else .ok { r.atNull.2 with pos := r.atNull.2.pos + 4 }

/-- `at_document_end`: nothing but whitespace may follow. -/
def atDocumentEnd (r : Reader) : Parse Reader :=
  if r.skipWhitespace.pos ≠ r.text.length then
    fail .malformedJson (bytes "unexpected content after document")
  else .ok r.skipWhitespace

end Reader

end Hotpath.Json
