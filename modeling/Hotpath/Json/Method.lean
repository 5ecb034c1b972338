import Hotpath.Json.Reader
import Hotpath.Lib.Program

set_option relaxedAutoImplicit false
set_option autoImplicit false

/-!
# The pull parser, access by access

The methods of `json::Reader` once more, this time as what they do to the members of `Reader`: a
method is a program whose calls are the reads of `text_`, the reads and writes of `pos_`,
`depth_` and `first_`, in the order and under the tests of `src/json.cpp`. Nothing in a method
bounds an index but the tests the source makes, and an access out of bounds may answer and leave
behind anything. A loop is cut off after a number of iterations given from outside.

## Main definitions

* `Hotpath.Json.Access`, `Hotpath.Json.Reader.Does` — the accesses and what they do.
* `Hotpath.Json.Method` — programs of accesses, and below it the methods under their names.
* `Hotpath.Json.Method.loop` — a loop of the source.
-/

namespace Hotpath.Json

open JsonText (isSpace isDigit FromChars fromCharsInt)
open Utf8 (bytes)
open Reader (hexDigitOf utf8Shape)

/-! ## Accesses -/

/-- An access to a member of `Reader`: `text_.size()`, `text_[i]`, the bytes of `text_` from
`start` to `stop` (as `substr` and `starts_with` take them), reading and writing `pos_`, reading,
incrementing and decrementing `depth_`, `first_[depth_] = true`, reading `first_[depth_ - 1]`, and
`first_[depth_ - 1] = false`. The last two are none but marks in an execution: the cap on the levels
rejects the text, and an iteration of a loop, begun with `pos_` at `p`, goes round. -/
inductive Access where
  | size
  | text (i : ℕ)
  | slice (start stop : ℕ)
  | pos
  | setPos (p : ℕ)
  | depth
  | incDepth
  | decDepth
  | raiseFirst
  | first
  | clearFirst
  | capped
  | round (p : ℕ)

/-- What an access answers. -/
def Access.Answer : Access → Type
  | size | pos | depth => ℕ
  | text _ => UInt8
  | slice _ _ => Bytes
  | first => Bool
  | setPos _ | incDepth | decDepth | raiseFirst | clearFirst | capped | round _ => Unit

/-- The answers an access may give to a reader, and the readers it may leave. What is out of
bounds is left open: the byte there, and what a write there does. -/
def Reader.Does (r : Reader) : (a : Access) → a.Answer → Reader → Prop
  | .size, n, r' => n = r.text.length ∧ r' = r
  | .text i, c, r' => i < r.text.length → r.text[i]? = some c ∧ r' = r
  | .slice start stop, v, r' => start ≤ stop ∧ stop ≤ r.text.length →
      v = (r.text.drop start).take (stop - start) ∧ r' = r
  | .pos, n, r' => n = r.pos ∧ r' = r
  | .setPos p, _, r' => r' = { r with pos := p }
  | .depth, n, r' => n = r.depth ∧ r' = r
  | .incDepth, _, r' => r' = { r with depth := r.depth + 1 }
  | .decDepth, _, r' => 1 ≤ r.depth → r' = { r with depth := r.depth - 1 }
  | .raiseFirst, _, r' => ∀ h : r.depth < kMaxDepth,
      r' = { r with first := Function.update r.first ⟨r.depth, h⟩ true }
  | .first, b, r' => 1 ≤ r.depth → ∀ h : r.depth - 1 < kMaxDepth,
      b = r.first ⟨r.depth - 1, h⟩ ∧ r' = r
  | .clearFirst, _, r' => 1 ≤ r.depth → ∀ h : r.depth - 1 < kMaxDepth,
      r' = { r with first := Function.update r.first ⟨r.depth - 1, h⟩ false }
  | .capped, _, r' => r' = r
  | .round _, _, r' => r' = r

/-- A method of `Reader`: the accesses it makes, and what it returns or stops with. -/
abbrev Method (α : Type) := ExceptT Failure (Program Access Access.Answer) α

namespace Method

/-- One access. -/
def access (a : Access) : Method a.Answer := ExceptT.lift (Program.perform a)

/-- `text_.size()`. -/
def size : Method ℕ := access .size

/-- `text_[i]`. -/
def textAt (i : ℕ) : Method UInt8 := access (.text i)

/-- The bytes of `text_` from `start` to `stop`. -/
def slice (start stop : ℕ) : Method Bytes := access (.slice start stop)

/-- `pos_`. -/
def pos : Method ℕ := access .pos

/-- `pos_ = p`. -/
def setPos (p : ℕ) : Method Unit := access (.setPos p)

/-- `depth_`. -/
def depth : Method ℕ := access .depth

/-- `++depth_`. -/
def incDepth : Method Unit := access .incDepth

/-- `--depth_`. -/
def decDepth : Method Unit := access .decDepth

/-- `first_[depth_] = true`. -/
def raiseFirst : Method Unit := access .raiseFirst

/-- `first_[depth_ - 1]`. -/
def first : Method Bool := access .first

/-- `first_[depth_ - 1] = false`. -/
def clearFirst : Method Unit := access .clearFirst

/-- The mark of a text rejected by the cap. -/
def capped : Method Unit := access .capped

/-- The mark of an iteration that goes round. -/
def round (p : ℕ) : Method Unit := access (.round p)

/-- `Reader::fail`. -/
def fail {α : Type} (code : DecodeErrorCode) (message : Bytes) : Method α :=
  throw (.error ⟨code, message⟩)

/-- A loop with body `body`, cut off after `fuel` iterations. -/
def loop {σ α : Type} (body : σ → Method (Loop.Step σ α)) : ℕ → σ → Method α
  | 0, _ => throw .fault
  | fuel + 1, s => do
    let start ← pos
    match ← body s with
    | .done a => pure a
    | .more s => do
      round start
      loop body fuel s

/-- `pos_ += n`. -/
def advance (n : ℕ) : Method Unit := do
  setPos ((← pos) + n)

/-- `pos_ < text_.size() && p(text_[pos_])`. -/
def sees (p : UInt8 → Bool) : Method Bool := do
  if (← pos) < (← size) then
    let c ← textAt (← pos)
    pure (p c)
  else pure false

/-- `index` is a continuation byte between two bounds: the lambda of `validate_utf8_run`. -/
def isContinuation (index : ℕ) (low high : UInt8) : Method Bool := do
  if (← textAt index) ≥ low then
    pure (decide ((← textAt index) ≤ high))
  else pure false

/-- `starts_with(text_, pos_, token)`. -/
def startsWith (token : Bytes) : Method Bool := do
  let start ← pos
  let end_ ← size
  if start ≤ end_ ∧ end_ - start ≥ token.length then
    let seen ← slice start (start + token.length)
    pure (decide (seen = token))
  else pure false

/-! ## Escapes and UTF-8 -/

/-- The loop of `read_hex4`: `n` digits to go from offset `i`. -/
def hexLoop : ℕ → ℕ → ℕ → Method (Option ℕ)
  | 0, _, value => pure (some value)
  | n + 1, i, value => do
    let c ← textAt ((← pos) + i)
    match hexDigitOf c with
    | none => pure none
    | some digit => hexLoop n (i + 1) (value <<< 4 ||| digit)

/-- `read_hex4`: four hexadecimal digits, or false where the reader stays where it is. -/
def readHex4 : Method (Option ℕ) := do
  if (← pos) + 4 > (← size) then pure none
  else
    match ← hexLoop 4 0 0 with
    | none => pure none
    | some value => do
      advance 4
      pure (some value)

/-- The low half of a surrogate pair in `append_code_point`. -/
def readLowSurrogate : Method ℕ := do
  if (← pos) + 2 > (← size) then
    fail .malformedJson (bytes "no low surrogate in string")
  else if (← textAt (← pos)) ≠ 0x5C then
    fail .malformedJson (bytes "no low surrogate in string")
  else if (← textAt ((← pos) + 1)) ≠ 0x75 then
    fail .malformedJson (bytes "no low surrogate in string")
  else
    advance 2
    match ← readHex4 with
    | none => fail .malformedJson (bytes "no low surrogate in string")
    | some low =>
      if low < 0xDC00 ∨ low > 0xDFFF then
        fail .malformedJson (bytes "no low surrogate in string")
      else pure low

/-- `append_code_point`. -/
def appendCodePoint (out : Bytes) : Method Bytes := do
  match ← readHex4 with
  | none => fail .malformedJson (bytes "invalid \\u escape")
  | some codePoint =>
    if codePoint ≥ 0xDC00 ∧ codePoint ≤ 0xDFFF then
      fail .malformedJson (bytes "no high surrogate in string")
    else if codePoint ≥ 0xD800 ∧ codePoint ≤ 0xDBFF then do
      let low ← readLowSurrogate
      pure (appendUtf8 out (0x10000 + (codePoint - 0xD800) <<< 10 + (low - 0xDC00)))
    else pure (appendUtf8 out codePoint)

/-- `append_escape`. -/
def appendEscape (out : Bytes) : Method Bytes := do
  if (← pos) ≥ (← size) then
    fail .malformedJson (bytes "unterminated escape sequence")
  else
    let c ← textAt (← pos)
    advance 1
    if c = 0x22 ∨ c = 0x5C ∨ c = 0x2F then pure (out ++ [c])
    else if c = 0x62 then pure (out ++ [0x08])
    else if c = 0x66 then pure (out ++ [0x0C])
    else if c = 0x6E then pure (out ++ [0x0A])
    else if c = 0x72 then pure (out ++ [0x0D])
    else if c = 0x74 then pure (out ++ [0x09])
    else if c = 0x75 then appendCodePoint out
    else fail .malformedJson (bytes "invalid escape: byte 0x" ++ hexByte c)

/-- The loop over the tail bytes in `validate_utf8_run`: `n` bytes from offset `i`. -/
def tailLoop : ℕ → ℕ → Method Bool
  | 0, _ => pure true
  | n + 1, i => do
    if ← isContinuation ((← pos) + i) 0x80 0xBF then tailLoop n (i + 1)
    else pure false

/-- `Reader::validate_utf8_run`, its reference argument being `pos_`. -/
def validateUtf8Run : Method Unit := do
  let lead ← textAt (← pos)
  match utf8Shape lead with
  | none => fail .malformedJson (bytes "str is not valid UTF-8")
  | some (length, secondLow, secondHigh) =>
    if (← pos) + length > (← size) then
      fail .malformedJson (bytes "str is not valid UTF-8")
    else if ¬ (← isContinuation ((← pos) + 1) secondLow secondHigh) then
      fail .malformedJson (bytes "str is not valid UTF-8")
    else if ← tailLoop (length - 2) 2 then advance length
    else fail .malformedJson (bytes "str is not valid UTF-8")

/-- One iteration of the loop of `scan_string`: what is written so far, and where the raw run
starts. -/
def stringBody (s : Bytes × ℕ) : Method (Loop.Step (Bytes × ℕ) Bytes) := do
  if (← pos) ≥ (← size) then
    fail .malformedJson (bytes "unterminated string")
  else
    let byte ← textAt (← pos)
    if byte = 0x22 then
      let raw ← slice s.2 (← pos)
      advance 1
      pure (.done (s.1 ++ raw))
    else if byte = 0x5C then
      let raw ← slice s.2 (← pos)
      advance 1
      let out ← appendEscape (s.1 ++ raw)
      let run ← pos
      pure (.more (out, run))
    else if byte < 0x20 then
      fail .malformedJson (bytes "unexpected control character in string")
    else if byte < 0x80 then
      advance 1
      pure (.more s)
    else
      validateUtf8Run
      pure (.more s)

/-! ## Tokens -/

variable (fuel : ℕ)

/-- `while (pos_ < text_.size() && p(text_[pos_])) ++pos_`. -/
def advanceWhile (p : UInt8 → Bool) : Method Unit :=
  loop (fun _ => do
    if ← sees p then
      advance 1
      pure (.more ())
    else pure (.done ())) fuel ()

/-- `skip_whitespace`. -/
def skipWhitespace : Method Unit := advanceWhile fuel isSpace

/-- `Reader::peek`: the next byte after whitespace, if there is one. -/
def peek : Method (Option UInt8) := do
  skipWhitespace fuel
  if (← pos) ≥ (← size) then pure none
  else
    let c ← textAt (← pos)
    pure (some c)

/-- `expect`. -/
def expect (c : UInt8) : Method Unit := do
  match ← peek fuel with
  | none => fail .malformedJson (bytes "expected '" ++ [c] ++ bytes "', got end of input")
  | some seen =>
    if seen ≠ c then
      fail .malformedJson (bytes "expected '" ++ [c] ++ bytes "', got byte 0x" ++ hexByte seen)
    else advance 1

/-- The integer part in `scan_number`, from the byte after the sign. -/
def scanWhole : Method Unit := do
  if ¬ (← sees isDigit) then fail .malformedJson (bytes "no digit after sign")
  else if (← textAt (← pos)) = 0x30 then
    advance 1
    if ← sees isDigit then
      fail .malformedJson (bytes "number with leading zero is not allowed")
    else pure ()
  else advanceWhile fuel isDigit

/-- One digit at least, then all that follow: the tail of a fraction or an exponent. -/
def scanDigits (message : Bytes) : Method Unit := do
  if ¬ (← sees isDigit) then fail .malformedJson message
  else advanceWhile fuel isDigit

/-- The fraction part in `scan_number`, and whether there is one. -/
def scanFraction : Method Bool := do
  if ← sees (· == 0x2E) then
    advance 1
    scanDigits fuel (bytes "no digit after decimal point")
    pure true
  else pure false

/-- The sign in an exponent part. -/
def skipSign : Method Unit := do
  if ← sees (fun c => c == 0x2B || c == 0x2D) then advance 1 else pure ()

/-- The exponent part in `scan_number`, and whether there is one. -/
def scanExponent : Method Bool := do
  if ← sees (fun c => c == 0x65 || c == 0x45) then
    advance 1
    skipSign
    scanDigits fuel (bytes "no digit after exponent")
    pure true
  else pure false

/-- The sign of a number, `c` being its first byte. -/
def skipMinus (c : UInt8) : Method Unit :=
  if c = 0x2D then advance 1 else pure ()

/-- `Reader::scan_number`: the token and `integral`. -/
def scanNumber : Method (Bytes × Bool) := do
  match ← peek fuel with
  | none => fail .wrongType (bytes "expected a number, got end of input")
  | some c =>
    if c ≠ 0x2D ∧ ¬ isDigit c then fail .wrongType (bytes "expected a number")
    else
      let start ← pos
      skipMinus c
      scanWhole fuel
      let fraction ← scanFraction fuel
      let exponent ← scanExponent fuel
      let token ← slice start (← pos)
      pure (token, !fraction && !exponent)

/-- `scan_string`, which answers what its argument holds after it. -/
def scanString : Method Bytes := do
  match ← peek fuel with
  | none => fail .wrongType (bytes "expected a string, got end of input")
  | some c =>
    if c ≠ 0x22 then fail .wrongType (bytes "expected a string")
    else
      advance 1
      let run ← pos
      loop stringBody fuel ([], run)

/-! ## Structure -/

/-- `push_level`. -/
def pushLevel : Method Unit := do
  if (← depth) = kMaxDepth then
    capped
    fail .malformedJson (bytes "nesting too deep")
  else
    raiseFirst
    incDepth

/-- The comma before every item but the first of the open level. -/
def separator : Method Unit := do
  if ← first then clearFirst
  else expect fuel 0x2C

/-- `begin_object`. -/
def beginObject : Method Unit := do
  expect fuel 0x7B
  pushLevel

/-- `Reader::next_member`: the key of the next member, or `none` at the closing brace. -/
def nextMember : Method (Option Bytes) := do
  match ← peek fuel with
  | none => fail .malformedJson (bytes "unterminated object")
  | some c =>
    if c = 0x7D then
      advance 1
      decDepth
      pure none
    else
      separator fuel
      let key ← scanString fuel
      expect fuel 0x3A
      pure (some key)

/-- `begin_array`. -/
def beginArray : Method Unit := do
  expect fuel 0x5B
  pushLevel

/-- `Reader::next_element`: whether another element follows, or false at the closing bracket. -/
def nextElement : Method Bool := do
  match ← peek fuel with
  | none => fail .malformedJson (bytes "unterminated array")
  | some c =>
    if c = 0x5D then
      advance 1
      decDepth
      pure false
    else
      separator fuel
      pure true

/-! ## Values -/

/-- `read_string`. -/
def readString : Method Bytes := scanString fuel

/-- `read_int`. -/
def readInt : Method Int64 := do
  let (token, integral) ← scanNumber fuel
  if ¬ integral then fail .wrongType (bytes "expected an integer, got " ++ token)
  else
    match fromCharsInt (-2 ^ 63) (2 ^ 63 - 1) token with
    | .outOfRange => fail .outOfRange (bytes "integer out of range: " ++ token)
    | .invalid => fail .malformedJson (bytes "malformed integer: " ++ token)
    | .value v => pure (Int64.ofInt v)

/-- `read_double`. -/
def readDouble {F : Type} [CharConv F] : Method F := do
  let (token, _) ← scanNumber fuel
  match (CharConv.fromChars token : FromChars F) with
  | .outOfRange => fail .outOfRange (bytes "number out of range: " ++ token)
  | .invalid => fail .malformedJson (bytes "malformed number: " ++ token)
  | .value v => pure v

/-- `read_bool`. -/
def readBool : Method Bool := do
  match ← peek fuel with
  | none => fail .wrongType (bytes "expected a boolean, got end of input")
  | some _ =>
    if ← startsWith (bytes "true") then
      advance 4
      pure true
    else if ← startsWith (bytes "false") then
      advance 5
      pure false
    else fail .wrongType (bytes "expected a boolean")

/-- `at_null`. -/
def atNull : Method Bool := do
  skipWhitespace fuel
  startsWith (bytes "null")

/-- `read_null`. -/
def readNull : Method Unit := do
  if ¬ (← atNull fuel) then fail .wrongType (bytes "expected null")
  else advance 4

/-- `at_document_end`. -/
def atDocumentEnd : Method Unit := do
  skipWhitespace fuel
  if (← pos) ≠ (← size) then
    fail .malformedJson (bytes "unexpected content after document")
  else pure ()

end Method

end Hotpath.Json
