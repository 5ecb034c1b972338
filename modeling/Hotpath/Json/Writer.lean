import Hotpath.Protocol.Message

set_option relaxedAutoImplicit false
set_option autoImplicit false

/-!
# The JSON writer

`format_double` and the `append` family of `src/json.cpp`. A buffer is a byte list, and
appending to it returns the longer list.

## Main definitions

* `Hotpath.Json.formatDouble` — orjson's rendering of a double.
* `Hotpath.Json.appendString`, `appendInt`, `appendDouble` — one value appended to a buffer.
-/

namespace Hotpath.Json

open JsonText (isDigit FromChars fromCharsInt decimal intText)
open Utf8 (bytes)

/-- `kFixedNotationMinExponent`. -/
def kFixedNotationMinExponent : ℤ := -5

/-- `kFixedNotationMaxExponent`. -/
def kFixedNotationMaxExponent : ℤ := 16

/-- `kDoubleBufferSize`. -/
def kDoubleBufferSize : ℕ := 32

/-! ## Doubles -/

/-- The sign, the digits and the exponent that `format_double` takes out of the scientific
text: the digits are what precedes the `e`, less the point. -/
def splitScientific (text : Bytes) : Bool × Bytes × ℤ :=
  let negative := text.head? == some 0x2D
  let body := if negative then text.tail else text
  let mantissa := body.takeWhile (· != 0x65)
  let digits := mantissa.filter (· != 0x2E)
  let rest := body.drop (mantissa.length + 1)
  let exponentText := if rest.head? == some 0x2B then rest.tail else rest
  match fromCharsInt (-2 ^ 31) (2 ^ 31 - 1) exponentText with
  | .value exponent => (negative, digits, exponent)
  | _ => (negative, digits, 0)

/-- Fixed notation with `exponent + 1` digits before the point. -/
def layoutWhole (digits : Bytes) (exponent : ℕ) : Bytes :=
  let whole := exponent + 1
  digits.take whole ++ List.replicate (whole - digits.length) 0x30 ++ [0x2E] ++
    (if digits.length > whole then digits.drop whole else [0x30])

/-- Fixed notation below one, with `zeros` zeros after the point. -/
def layoutSmall (digits : Bytes) (zeros : ℕ) : Bytes :=
  [0x30, 0x2E] ++ List.replicate zeros 0x30 ++ digits

/-- Scientific notation, the exponent signed and unpadded. -/
def layoutScientific (digits : Bytes) (exponent : ℤ) : Bytes :=
  digits.take 1 ++ (if digits.length > 1 then 0x2E :: digits.drop 1 else []) ++
    [0x65, if exponent ≥ 0 then 0x2B else 0x2D] ++ decimal exponent.natAbs

/-- The layout part of `format_double`. -/
def layout (negative : Bool) (digits : Bytes) (exponent : ℤ) : Bytes :=
  (if negative then [0x2D] else []) ++
    if kFixedNotationMinExponent ≤ exponent ∧ exponent < kFixedNotationMaxExponent then
      if exponent ≥ 0 then layoutWhole digits exponent.toNat
      else layoutSmall digits (-exponent - 1).toNat
    else layoutScientific digits exponent

/-- `format_double`: null for what is not finite, else the shortest digits in their layout. -/
def formatDouble {F : Type} [CharConv F] (value : F) : Bytes :=
  if ¬ CharConv.isFinite value then bytes "null"
  else
    let (negative, digits, exponent) := splitScientific (CharConv.toChars value)
    layout negative digits exponent

/-! ## Strings -/

/-- An entry of `kHexDigits`. -/
def hexDigitChar (i : ℕ) : UInt8 := (bytes "0123456789abcdef").getD i 0

/-- The switch of `append_string`: the text of one byte. -/
def escapeByte (byte : UInt8) : Bytes :=
  if byte = 0x22 then [0x5C, 0x22]
  else if byte = 0x5C then [0x5C, 0x5C]
  else if byte = 0x08 then [0x5C, 0x62]
  else if byte = 0x0C then [0x5C, 0x66]
  else if byte = 0x0A then [0x5C, 0x6E]
  else if byte = 0x0D then [0x5C, 0x72]
  else if byte = 0x09 then [0x5C, 0x74]
  else if byte < 0x20 then
    [0x5C, 0x75, 0x30, 0x30, hexDigitChar (byte.toNat >>> 4), hexDigitChar (byte.toNat &&& 0x0F)]
  else [byte]

/-- `append`. -/
def append (out text : Bytes) : Bytes := out ++ text

/-- `append_string`, which copies what needs no escape. -/
def appendString (out text : Bytes) : Bytes :=
  out ++ [0x22] ++ text.flatMap escapeByte ++ [0x22]

/-- `append_int`. -/
def appendInt (out : Bytes) (value : Int64) : Bytes := append out (intText value.toInt)

/-- `append_double`. -/
def appendDouble {F : Type} [CharConv F] (out : Bytes) (value : F) : Bytes :=
  append out (formatDouble value)

end Hotpath.Json
