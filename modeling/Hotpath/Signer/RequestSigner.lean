import Hotpath.Signer.OpenSSL

set_option relaxedAutoImplicit false
set_option autoImplicit false

/-!
# The request signer

`RequestSigner` of `src/signer.cpp`, as a program of calls to OpenSSL.

## Main definitions

* `Hotpath.RequestSigner` — the members.
* `Hotpath.RequestSigner.load`, `Hotpath.RequestSigner.sign`,
  `Hotpath.RequestSigner.signWebsocketAuth`, `Hotpath.RequestSigner.destroy` — the member functions.
-/

namespace Hotpath

open OpenSSL
open Utf8 (bytes)

/-- The pointers of a key that has been loaded. -/
structure Key where
  pkey : Ptr
  ctx : Ptr
  deriving DecidableEq, Repr

/-- The members. -/
structure RequestSigner where
  privateKeyPath : Bytes
  key : Option Key
  message : Bytes
  signature : Bytes

/-- What a function throws. -/
inductive Thrown where
  | logicError (text : Bytes)
  | runtimeError (text : Bytes)
  deriving DecidableEq, Repr

/-- A function of the signer. -/
abbrev Calling (α : Type) : Type := Program OpenSSL.Call OpenSSL.Answer α

/-- A call of OpenSSL. -/
abbrev openssl (c : OpenSSL.Call) : Calling (OpenSSL.Answer c) := Program.perform c

/-- The text for some errors, each with its `ERR_error_string_n`. -/
def errorText (errorString : ℕ → Bytes) (codes : List ℕ) : Bytes :=
  let message := codes.foldl (fun message code =>
    (if message.isEmpty then [] else message ++ bytes "; ") ++ errorString code) []
  if message.isEmpty then bytes "no OpenSSL error recorded" else message

/-- `openssl_error` -/
def opensslError (errorString : ℕ → Bytes) : Calling Bytes := do
  let codes ← openssl .errGetErrors
  return errorText errorString codes

/-- A buffer whose first bytes were written. -/
def overwrite (xs written : Bytes) : Bytes := written ++ xs.drop written.length

/-- `static_cast<int>` -/
def toInt (n : ℕ) : ℤ := (n : ℤ).bmod (2 ^ 32)

/-- `base64` -/
def base64 (errorString : ℕ → Bytes) (text : Bytes) : Calling (Except Thrown Bytes) := do
  let encoded := List.replicate (4 * ((text.length + 2) / 3) + 1) 0
  let (written, content) ← openssl (.encodeBlock encoded.length text (toInt text.length))
  if written < 0 then
    let error ← opensslError errorString
    return .error (.runtimeError (bytes "EVP_EncodeBlock: " ++ error))
  return .ok (resize (overwrite encoded content) written.toNat)

/-- The destructor of `Key`. -/
def destroyKey (pkey ctx : Option Ptr) : Calling Unit := do
  openssl (.mdCtxFree ctx)
  openssl (.pkeyFree pkey)

/-- The destructor of the pointer to a key. -/
def resetKey : Option Key → Calling Unit
  | none => return ()
  | some key => destroyKey (some key.pkey) (some key.ctx)

namespace RequestSigner

/-- The method that the handshake of the websocket signs. -/
def kWebSocketAuthMethod : Bytes := bytes "GET"

/-- The path that the handshake of the websocket signs. -/
def kWebSocketAuthPath : Bytes := bytes "/trade-api/ws/v2"

/-- The constructor. -/
def new (privateKeyPath : Bytes) : RequestSigner := ⟨privateKeyPath, none, [], []⟩

/-- The destructor. -/
def destroy (signer : RequestSigner) : Calling Unit := resetKey signer.key

variable (errorString : ℕ → Bytes)

/-- What `load` does with a private key. -/
def loadKey (signer : RequestSigner) (pkey : Ptr) : Calling (Option Bytes × RequestSigner) := do
  let isRsa ← openssl (.pkeyIsA pkey (bytes "RSA"))
  if isRsa ≠ 1 then
    openssl (.pkeyFree (some pkey))
    return (some (signer.privateKeyPath ++ bytes " does not contain an RSA private key"), signer)
  match ← openssl .mdCtxNew with
  | none =>
    let error ← opensslError errorString
    destroyKey (some pkey) none
    return (some (bytes "EVP_MD_CTX_new: " ++ error), signer)
  | some ctx =>
    resetKey signer.key
    return (none, { signer with key := some ⟨pkey, ctx⟩ })

/-- The failure is named, or nothing. -/
def load (signer : RequestSigner) : Calling (Option Bytes × RequestSigner) := do
  openssl .errClearError
  match ← openssl (.bioNewFile signer.privateKeyPath) with
  | none =>
    let error ← opensslError errorString
    return (some (bytes "cannot read " ++ signer.privateKeyPath ++ bytes ": " ++ error), signer)
  | some bio =>
    let pkey ← openssl (.pemReadBioPrivateKey bio)
    openssl (.bioFree bio)
    match pkey with
    | none =>
      let error ← opensslError errorString
      return (some (signer.privateKeyPath ++
        bytes " is not an unencrypted PEM private key: " ++ error), signer)
    | some pkey => loadKey errorString signer pkey

/-- A `throw` with the errors of OpenSSL. -/
def throwRuntimeError (text : Bytes) (signer : RequestSigner) :
    Calling (Except Thrown Bytes × RequestSigner) := do
  let error ← opensslError errorString
  return (.error (.runtimeError (text ++ error)), signer)

/-- The parameters are set one after the other, until one is refused. -/
def setParams (pctx : Option Ptr) : Calling Bool := do
  if (← openssl (.setRsaPadding pctx .pss)) ≠ 1 then return false
  if (← openssl (.setRsaPssSaltlen pctx .digest)) ≠ 1 then return false
  if (← openssl (.setRsaMgf1Md pctx sha256)) ≠ 1 then return false
  return true

/-- The signature is computed into a buffer of the size OpenSSL asks for. -/
def signSized (signer : RequestSigner) (ctx : Ptr) (message : Bytes) (length : ℕ) :
    Calling (Except Thrown Bytes × RequestSigner) := do
  let sized := resize signer.signature length
  let (signed, written) ← openssl (.digestSign ctx sized.length length message)
  let filled := overwrite sized written
  if signed ≠ 1 then
    throwRuntimeError errorString (bytes "EVP_DigestSign: ") { signer with signature := filled }
  else do
    let signature := resize filled written.length
    let encoded ← base64 errorString signature
    return (encoded, { signer with signature := signature })

/-- What `sign_message` does once the parameters are set. -/
def signDigest (signer : RequestSigner) (ctx : Ptr) (message : Bytes) :
    Calling (Except Thrown Bytes × RequestSigner) := do
  let (sized, length) ← openssl (.digestSignSize ctx message)
  if sized ≠ 1 then throwRuntimeError errorString (bytes "EVP_DigestSign sizing: ") signer
  else signSized errorString signer ctx message length

/-- `sign_message` -/
def signMessage (signer : RequestSigner) (message : Bytes) :
    Calling (Except Thrown Bytes × RequestSigner) :=
  match signer.key with
  | none =>
    return (.error (.logicError (bytes "RequestSigner::sign before a successful load()")), signer)
  | some key => do
    openssl .errClearError
    let (initialised, pctx) ← openssl (.digestSignInit key.ctx sha256 key.pkey)
    if initialised ≠ 1 then throwRuntimeError errorString (bytes "EVP_DigestSignInit: ") signer
    else if (← setParams pctx) = false then
      throwRuntimeError errorString (bytes "PSS parameters: ") signer
    else signDigest errorString signer key.ctx message

/-- The message is put together in its buffer. -/
def sign (signer : RequestSigner) (timestamp method path : Bytes) :
    Calling (Except Thrown Bytes × RequestSigner) :=
  let signer := { signer with message := timestamp ++ method ++ path }
  signMessage errorString signer signer.message

@[inherit_doc sign]
def signWebsocketAuth (signer : RequestSigner) (timestamp : Bytes) :
    Calling (Except Thrown Bytes × RequestSigner) :=
  signer.sign errorString timestamp kWebSocketAuthMethod kWebSocketAuthPath

end RequestSigner

end Hotpath
