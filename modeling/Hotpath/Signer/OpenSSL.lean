import Hotpath.Lib.Base64
import Hotpath.Lib.Handles
import Hotpath.Lib.Program
import Hotpath.Protocol.Message

set_option relaxedAutoImplicit false
set_option autoImplicit false

/-!
# What the signer calls

The functions of OpenSSL that `src/signer.cpp` calls, as it relies on them: the objects they make,
with the pointers to them, and the queue of errors. A call may fail whenever its documentation says
that it can, and leaves nothing settled about what it failed to set.

## Main definitions

* `Hotpath.OpenSSL` — the objects and the error queue.
* `Hotpath.OpenSSL.Call`, `Hotpath.OpenSSL.Step` — the calls and what each may answer.
* `Hotpath.OpenSSL.Allowed` — the objects a call must be given.
-/

namespace Hotpath

namespace OpenSSL

/-- A pointer that is not null. -/
abbrev Ptr : Type := ℕ

/-- A digest, by its name. -/
abbrev Digest : Type := Bytes

/-- `EVP_sha256` -/
def sha256 : Digest := Utf8.bytes "SHA256"

/-- The paddings of an RSA signature. -/
inductive RsaPadding where
  | pkcs1
  | pss
  deriving DecidableEq, Repr

/-- The length of the salt under PSS: as wide as the modulus allows, or as the digest. -/
inductive PssSaltlen where
  | widest
  | digest
  deriving DecidableEq, Repr

/-- The parameters of a signature. -/
structure SignParams where
  digest : Digest
  padding : RsaPadding
  pssSaltlen : PssSaltlen
  mgf1Md : Digest
  deriving DecidableEq, Repr

/-- What holds before any parameter but the digest is set. -/
def SignParams.default (digest : Digest) : SignParams := ⟨digest, .pkcs1, .widest, digest⟩

/-- What OpenSSL can do with private keys from `K`: tell their type, sign a message with them, where
one message has many signatures, and bound the length of a signature, which is an `int` there. -/
class PrivateKey (K : Type) where
  isA : K → Bytes → Bool
  signs : K → SignParams → Bytes → Bytes → Prop
  size : K → ℕ
  size_lt : ∀ k, size k < 2 ^ 31

variable {K : Type}

/-- The objects: a file that is open, a private key, and a digest context, which may have been
initialised to sign with a key. -/
inductive Object (K : Type) where
  | bio (path : Bytes)
  | pkey (key : K)
  | mdCtx (signing : Option (K × SignParams))

/-- The objects there are, the errors in the queue and all errors there were, of which these are the
last, and the files that are unencrypted PEM private keys, which no call changes. -/
structure State (K : Type) where
  objects : Handles Ptr (Object K)
  errors : List ℕ
  raised : List ℕ
  queued : errors <:+ raised
  files : Bytes → Option K

/-- The queue is empty. -/
def State.cleared (s : State K) : State K := { s with errors := [], queued := List.nil_suffix }

/-- The calls. `errGetErrors` is all calls of `ERR_get_error` until it returns 0. The buffers of
`digestSign` and of `encodeBlock` are given by their sizes, and `digestSignSize` is `EVP_DigestSign`
without a buffer. -/
inductive Call where
  | errClearError
  | errGetErrors
  | bioNewFile (path : Bytes)
  | pemReadBioPrivateKey (bio : Ptr)
  | bioFree (bio : Ptr)
  | pkeyIsA (pkey : Ptr) (name : Bytes)
  | pkeyFree (pkey : Option Ptr)
  | mdCtxNew
  | mdCtxFree (ctx : Option Ptr)
  | digestSignInit (ctx : Ptr) (digest : Digest) (pkey : Ptr)
  | setRsaPadding (pctx : Option Ptr) (padding : RsaPadding)
  | setRsaPssSaltlen (pctx : Option Ptr) (saltlen : PssSaltlen)
  | setRsaMgf1Md (pctx : Option Ptr) (digest : Digest)
  | digestSignSize (ctx : Ptr) (message : Bytes)
  | digestSign (ctx : Ptr) (buffer siglen : ℕ) (message : Bytes)
  | encodeBlock (buffer : ℕ) (bytes : Bytes) (n : ℤ)

/-- The answers: pointers, which may be null, return codes, and what was written besides. -/
abbrev Answer : Call → Type
  | .errClearError | .bioFree _ | .pkeyFree _ | .mdCtxFree _ => Unit
  | .errGetErrors => List ℕ
  | .bioNewFile _ | .pemReadBioPrivateKey _ | .mdCtxNew => Option Ptr
  | .pkeyIsA _ _ | .setRsaPadding _ _ | .setRsaPssSaltlen _ _ | .setRsaMgf1Md _ _ => ℤ
  | .digestSignInit _ _ _ => ℤ × Option Ptr
  | .digestSignSize _ _ => ℤ × ℕ
  | .digestSign _ _ _ _ => ℤ × Bytes
  | .encodeBlock _ _ _ => ℤ × Bytes

/-- The objects there are now, after a call that may have added errors to the queue. When the queue
is full, the oldest go. -/
def Leaves (s : State K) (objects : Handles Ptr (Object K)) (s' : State K) : Prop :=
  s'.objects = objects ∧ s'.files = s.files ∧
    ∃ new, s'.raised = s.raised ++ new ∧ s'.errors <:+ s.errors ++ new

/-- A call that makes an object, or returns a null pointer. -/
def Makes (s : State K) (o : Object K) : Option Ptr → State K → Prop
  | none, s' => Leaves s s.objects s'
  | some p, s' => s.objects p = none ∧ Leaves s (Function.update s.objects p (some o)) s'

/-- A call that frees an object, if its pointer is not null. -/
def Frees (s : State K) : Option Ptr → State K → Prop
  | none, s' => Leaves s s.objects s'
  | some p, s' => Leaves s (Function.update s.objects p none) s'

/-- A digest context is there, and signs with a key. -/
def State.Signing (s : State K) (ctx : Ptr) (key : K) (params : SignParams) : Prop :=
  s.objects ctx = some (.mdCtx (some (key, params)))

/-- A call that sets a parameter and returns 1, or leaves the parameters unsettled. -/
def Sets (s : State K) (pctx : Option Ptr) (set : SignParams → SignParams) (r : ℤ) (s' : State K) :
    Prop :=
  ∃ ctx key params params', pctx = some ctx ∧ s.Signing ctx key params ∧
    Leaves s (Function.update s.objects ctx (some (.mdCtx (some (key, params'))))) s' ∧
    (r = 1 → params' = set params)

variable [PrivateKey K]

/-- What a call may answer. The handle `EVP_DigestSignInit` gives out is to a part of the digest
context, which the context frees. -/
def Step (s : State K) : (c : Call) → Answer c → State K → Prop
  | .errClearError, _, s' => s' = s.cleared
  | .errGetErrors, codes, s' => codes = s.errors ∧ s' = s.cleared
  | .bioNewFile path, bio, s' => Makes s (.bio path) bio s'
  | .pemReadBioPrivateKey bio, pkey, s' => ∃ path key, s.objects bio = some (.bio path) ∧
      Makes s (.pkey key) pkey s' ∧ (pkey.isSome → s.files path = some key)
  | .bioFree bio, _, s' => Frees s (some bio) s'
  | .pkeyIsA pkey name, r, s' => Leaves s s.objects s' ∧
      ∃ key, s.objects pkey = some (.pkey key) ∧ (r = 1 ↔ PrivateKey.isA key name = true)
  | .pkeyFree pkey, _, s' => Frees s pkey s'
  | .mdCtxNew, ctx, s' => Makes s (.mdCtx none) ctx s'
  | .mdCtxFree ctx, _, s' => Frees s ctx s'
  | .digestSignInit ctx digest pkey, (r, pctx), s' => ∃ signing,
      Leaves s (Function.update s.objects ctx (some (.mdCtx signing))) s' ∧
      (r = 1 → pctx = some ctx ∧ ∃ key, s.objects pkey = some (.pkey key) ∧
        signing = some (key, .default digest))
  | .setRsaPadding pctx padding, r, s' => Sets s pctx (fun p => { p with padding := padding }) r s'
  | .setRsaPssSaltlen pctx saltlen, r, s' =>
      Sets s pctx (fun p => { p with pssSaltlen := saltlen }) r s'
  | .setRsaMgf1Md pctx digest, r, s' => Sets s pctx (fun p => { p with mgf1Md := digest }) r s'
  | .digestSignSize ctx _, (r, length), s' => Leaves s s.objects s' ∧
      ∃ key params, s.Signing ctx key params ∧ (r = 1 → length = PrivateKey.size key)
  | .digestSign ctx _ siglen message, (r, written), s' => ∃ key params signing,
      s.Signing ctx key params ∧ written.length ≤ siglen ∧
      Leaves s (Function.update s.objects ctx (some (.mdCtx signing))) s' ∧
      (r = 1 → PrivateKey.signs key params message written)
  | .encodeBlock _ bytes _, (r, written), s' => Leaves s s.objects s' ∧
      r = (Base64.encode bytes).length ∧ written = Base64.encode bytes ++ [0]

/-- What a call must be given: pointers to live objects of the right kinds, a context that has been
initialised where it is to sign, and buffers that are as large as what is written to them. -/
def Allowed (s : State K) : Call → Prop
  | .pemReadBioPrivateKey bio | .bioFree bio => ∃ path, s.objects bio = some (.bio path)
  | .pkeyIsA pkey _ => ∃ key, s.objects pkey = some (.pkey key)
  | .pkeyFree pkey => ∀ p ∈ pkey, ∃ key, s.objects p = some (.pkey key)
  | .mdCtxFree ctx => ∀ p ∈ ctx, ∃ signing, s.objects p = some (.mdCtx signing)
  | .digestSignInit ctx _ pkey => (∃ signing, s.objects ctx = some (.mdCtx signing)) ∧
      ∃ key, s.objects pkey = some (.pkey key)
  | .setRsaPadding pctx _ | .setRsaPssSaltlen pctx _ | .setRsaMgf1Md pctx _ =>
      ∃ ctx ∈ pctx, ∃ key params, s.Signing ctx key params
  | .digestSignSize ctx _ => ∃ key params, s.Signing ctx key params
  | .digestSign ctx buffer siglen _ => (∃ key params, s.Signing ctx key params) ∧ siglen ≤ buffer
  | .encodeBlock buffer bytes n => n = bytes.length ∧ (Base64.encode bytes).length + 1 ≤ buffer
  | .errClearError | .errGetErrors | .bioNewFile _ | .mdCtxNew => True

/-! ## What every call does -/

/-- A call empties the queue, or adds errors and changes objects. -/
lemma Step.cases {s s' : State K} {c : Call} {r : Answer c} (h : Step s c r s') :
    s' = s.cleared ∨ ∃ objects, Leaves s objects s' := by
  have hmakes : ∀ {o : Object K} {p : Option Ptr},
      Makes s o p s' → ∃ objects, Leaves s objects s' := by
    intro o p hm
    cases p with
    | none => exact ⟨_, hm⟩
    | some p => exact ⟨_, hm.2⟩
  have hfrees : ∀ p : Option Ptr, Frees s p s' → ∃ objects, Leaves s objects s' := by
    intro p hf
    cases p with
    | none => exact ⟨_, hf⟩
    | some p => exact ⟨_, hf⟩
  have hsets : ∀ {p : Option Ptr} {set : SignParams → SignParams} {r : ℤ},
      Sets s p set r s' → ∃ objects, Leaves s objects s' := by
    rintro p set r ⟨_, _, _, _, _, _, hl, _⟩
    exact ⟨_, hl⟩
  cases c with
  | errClearError => exact .inl h
  | errGetErrors => exact .inl h.2
  | bioNewFile path => exact .inr (hmakes h)
  | pemReadBioPrivateKey bio =>
    obtain ⟨_, _, _, hm, _⟩ := h
    exact .inr (hmakes hm)
  | bioFree bio => exact .inr (hfrees (some bio) h)
  | pkeyIsA pkey name => exact .inr ⟨_, h.1⟩
  | pkeyFree pkey => exact .inr (hfrees pkey h)
  | mdCtxNew => exact .inr (hmakes h)
  | mdCtxFree ctx => exact .inr (hfrees ctx h)
  | digestSignInit ctx digest pkey =>
    obtain ⟨_, hl, _⟩ := h
    exact .inr ⟨_, hl⟩
  | setRsaPadding pctx padding => exact .inr (hsets h)
  | setRsaPssSaltlen pctx saltlen => exact .inr (hsets h)
  | setRsaMgf1Md pctx digest => exact .inr (hsets h)
  | digestSignSize ctx message => exact .inr ⟨_, h.1⟩
  | digestSign ctx buffer siglen message =>
    obtain ⟨_, _, _, _, _, hl, _⟩ := h
    exact .inr ⟨_, hl⟩
  | encodeBlock buffer bytes n => exact .inr ⟨_, h.1⟩

/-- No call changes the files. -/
lemma Step.files {s s' : State K} {c : Call} {r : Answer c} (h : Step s c r s') :
    s'.files = s.files := by
  obtain rfl | ⟨objects, hl⟩ := h.cases
  · rfl
  · exact hl.2.1

end OpenSSL

end Hotpath
