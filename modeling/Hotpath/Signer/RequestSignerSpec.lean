import Hotpath.Lib.System
import Hotpath.Signer.RequestSigner

set_option relaxedAutoImplicit false
set_option autoImplicit false

/-!
# What the request signer keeps

The signer owns the objects of its key and nothing else between two calls, whatever OpenSSL
answers, and a signature it returns is one under the key of the last load that succeeded.

## Main definitions

* `Hotpath.RequestSigner.At` — what is owned at some point of a call, and the errors since it began.
* `Hotpath.RequestSigner.Holding` — the objects of a key.

## Main results

* `Hotpath.RequestSigner.safe_load`, `Hotpath.RequestSigner.safe_signMessage`,
  `Hotpath.RequestSigner.safe_destroy` — the specifications.
-/

namespace Hotpath

open OpenSSL
open Utf8 (bytes)

namespace RequestSigner

variable {K : Type} {base : Handles Ptr (Object K)} {raised : List ℕ} {files : Bytes → Option K}
  {hs hs' rest : List (Ptr × Object K)} {s s' : OpenSSL.State K}

/-- The resources owned at some point of a call, the errors raised since it began, the last of which
are in the queue, and the files. -/
structure At (base : Handles Ptr (Object K)) (raised : List ℕ) (files : Bytes → Option K)
    (hs : List (Ptr × Object K)) (s : OpenSSL.State K) : Prop where
  owns : Handles.Owns base s.objects hs
  recent : ∃ new, s.raised = raised ++ new ∧ s.errors <:+ new
  files : s.files = files

/-- What stands before the errors in the texts of a load that fails. -/
def loadTitles (path : Bytes) : List Bytes :=
  [bytes "cannot read " ++ path ++ bytes ": ",
    path ++ bytes " is not an unencrypted PEM private key: ", bytes "EVP_MD_CTX_new: "]

/-- What stands before the errors in the texts of a signature that fails. -/
def signTitles : List Bytes :=
  [bytes "EVP_DigestSignInit: ", bytes "PSS parameters: ", bytes "EVP_DigestSign sizing: ",
    bytes "EVP_DigestSign: "]

/-- A text is a title and, after it, some of the errors that were raised since a call began, in
their order, and tells no other error. -/
def Tells (errorString : ℕ → Bytes) (titles : List Bytes) (raised : List ℕ) (text : Bytes)
    (s : OpenSSL.State K) : Prop :=
  ∃ new codes, ∃ title ∈ titles, s.raised = raised ++ new ∧ codes <:+: new ∧
    text = title ++ errorText errorString codes

/-- A call begins: what is in the queue is forgotten. -/
lemma At.clear (hown : Handles.Owns base s.objects hs) :
    At base s.raised s.files hs s.cleared :=
  ⟨hown, ⟨[], (List.append_nil _).symm, List.suffix_rfl⟩, rfl⟩

/-- Any state is at some point. -/
lemma At.of_owns (hown : Handles.Owns base s.objects hs) : At base [] s.files hs s :=
  ⟨hown, ⟨s.raised, rfl, s.queued⟩, rfl⟩

/-- The order does not matter. -/
lemma At.perm (hat : At base raised files hs s) (hp : hs.Perm hs') : At base raised files hs' s :=
  ⟨hat.owns.perm hp, hat.recent, hat.files⟩

/-- A call changes what is owned and adds errors. -/
lemma At.leaves (hat : At base raised files hs s) {objects : Handles Ptr (Object K)}
    (hl : Leaves s objects s') (hown : Handles.Owns base objects hs') :
    At base raised files hs' s' := by
  obtain ⟨hobjects, hfiles, added, hraised, herrors⟩ := hl
  obtain ⟨new, hnew, hqueue⟩ := hat.recent
  obtain ⟨before, rfl⟩ := hqueue
  refine ⟨by rwa [hobjects], ⟨before ++ s.errors ++ added, ?_, ?_⟩, hfiles.trans hat.files⟩
  · rw [hraised, hnew, List.append_assoc raised]
  · rw [List.append_assoc]
    exact herrors.trans (List.suffix_append before _)

/-- A call that makes an object. -/
lemma At.makes (hat : At base raised files hs s) {o : Object K} {p : Option Ptr}
    (hm : Makes s o p s') :
    At base raised files ((p.map fun p => (p, o)).toList ++ hs) s' := by
  cases p with
  | none => exact hat.leaves hm hat.owns
  | some p => exact hat.leaves hm.2 (hat.owns.alloc hm.1 o)

/-- A call that frees an object, if there is one. -/
lemma At.frees {p : Option Ptr} {o : Object K}
    (hat : At base raised files ((p.map fun p => (p, o)).toList ++ hs) s) (hf : Frees s p s') :
    At base raised files hs s' := by
  cases p with
  | none => exact hat.leaves hf hat.owns
  | some p => exact hat.leaves hf hat.owns.free

/-- What a text tells stays told. -/
lemma Tells.leaves {errorString : ℕ → Bytes} {titles : List Bytes} {text : Bytes}
    (ht : Tells errorString titles raised text s) {objects : Handles Ptr (Object K)}
    (hl : Leaves s objects s') : Tells errorString titles raised text s' := by
  obtain ⟨new, codes, title, htitle, hnew, hcodes, htext⟩ := ht
  obtain ⟨-, -, added, hraised, -⟩ := hl
  exact ⟨new ++ added, codes, title, htitle, by rw [hraised, hnew, List.append_assoc],
    hcodes.trans (List.prefix_append new added).isInfix, htext⟩

/-- An object that is there, if there is one. -/
lemma At.live {p : Option Ptr} {o : Object K}
    (hat : At base raised files ((p.map fun p => (p, o)).toList ++ hs) s) :
    ∀ q ∈ p, s.objects q = some o := by
  intro q hq
  obtain rfl := Option.mem_def.mp hq
  exact hat.owns.head

/-- A call that frees an object leaves errors at most. -/
lemma Tells.frees {errorString : ℕ → Bytes} {titles : List Bytes} {text : Bytes} {p : Option Ptr}
    (ht : Tells errorString titles raised text s) (hf : Frees s p s') :
    Tells errorString titles raised text s' := by
  cases p with
  | none => exact ht.leaves hf
  | some p => exact ht.leaves hf

/-- What is known of a context that is owned. -/
lemma At.signing_eq {ctx : Ptr} {k k' : K} {params params' : SignParams}
    (hat : At base raised files ((ctx, .mdCtx (some (k, params))) :: hs) s)
    (h : s.Signing ctx k' params') : k = k' ∧ params = params' := by
  have heq := hat.owns.head.symm.trans h
  simpa using heq

/-- A parameter is set, or left unsettled. -/
lemma At.sets {ctx : Ptr} {k : K} {params : SignParams}
    (hat : At base raised files ((ctx, .mdCtx (some (k, params))) :: hs) s)
    {set : SignParams → SignParams} {r : ℤ} (h : Sets s (some ctx) set r s') :
    ∃ params', At base raised files ((ctx, .mdCtx (some (k, params'))) :: hs) s' ∧
      (r = 1 → params' = set params) := by
  obtain ⟨ctx', k', p, params', hctx, hp, hl, hset⟩ := h
  obtain rfl := Option.some.inj hctx
  obtain ⟨rfl, rfl⟩ := hat.signing_eq hp
  exact ⟨params', hat.leaves hl (hat.owns.set _), hset⟩

variable [PrivateKey K] {errorString : ℕ → Bytes}

/-- A program makes allowed calls only, and then comes to a state with a property. -/
abbrev Safe {α : Type} (Q : α → OpenSSL.State K → Prop) (p : Calling α) (s : OpenSSL.State K) :
    Prop :=
  Program.Within OpenSSL.Step Allowed Q p s

/-- The errors are told, and the queue is empty. -/
lemma safe_opensslError (hat : At base raised files hs s) {titles : List Bytes} {title : Bytes}
    (htitle : title ∈ titles) :
    Safe (fun error s' => At base raised files hs s' ∧
      Tells errorString titles raised (title ++ error) s') (opensslError errorString) s := by
  refine Program.within_perform_bind.mpr ⟨trivial, ?_⟩
  rintro codes s' ⟨rfl, rfl⟩
  obtain ⟨new, hnew, hqueue⟩ := hat.recent
  exact ⟨⟨hat.owns, ⟨new, hnew, List.nil_suffix⟩, hat.files⟩,
    new, s.errors, title, htitle, hnew, hqueue.isInfix, rfl⟩

/-! ## Keys -/

/-- The objects of a key are freed, those that there are. -/
lemma safe_destroyKey (pkey ctx : Option Ptr) {key : K} (signing : Option (K × SignParams))
    (hat : At base raised files ((ctx.map fun p => (p, .mdCtx signing)).toList ++
      ((pkey.map fun p => (p, .pkey key)).toList ++ hs)) s) :
    Safe (fun _ s' => At base raised files hs s' ∧
      ∀ errorString titles text, Tells errorString titles raised text s →
        Tells errorString titles raised text s')
      (destroyKey pkey ctx) s := by
  refine Program.within_perform_bind.mpr ⟨fun p hp => ⟨signing, hat.live p hp⟩, ?_⟩
  intro _ s₁ hctx
  have hat₁ := hat.frees hctx
  refine ⟨fun p hp => ⟨key, hat₁.live p hp⟩, fun _ s₂ hpkey => ?_⟩
  exact ⟨hat₁.frees hpkey, fun _ _ _ ht => (ht.frees hctx).frees hpkey⟩

/-- The objects of a key that has been loaded, and those of none. -/
inductive Holding : Option Key → Option K → List (Ptr × Object K) → Prop
  | none : Holding none none []
  | some {key : Key} {k : K} {signing : Option (K × SignParams)} :
      Holding (some key) (some k) [(key.ctx, .mdCtx signing), (key.pkey, .pkey k)]

/-- A key goes with its objects. -/
lemma safe_resetKey {key : Option Key} {k : Option K} (hh : Holding key k hs)
    (hat : At base raised files (hs ++ rest) s) :
    Safe (fun _ s' => At base raised files rest s') (resetKey key) s := by
  cases hh with
  | none => exact hat
  | @some key k signing =>
    exact (safe_destroyKey (some key.pkey) (some key.ctx) signing hat).imp fun _ _ h => h.1

/-! ## Loading -/

/-- What holds after `load`, which began where `k` was the private key: the key of the file is, or
the failure is named. -/
def Loaded (errorString : ℕ → Bytes) (base : Handles Ptr (Object K)) (raised : List ℕ)
    (files : Bytes → Option K) (signer : RequestSigner) (k : Option K)
    (r : Option Bytes × RequestSigner) (s : OpenSSL.State K) : Prop :=
  r.2.privateKeyPath = signer.privateKeyPath ∧ ∃ k' hs, Holding r.2.key k' hs ∧
    Handles.Owns base s.objects hs ∧
    match r.1 with
    | none => k' = files signer.privateKeyPath ∧ ∃ key ∈ k', PrivateKey.isA key (bytes "RSA") = true
    | some text => r.2 = signer ∧ k' = k ∧
        (text = signer.privateKeyPath ++ bytes " does not contain an RSA private key" ∨
          Tells errorString (loadTitles signer.privateKeyPath) raised text s)

/-- A private key is taken over or freed. -/
lemma safe_loadKey {signer : RequestSigner} {k : Option K} {key : K} {pkey : Ptr}
    (hh : Holding signer.key k hs) (hfile : files signer.privateKeyPath = some key)
    (hat : At base raised files ((pkey, .pkey key) :: hs) s) :
    Safe (Loaded errorString base raised files signer k) (loadKey errorString signer pkey) s := by
  refine Program.within_perform_bind.mpr ⟨⟨key, hat.owns.head⟩, ?_⟩
  rintro isRsa s₁ ⟨hl, key', hkey', hisa⟩
  obtain rfl : key = key' := by
    have heq := hat.owns.head.symm.trans hkey'
    injection heq with heq
    injection heq
  have hat₁ := hat.leaves hl hat.owns
  by_cases hrsa : isRsa = 1
  · rw [if_neg (not_not.mpr hrsa)]
    refine Program.within_perform_bind.mpr ⟨trivial, ?_⟩
    intro ctx s₂ hm
    have hat₂ := hat₁.makes hm
    cases ctx with
    | none =>
      have htitle : bytes "EVP_MD_CTX_new: " ∈ loadTitles signer.privateKeyPath := by
        simp [loadTitles]
      refine Program.within_bind.mpr ((safe_opensslError hat₂ htitle).imp ?_)
      rintro error s₃ ⟨hat₃, htells⟩
      have hkey : At base raised files ([(pkey, .pkey key)] ++ hs) s₃ := hat₃
      refine Program.within_bind.mpr
        ((safe_destroyKey (some pkey) none none hkey).imp ?_)
      rintro _ s₄ ⟨hat₄, hkept⟩
      exact ⟨rfl, k, hs, hh, hat₄.owns, rfl, rfl, .inr (hkept _ _ _ htells)⟩
    | some ctx =>
      have hold : At base raised files (hs ++ [(ctx, .mdCtx none), (pkey, .pkey key)]) s₂ :=
        hat₂.perm (@List.perm_append_comm _ [_, _] hs)
      refine Program.within_bind.mpr ((safe_resetKey hh hold).imp fun _ s₃ hat₃ => ?_)
      exact ⟨rfl, some key, _, .some, hat₃.owns, hfile.symm, key, rfl, hisa.mp hrsa⟩
  · rw [if_pos hrsa]
    have hlive := At.live (p := some pkey) (o := .pkey key) hat₁
    refine Program.within_perform_bind.mpr ⟨fun p hp => ⟨key, hlive p hp⟩, ?_⟩
    intro _ s₂ hf
    exact ⟨rfl, k, hs, hh, (hat₁.frees (p := some pkey) hf).owns, rfl, rfl, .inl rfl⟩

/-- **The specification of `load`.** -/
theorem safe_load {signer : RequestSigner} {k : Option K} (hh : Holding signer.key k hs)
    (hown : Handles.Owns base s.objects hs) :
    Safe (Loaded errorString base s.raised s.files signer k) (load errorString signer) s := by
  refine Program.within_perform_bind.mpr ⟨trivial, ?_⟩
  rintro _ s₁ rfl
  have hat₁ := At.clear hown
  refine Program.within_perform_bind.mpr ⟨trivial, ?_⟩
  intro bio s₂ hm
  have hat₂ := hat₁.makes hm
  cases bio with
  | none =>
    have htitle : bytes "cannot read " ++ signer.privateKeyPath ++ bytes ": " ∈
        loadTitles signer.privateKeyPath := by
      simp [loadTitles]
    refine Program.within_bind.mpr ((safe_opensslError hat₂ htitle).imp ?_)
    rintro error s₃ ⟨hat₃, htells⟩
    exact ⟨rfl, k, hs, hh, hat₃.owns, rfl, rfl, .inr htells⟩
  | some bio =>
    refine Program.within_perform_bind.mpr ⟨⟨_, hat₂.owns.head⟩, ?_⟩
    rintro pkey s₃ ⟨path, key, hpath, hpkey, hfile⟩
    obtain rfl : signer.privateKeyPath = path := by
      have heq := hat₂.owns.head.symm.trans hpath
      injection heq with heq
      injection heq
    have hat₃ := (hat₂.makes hpkey).perm List.perm_middle
    refine Program.within_perform_bind.mpr ⟨⟨_, hat₃.owns.head⟩, ?_⟩
    intro _ s₄ hf
    have hat₄ := hat₃.frees (p := some bio) hf
    cases pkey with
    | none =>
      have htitle : signer.privateKeyPath ++ bytes " is not an unencrypted PEM private key: " ∈
          loadTitles signer.privateKeyPath := by
        simp [loadTitles]
      refine Program.within_bind.mpr ((safe_opensslError hat₄ htitle).imp ?_)
      rintro error s₅ ⟨hat₅, htells⟩
      exact ⟨rfl, k, hs, hh, hat₅.owns, rfl, rfl, .inr htells⟩
    | some pkey =>
      have hkey : s.files signer.privateKeyPath = some key := hat₂.files ▸ hfile rfl
      exact safe_loadKey hh hkey hat₄

/-! ## Signing -/

/-- PSS with SHA-256 for the message and the mask, and a salt as long as the digest. -/
def pssParams : SignParams := ⟨sha256, .pss, .digest, sha256⟩

/-- What holds after a message was to be signed where `k` is the private key: the text is a
signature under it, or there is no key, or errors are told. -/
def Signed (errorString : ℕ → Bytes) (base : Handles Ptr (Object K)) (raised : List ℕ)
    (signer : RequestSigner) (k : Option K) (message : Bytes)
    (r : Except Thrown Bytes × RequestSigner) (s : OpenSSL.State K) : Prop :=
  r.2.privateKeyPath = signer.privateKeyPath ∧ r.2.key = signer.key ∧
    (∃ hs, Holding r.2.key k hs ∧ Handles.Owns base s.objects hs) ∧
    match r.1 with
    | .ok text => ∃ key ∈ k, ∃ signature, text = Base64.encode signature ∧
        PrivateKey.signs key pssParams message signature
    | .error (.logicError _) => k = none
    | .error (.runtimeError text) => k ≠ none ∧ Tells errorString signTitles raised text s

/-- A length that fits an `int`. -/
lemma toInt_of_lt {n : ℕ} (hn : n < 2 ^ 31) : toInt n = n := by
  have hneg : -(((2 ^ 32 : ℕ) : ℤ) / 2) ≤ n := by omega
  have hhalf : (n : ℤ) < ((2 ^ 32 : ℕ) + 1) / 2 := by norm_num; omega
  exact Int.bmod_eq_of_le hneg hhalf

/-- The text of some bytes fits the buffer, and is what is returned. -/
lemma safe_base64 (hat : At base raised files hs s) {text : Bytes} (ht : text.length < 2 ^ 31) :
    Safe (fun r s' => r = .ok (Base64.encode text) ∧ At base raised files hs s')
      (base64 errorString text) s := by
  refine Program.within_perform_bind.mpr ⟨⟨toInt_of_lt ht, ?_⟩, ?_⟩
  · simp [Base64.length_encode]
  · rintro ⟨written, content⟩ s₁ ⟨hl, rfl, rfl⟩
    have hcount : ¬ ((Base64.encode text).length : ℤ) < 0 := by omega
    dsimp only
    rw [if_neg hcount]
    refine ⟨?_, hat.leaves hl hat.owns⟩
    simp [resize, overwrite]

section Signing

variable {ctx : Ptr} {k : K} {params : SignParams} {signer : RequestSigner}

/-- All the parameters are set, or one is refused. -/
lemma safe_setParams
    (hat : At base raised files ((ctx, .mdCtx (some (k, .default sha256))) :: hs) s) :
    Safe (fun done s' => ∃ params',
      At base raised files ((ctx, .mdCtx (some (k, params'))) :: hs) s' ∧
        (done = true → params' = pssParams)) (setParams (some ctx)) s := by
  refine Program.within_perform_bind.mpr ⟨⟨ctx, rfl, _, _, hat.owns.head⟩, ?_⟩
  intro r₁ s₁ h₁
  obtain ⟨p₁, hat₁, hp₁⟩ := hat.sets h₁
  by_cases hr₁ : r₁ ≠ 1
  · rw [if_pos hr₁]
    exact ⟨p₁, hat₁, by simp⟩
  rw [if_neg hr₁]
  refine Program.within_perform_bind.mpr ⟨⟨ctx, rfl, _, _, hat₁.owns.head⟩, ?_⟩
  intro r₂ s₂ h₂
  obtain ⟨p₂, hat₂, hp₂⟩ := hat₁.sets h₂
  by_cases hr₂ : r₂ ≠ 1
  · rw [if_pos hr₂]
    exact ⟨p₂, hat₂, by simp⟩
  rw [if_neg hr₂]
  refine Program.within_perform_bind.mpr ⟨⟨ctx, rfl, _, _, hat₂.owns.head⟩, ?_⟩
  intro r₃ s₃ h₃
  obtain ⟨p₃, hat₃, hp₃⟩ := hat₂.sets h₃
  by_cases hr₃ : r₃ ≠ 1
  · rw [if_pos hr₃]
    exact ⟨p₃, hat₃, by simp⟩
  rw [if_neg hr₃]
  refine ⟨p₃, hat₃, fun _ => ?_⟩
  rw [hp₃ (not_not.mp hr₃), hp₂ (not_not.mp hr₂), hp₁ (not_not.mp hr₁)]
  rfl

/-- The errors are thrown. -/
lemma safe_throwRuntimeError {signing : Option (K × SignParams)} {key : Key}
    (hat : At base raised files [(key.ctx, .mdCtx signing), (key.pkey, .pkey k)] s)
    (hkey : signer.key = some key) {title : Bytes} (htitle : title ∈ signTitles) (message : Bytes)
    {signer' : RequestSigner} (hpath : signer'.privateKeyPath = signer.privateKeyPath)
    (hsame : signer'.key = signer.key) :
    Safe (Signed errorString base raised signer (some k) message)
      (throwRuntimeError errorString title signer') s := by
  refine Program.within_bind.mpr ((safe_opensslError hat htitle).imp ?_)
  rintro error s₁ ⟨hat₁, htells⟩
  refine ⟨hpath, hsame, ⟨_, ?_, hat₁.owns⟩, by simp, htells⟩
  rw [hsame, hkey]
  exact .some

/-- What was written, and nothing else, is left in the buffer. -/
lemma resize_overwrite (xs written : Bytes) :
    resize (overwrite xs written) written.length = written := by
  simp [resize, overwrite]

/-- The signature is computed and encoded. -/
lemma safe_signSized {key : Key}
    (hat : At base raised files
      [(key.ctx, .mdCtx (some (k, pssParams))), (key.pkey, .pkey k)] s)
    (hkey : signer.key = some key) (message : Bytes) :
    Safe (Signed errorString base raised signer (some k) message)
      (signSized errorString signer key.ctx message (PrivateKey.size k)) s := by
  refine Program.within_perform_bind.mpr ⟨⟨⟨_, _, hat.owns.head⟩, (length_resize _ _).ge⟩, ?_⟩
  rintro ⟨signed, written⟩ s₁ ⟨k', params, signing, hsigning, hlength, hl, hsigns⟩
  obtain ⟨rfl, rfl⟩ := hat.signing_eq hsigning
  have hat₁ := hat.leaves hl (hat.owns.set _)
  dsimp only
  by_cases hsigned : signed ≠ 1
  · rw [if_pos hsigned]
    exact safe_throwRuntimeError hat₁ hkey (by simp [signTitles]) message rfl rfl
  · rw [if_neg hsigned]
    have hfits : written.length < 2 ^ 31 := hlength.trans_lt (PrivateKey.size_lt k)
    rw [resize_overwrite]
    refine Program.within_bind.mpr ((safe_base64 hat₁ hfits).imp ?_)
    rintro encoded s₂ ⟨rfl, hat₂⟩
    refine ⟨rfl, rfl, ⟨_, ?_, hat₂.owns⟩, k, rfl, written, rfl, hsigns (not_not.mp hsigned)⟩
    rw [hkey]
    exact .some

/-- **The specification of `sign_message`.** -/
theorem safe_signMessage {k : Option K} (hh : Holding signer.key k hs)
    (hown : Handles.Owns base s.objects hs) (message : Bytes) :
    Safe (Signed errorString base s.raised signer k message)
      (signMessage errorString signer message) s := by
  obtain ⟨path, held, buffer, signature⟩ := signer
  cases hh with
  | none => exact ⟨rfl, rfl, ⟨[], .none, hown⟩, rfl⟩
  | @some key k signing =>
    refine Program.within_perform_bind.mpr ⟨trivial, ?_⟩
    rintro _ s₁ rfl
    have hat₁ := At.clear hown
    have hpkey := hat₁.owns.live (key.pkey, .pkey k) (by simp)
    refine Program.within_perform_bind.mpr ⟨⟨⟨_, hat₁.owns.head⟩, k, hpkey⟩, ?_⟩
    rintro ⟨initialised, pctx⟩ s₂ ⟨signing₂, hl, hinit⟩
    have hat₂ := hat₁.leaves hl (hat₁.owns.set _)
    dsimp only
    by_cases hinitialised : initialised ≠ 1
    · rw [if_pos hinitialised]
      exact safe_throwRuntimeError hat₂ rfl (by simp [signTitles]) message rfl rfl
    rw [if_neg hinitialised]
    obtain ⟨rfl, k', hk', rfl⟩ := hinit (not_not.mp hinitialised)
    obtain rfl : k = k' := by
      have heq := hpkey.symm.trans hk'
      simpa using heq
    refine Program.within_bind.mpr ((safe_setParams hat₂).imp ?_)
    rintro done s₃ ⟨params, hat₃, hdone⟩
    cases done with
    | false => exact safe_throwRuntimeError hat₃ rfl (by simp [signTitles]) message rfl rfl
    | true =>
      obtain rfl := hdone rfl
      refine Program.within_perform_bind.mpr ⟨⟨_, _, hat₃.owns.head⟩, ?_⟩
      rintro ⟨sized, length⟩ s₄ ⟨hl₄, k', params', hsigning, hsize⟩
      obtain ⟨rfl, rfl⟩ := hat₃.signing_eq hsigning
      have hat₄ := hat₃.leaves hl₄ hat₃.owns
      dsimp only
      by_cases hsized : sized ≠ 1
      · rw [if_pos hsized]
        exact safe_throwRuntimeError hat₄ rfl (by simp [signTitles]) message rfl rfl
      · rw [if_neg hsized, hsize (not_not.mp hsized)]
        exact safe_signSized hat₄ rfl message

end Signing

/-- **The specification of the destructor.** -/
theorem safe_destroy {signer : RequestSigner} {k : Option K} (hh : Holding signer.key k hs)
    (hown : Handles.Owns base s.objects hs) :
    Safe (fun _ s' => s'.objects = base) (destroy signer) s := by
  have hat : At base [] s.files (hs ++ []) s := by
    rw [List.append_nil]
    exact .of_owns hown
  exact (safe_resetKey hh hat).imp fun _ _ h => Handles.owns_nil.mp h.owns

end RequestSigner

end Hotpath
