import Hotpath.Signer.RequestSignerSpec

set_option relaxedAutoImplicit false
set_option autoImplicit false

/-!
# Runs of the request signer

Any sequence of loads and signatures, with whatever OpenSSL answers, whatever the file holds at each
of them, and whatever errors other code leaves in the queue between two of them.

## Main definitions

* `Hotpath.RequestSigner.Request`, `Hotpath.RequestSigner.perform` — the member functions.
* `Hotpath.RequestSigner.Step` — what happens to a signer.
* `Hotpath.KeyInUse.Step` — what a signer is for.

## Main results

* `Hotpath.RequestSigner.owns_objects` — every call is given live objects of the right kinds, and
  after the destructor the objects are those there were before the constructor.
* `Hotpath.RequestSigner.refines_keyInUse` — signatures are those of the key in use.
* `Hotpath.RequestSigner.tells_own_errors` — a failure tells no errors from before the call.
-/

namespace Hotpath

open OpenSSL
open Utf8 (bytes)

variable {K : Type} [PrivateKey K]

namespace RequestSigner

/-- A call of a member function. -/
inductive Request where
  | load
  | sign (timestamp method path : Bytes)
  | signWebsocketAuth (timestamp : Bytes)
  deriving DecidableEq, Repr

/-- How a call ends. -/
inductive Outcome where
  | loaded (failure : Option Bytes)
  | signed (result : Except Thrown Bytes)

variable (errorString : ℕ → Bytes)

/-- The member function is called. -/
def perform (signer : RequestSigner) : Request → Calling (Outcome × RequestSigner)
  | .load => do
    let (failure, signer') ← signer.load errorString
    return (.loaded failure, signer')
  | .sign timestamp method path => do
    let (result, signer') ← signer.sign errorString timestamp method path
    return (.signed result, signer')
  | .signWebsocketAuth timestamp => do
    let (result, signer') ← signer.signWebsocketAuth errorString timestamp
    return (.signed result, signer')

/-- What happens: a call, or something else, which may use the queue and change the files. -/
inductive Event where
  | call (request : Request) (outcome : Outcome)
  | other

/-- What happens to a signer. -/
inductive Step : RequestSigner × OpenSSL.State K → Event → RequestSigner × OpenSSL.State K → Prop
  | call {signer signer' : RequestSigner} {s s' : OpenSSL.State K} {request : Request}
      {outcome : Outcome}
      (h : Program.Exec OpenSSL.Step (perform errorString signer request) s (outcome, signer') s') :
      Step (signer, s) (.call request outcome) (signer', s')
  | other {signer : RequestSigner} {s s' : OpenSSL.State K} (h : s'.objects = s.objects) :
      Step (signer, s) .other (signer, s')

end RequestSigner

/-! ## What a signer is for -/

namespace KeyInUse

open RequestSigner (Request pssParams)

/-- The message of a call that signs one. -/
def message : Request → Option Bytes
  | .load => none
  | .sign timestamp method path => some (timestamp ++ method ++ path)
  | .signWebsocketAuth timestamp => some (timestamp ++ bytes "GET" ++ bytes "/trade-api/ws/v2")

/-- The key in the file, if it holds one, and the key in use. A load takes the key of the file into
use if it is one for RSA, and otherwise changes nothing. -/
inductive Step : Option K × Option K → RequestSigner.Event → Option K × Option K → Prop
  | loaded {key : K} {inUse : Option K} (hrsa : PrivateKey.isA key (bytes "RSA") = true) :
      Step (some key, inUse) (.call .load (.loaded none)) (some key, some key)
  | refused {file inUse : Option K} {text : Bytes} :
      Step (file, inUse) (.call .load (.loaded (some text))) (file, inUse)
  | signed {file : Option K} {key : K} {request : Request} {text encoded signature : Bytes}
      (hm : message request = some text) (hd : Base64.decode encoded = some signature)
      (hs : PrivateKey.signs key pssParams text signature) :
      Step (file, some key) (.call request (.signed (.ok encoded))) (file, some key)
  | failed {file : Option K} {key : K} {request : Request} {text error : Bytes}
      (hm : message request = some text) :
      Step (file, some key) (.call request (.signed (.error (.runtimeError error))))
        (file, some key)
  | unloaded {file : Option K} {request : Request} {text error : Bytes}
      (hm : message request = some text) :
      Step (file, none) (.call request (.signed (.error (.logicError error)))) (file, none)
  | other {file file' inUse : Option K} : Step (file, inUse) .other (file', inUse)

end KeyInUse

namespace RequestSigner

variable {errorString : ℕ → Bytes} {base : Handles Ptr (Object K)} {signer signer' : RequestSigner}
  {s s' : OpenSSL.State K} {path : Bytes}

/-- The signer owns the objects of the key in use, and nothing else. -/
structure Owning (base : Handles Ptr (Object K)) (path : Bytes) (signer : RequestSigner)
    (inUse : Option K) (s : OpenSSL.State K) : Prop where
  samePath : signer.privateKeyPath = path
  owns : ∃ hs, Holding signer.key inUse hs ∧ Handles.Owns base s.objects hs

/-- The text of a failure is one of the titles of its member function and errors since the call
began, or says that the key is none for RSA. -/
def TellsOwn (errorString : ℕ → Bytes) (path : Bytes) (raised : List ℕ) (outcome : Outcome)
    (s : OpenSSL.State K) : Prop :=
  match outcome with
  | .loaded (some text) => text = path ++ bytes " does not contain an RSA private key" ∨
      Tells errorString (loadTitles path) raised text s
  | .signed (.error (.runtimeError text)) => Tells errorString signTitles raised text s
  | _ => True

/-- A program also leaves the files as they are. -/
private lemma Safe.keeps_files {α : Type} {Q : α → OpenSSL.State K → Prop} {p : Calling α}
    (hp : Safe Q p s) : Safe (fun a s' => Q a s' ∧ s'.files = s.files) p s :=
  Program.Within.and_invariant (fun _ _ _ _ _ hs h => hs.files.trans h) hp rfl

/-- What is promised of a call. -/
def Performed (errorString : ℕ → Bytes) (base : Handles Ptr (Object K)) (path : Bytes)
    (inUse : Option K) (request : Request) (s : OpenSSL.State K) (r : Outcome × RequestSigner)
    (s' : OpenSSL.State K) : Prop :=
  TellsOwn errorString path s.raised r.1 s' ∧ ∃ inUse', Owning base path r.2 inUse' s' ∧
    KeyInUse.Step (s.files path, inUse) (.call request r.1) (s'.files path, inUse')

/-- A message is signed for a call. -/
private lemma safe_sign {inUse : Option K} (hown : Owning base path signer inUse s)
    {request : Request} {text : Bytes} (hm : KeyInUse.message request = some text) :
    Safe (fun r s' => Performed errorString base path inUse request s (.signed r.1, r.2) s')
      (signMessage errorString { signer with message := text } text) s := by
  obtain ⟨hpath, hs, hh, howns⟩ := hown
  have hheld : Holding ({ signer with message := text } : RequestSigner).key inUse hs := hh
  refine (safe_signMessage hheld howns text).keeps_files.imp ?_
  rintro ⟨result, signer'⟩ s' ⟨⟨hpath', -, hheld', hresult⟩, hfiles⟩
  have hown' : Owning base path signer' inUse s' := ⟨hpath'.trans hpath, hheld'⟩
  cases result with
  | ok encoded =>
    obtain ⟨key, rfl, signature, rfl, hsigns⟩ := hresult
    exact ⟨trivial, _, hown', hfiles ▸ .signed hm (Base64.decode_encode signature) hsigns⟩
  | error thrown =>
    cases thrown with
    | logicError error =>
      obtain rfl : inUse = none := hresult
      exact ⟨trivial, _, hown', hfiles ▸ .unloaded hm⟩
    | runtimeError error =>
      obtain ⟨key, rfl⟩ := Option.ne_none_iff_exists'.mp hresult.1
      exact ⟨hresult.2, _, hown', hfiles ▸ .failed hm⟩

/-- **One call** is a step of the key in use. -/
theorem safe_perform {inUse : Option K} (hown : Owning base path signer inUse s)
    (request : Request) :
    Safe (Performed errorString base path inUse request s)
      (perform errorString signer request) s := by
  cases request with
  | load =>
    obtain ⟨hpath, hs, hh, howns⟩ := hown
    refine Program.within_bind.mpr ((safe_load hh howns).keeps_files.imp ?_)
    rintro ⟨failure, signer'⟩ s' ⟨⟨hpath', inUse', hs', hh', howns', hresult⟩, hfiles⟩
    have hown' : Owning base path signer' inUse' s' := ⟨hpath'.trans hpath, hs', hh', howns'⟩
    cases failure with
    | none =>
      obtain ⟨hkey, key, rfl, hrsa⟩ := hresult
      rw [hpath] at hkey
      refine ⟨trivial, _, hown', ?_⟩
      rw [hfiles, ← hkey]
      exact .loaded hrsa
    | some text =>
      obtain ⟨-, rfl, htext⟩ := hresult
      rw [hpath] at htext
      exact ⟨htext, _, hown', hfiles ▸ .refused⟩
  | sign timestamp method p =>
    exact Program.within_bind.mpr ((safe_sign hown rfl).imp fun _ _ h => h)
  | signWebsocketAuth timestamp =>
    exact Program.within_bind.mpr ((safe_sign hown rfl).imp fun _ _ h => h)

/-! ## Runs -/

/-- A signer and what it is for go together: the file holds what the file at the path holds at that
instant, and the signer owns the objects of the key in use. -/
def Related (base : Handles Ptr (Object K)) (path : Bytes)
    (p : RequestSigner × OpenSSL.State K) (t : Option K × Option K) : Prop :=
  t.1 = p.2.files path ∧ Owning base path p.1 t.2 p.2

omit [PrivateKey K] in
/-- After the constructor no key is in use. -/
private lemma related_new (path : Bytes) (s₀ : OpenSSL.State K) :
    Related s₀.objects path (new path, s₀) (s₀.files path, none) :=
  ⟨rfl, rfl, [], .none, Handles.owns_nil.mpr rfl⟩

/-- Whatever happens to a signer is a step of the key in use, after which the two go together. -/
private lemma Related.step {p p' : RequestSigner × OpenSSL.State K} {t : Option K × Option K}
    {e : Event} (hR : Related base path p t) (hs : Step errorString p e p') :
    ∃ t', KeyInUse.Step t e t' ∧ Related base path p' t' := by
  obtain ⟨file, inUse⟩ := t
  obtain ⟨rfl, hown⟩ := hR
  cases hs with
  | call h =>
    obtain ⟨-, inUse', hown', hstep⟩ := (safe_perform hown _).of_exec h
    exact ⟨_, hstep, rfl, hown'⟩
  | other h =>
    obtain ⟨hpath, hs, hh, howns⟩ := hown
    exact ⟨_, .other, rfl, hpath, hs, hh, h ▸ howns⟩

/-! ## A sample -/

/-- Keys for samples. A signature is the message after a byte that tells the key. -/
inductive Sample where
  | first
  | second

namespace Sample

/-- The byte that tells the key. -/
def byte : Sample → UInt8
  | first => 1
  | second => 2

/-- Both keys are RSA keys. A signature is the byte of the key, and the text. -/
instance : PrivateKey Sample where
  isA _ name := name = bytes "RSA"
  signs key _ text signature := signature = key.byte :: text
  size _ := 16
  size_lt _ := by decide

/-- There are no objects, an error is in the queue, and the file holds the first key. -/
def state : OpenSSL.State Sample := ⟨fun _ => none, [3], [3], List.suffix_rfl, fun _ => some first⟩

/-- The state with some objects and a key in the file, after calls that raised no error. -/
def after (file : Sample) (objects : Handles Ptr (Object Sample)) : OpenSSL.State Sample :=
  { state.cleared with objects := objects, files := fun _ => some file }

/-- Calls that raise no error lead from some objects to others. -/
private lemma leaves_after (file : Sample) (objects objects' : Handles Ptr (Object Sample)) :
    Leaves (after file objects) objects' (after file objects') :=
  ⟨rfl, rfl, [], rfl, List.nil_suffix⟩

/-- The objects of the first key, after it was loaded: the context is 1 and the key is 2. -/
def loaded : Handles Ptr (Object Sample) :=
  Function.update (Function.update (Function.update (Function.update (fun _ => none)
    1 (some (.bio []))) 2 (some (.pkey first))) 1 none) 1 (some (.mdCtx none))

/-- The signer with the first key. -/
def withFirst : RequestSigner := { new [] with key := some ⟨2, 1⟩ }

/-- A load of the first key. -/
lemma exec_load : Program.Exec OpenSSL.Step (perform (fun _ => []) (new []) .load) state
    (.loaded none, withFirst) (after first loaded) := by
  let none₀ : Handles Ptr (Object Sample) := fun _ => none
  let opened := Function.update none₀ 1 (some (.bio []))
  let read := Function.update opened 2 (some (.pkey first))
  let closed := Function.update read 1 none
  have hclear : OpenSSL.Step state .errClearError () (after first none₀) := rfl
  have hopen : OpenSSL.Step (after first none₀) (.bioNewFile []) (some 1) (after first opened) :=
    ⟨rfl, leaves_after _ _ _⟩
  have hread : OpenSSL.Step (after first opened) (.pemReadBioPrivateKey 1) (some 2)
      (after first read) :=
    ⟨[], first, rfl, ⟨rfl, leaves_after _ _ _⟩, fun _ => rfl⟩
  have hclose : OpenSSL.Step (after first read) (.bioFree 1) () (after first closed) :=
    leaves_after _ _ _
  have hrsa : OpenSSL.Step (after first closed) (.pkeyIsA 2 (bytes "RSA")) (1 : ℤ)
      (after first closed) :=
    ⟨leaves_after _ _ _, first, rfl, by simp [PrivateKey.isA]⟩
  have hctx : OpenSSL.Step (after first closed) .mdCtxNew (some 1) (after first loaded) :=
    ⟨rfl, leaves_after _ _ _⟩
  exact .call hclear (.call hopen (.call hread (.call hclose (.call hrsa (.call hctx .pure)))))

/-- The objects while a message is signed with some parameters. -/
def signing (params : SignParams) : Handles Ptr (Object Sample) :=
  Function.update loaded 1 (some (.mdCtx (some (first, params))))

/-- A call that changes the parameters. -/
private lemma sets_signing (set : SignParams → SignParams) (params : SignParams) :
    Sets (after second (signing params)) (some 1) set 1 (after second (signing (set params))) := by
  refine ⟨1, first, params, set params, rfl, rfl, ?_, fun _ => rfl⟩
  have hupdate : signing (set params) =
      Function.update (signing params) 1 (some (.mdCtx (some (first, set params)))) :=
    (Function.update_idem _ _ _).symm
  rw [hupdate]
  exact leaves_after _ _ _

/-- A message, which is "1GET/". -/
def message : Bytes := [0x31, 0x47, 0x45, 0x54, 0x2F]

/-- A signature with the first key, while the file holds the second. -/
lemma exec_sign : ∃ s', Program.Exec OpenSSL.Step
    (perform (fun _ => []) withFirst (.sign [0x31] [0x47, 0x45, 0x54] [0x2F]))
    (after second loaded) (.signed (.ok (Base64.encode (1 :: message))),
      { withFirst with message := message, signature := 1 :: message }) s' := by
  have hclear : OpenSSL.Step (after second loaded) .errClearError () (after second loaded) := rfl
  have hinit : OpenSSL.Step (after second loaded) (.digestSignInit 1 sha256 2) ((1 : ℤ), some 1)
      (after second (signing (.default sha256))) :=
    ⟨_, leaves_after _ _ _, fun _ => ⟨rfl, first, rfl, rfl⟩⟩
  have hpadding : OpenSSL.Step (after second (signing (.default sha256)))
      (.setRsaPadding (some 1) .pss) (1 : ℤ)
      (after second (signing ⟨sha256, .pss, .widest, sha256⟩)) :=
    sets_signing (fun params => { params with padding := .pss }) _
  have hsaltlen : OpenSSL.Step (after second (signing ⟨sha256, .pss, .widest, sha256⟩))
      (.setRsaPssSaltlen (some 1) .digest) (1 : ℤ) (after second (signing pssParams)) :=
    sets_signing (fun params => { params with pssSaltlen := .digest }) _
  have hmgf1Md : OpenSSL.Step (after second (signing pssParams)) (.setRsaMgf1Md (some 1) sha256)
      (1 : ℤ) (after second (signing pssParams)) :=
    sets_signing (fun params => { params with mgf1Md := sha256 }) _
  have hsize : OpenSSL.Step (after second (signing pssParams)) (.digestSignSize 1 message)
      ((1 : ℤ), 16) (after second (signing pssParams)) :=
    ⟨leaves_after _ _ _, first, pssParams, rfl, fun _ => rfl⟩
  have hsign : OpenSSL.Step (after second (signing pssParams)) (.digestSign 1 16 16 message)
      ((1 : ℤ), 1 :: message)
      (after second (Function.update (signing pssParams) 1 (some (.mdCtx none)))) :=
    ⟨first, pssParams, none, rfl, by decide, leaves_after _ _ _, fun _ => rfl⟩
  have hencode : OpenSSL.Step
      (after second (Function.update (signing pssParams) 1 (some (.mdCtx none))))
      (.encodeBlock 9 (1 :: message) (toInt 6)) ((8 : ℤ), Base64.encode (1 :: message) ++ [0])
      (after second (Function.update (signing pssParams) 1 (some (.mdCtx none)))) :=
    ⟨leaves_after _ _ _, rfl, rfl⟩
  have hencoded : resize (overwrite (List.replicate 9 0) (Base64.encode (1 :: message) ++ [0])) 8 =
      Base64.encode (1 :: message) := rfl
  rw [← hencoded]
  exact ⟨_, .call hclear (.call hinit (.call hpadding (.call hsaltlen (.call hmgf1Md
    (.call hsize (.call hsign (.call hencode .pure)))))))⟩

end Sample

section Runs

variable {s₀ : OpenSSL.State K} {h : List ((RequestSigner × OpenSSL.State K) × Event)}

/-- **The signer refines the key in use**: every run of it is, call for call and with the same
outcomes, a run of the machine that loads the key of the file and signs with the key in use. At
every instant of the two runs the machine's file is the one at the path, and the signer owns the
objects of the machine's key in use.

**Proof sketch.** A forward simulation in lockstep, by the specifications of the member
functions. -/
theorem refines_keyInUse (hr : System.Run (Step errorString) (new path, s₀) h (signer, s)) :
    ∃ h' t, System.Run KeyInUse.Step (s₀.files path, none) h' t ∧
      List.Forall₂ (fun p q => Related s₀.objects path p.1 q.1 ∧ p.2 = q.2) h h' ∧
      Related s₀.objects path (signer, s) t := by
  refine hr.lockstep (related_new path s₀) ?_
  intro p e p' t hR hs
  exact hR.step hs

/-- The first key is loaded, the file is then replaced by the second key, and a message is signed:
the signature is one with the first. -/
theorem refines_keyInUse_replaced : ∃ h signer s,
    System.Run (Step (K := Sample) fun _ => []) (new [], Sample.state) h (signer, s) ∧
      h.map Prod.snd = [.call .load (.loaded none), .other,
        .call (.sign [0x31] [0x47, 0x45, 0x54] [0x2F])
          (.signed (.ok (Base64.encode (1 :: Sample.message))))] ∧
      ∃ h' t, System.Run KeyInUse.Step (some Sample.first, none) h' t ∧
        List.Forall₂ (fun p q => Related Sample.state.objects [] p.1 q.1 ∧ p.2 = q.2) h h' ∧
        Related Sample.state.objects [] (signer, s) t := by
  obtain ⟨s, hsign⟩ := Sample.exec_sign
  have hreplace : Step (K := Sample) (fun _ => [])
      (Sample.withFirst, Sample.after .first Sample.loaded)
      .other (Sample.withFirst, Sample.after .second Sample.loaded) := .other rfl
  have hr := ((System.Run.nil.snoc (Step.call Sample.exec_load)).snoc hreplace).snoc
    (Step.call hsign)
  exact ⟨_, _, s, hr, rfl, refines_keyInUse hr⟩

/-- At the end of a run the signer owns the objects of the key in use. -/
private lemma owning_of_run (hr : System.Run (Step errorString) (new path, s₀) h (signer, s)) :
    ∃ inUse, Owning s₀.objects path signer inUse s := by
  have hinv := hr.invariant (I := fun p => ∃ t, Related s₀.objects path p t)
    ⟨_, related_new path s₀⟩ (by
      rintro p e p' ⟨t, hR⟩ hs
      obtain ⟨t', -, hR'⟩ := hR.step hs
      exact ⟨t', hR'⟩)
  obtain ⟨t, -, hown⟩ := hinv
  exact ⟨t.2, hown⟩

/-- **Objects are used and freed as they should be.** Whatever OpenSSL answers, in every run every
call, those of the destructor too, is given live objects of the right kinds, initialised contexts
and buffers that are large enough; between two calls of the signer the objects are those from
before the constructor and, once a key has been loaded, its private key and its digest context, the
ones the signer points to; and after the destructor there are exactly those from before. -/
theorem owns_objects (hr : System.Run (Step errorString) (new path, s₀) h (signer, s)) :
    (∀ request s' c,
      Program.Calls OpenSSL.Step (perform errorString signer request) s s' c → Allowed s' c) ∧
    (∀ s' c, Program.Calls OpenSSL.Step signer.destroy s s' c → Allowed s' c) ∧
    (∃ k hs, Holding signer.key k hs ∧ Handles.Owns s₀.objects s.objects hs) ∧
    ∀ s', Program.Exec OpenSSL.Step signer.destroy s () s' → s'.objects = s₀.objects := by
  obtain ⟨inUse, hown⟩ := owning_of_run hr
  obtain ⟨hs, hh, howns⟩ := hown.owns
  have hdestroy := safe_destroy hh howns
  refine ⟨?_, ?_, ⟨inUse, hs, hh, howns⟩, ?_⟩
  · intro request s' c hc
    exact (safe_perform hown request).of_calls hc
  · intro s' c hc
    exact hdestroy.of_calls hc
  · intro s' he
    exact hdestroy.of_exec he

/-- After the key of the file was loaded. -/
theorem owns_objects_loaded : ∃ (signer : RequestSigner) (s : OpenSSL.State Sample),
    signer.key = some ⟨2, 1⟩ ∧
    (∃ k hs, Holding signer.key k hs ∧ Handles.Owns Sample.state.objects s.objects hs) ∧
    ∀ s', Program.Exec OpenSSL.Step signer.destroy s () s' →
      s'.objects = Sample.state.objects := by
  have hr := System.Run.nil.snoc (Step.call Sample.exec_load)
  obtain ⟨-, -, hlive, hdestroyed⟩ := owns_objects hr
  exact ⟨_, _, rfl, hlive, hdestroyed⟩

/-- **A failure tells no errors from before the call**, whatever is in the queue when it begins: the
text is one of the fixed titles of its member function, with the path where it has one, and after
it errors that were raised since, or it says that the key is none for RSA. -/
theorem tells_own_errors (hr : System.Run (Step errorString) (new path, s₀) h (signer, s))
    {request : Request} {outcome : Outcome}
    (hs : Step errorString (signer, s) (.call request outcome) (signer', s')) :
    TellsOwn errorString path s.raised outcome s' := by
  obtain ⟨inUse, hown⟩ := owning_of_run hr
  cases hs with
  | call he => exact ((safe_perform hown request).of_exec he).1

/-- A file cannot be opened, with error 7, while error 3 is in the queue. -/
theorem tells_own_errors_unopened : ∃ s' : OpenSSL.State Sample, s'.raised = [3, 7] ∧
    TellsOwn (fun code => [UInt8.ofNat (code + 48)]) [] [3]
      (.loaded (some (bytes "cannot read : 7"))) s' := by
  let failed : OpenSSL.State Sample :=
    ⟨fun _ => none, [7], [3, 7], ⟨[3], rfl⟩, fun _ => some .first⟩
  have hclear : OpenSSL.Step Sample.state .errClearError () Sample.state.cleared := rfl
  have hopen : OpenSSL.Step Sample.state.cleared (.bioNewFile []) none failed :=
    ⟨rfl, rfl, [7], rfl, List.suffix_rfl⟩
  have htold : OpenSSL.Step failed .errGetErrors [7] failed.cleared := ⟨rfl, rfl⟩
  have he : Program.Exec OpenSSL.Step
      (perform (fun code => [UInt8.ofNat (code + 48)]) (new []) .load) Sample.state
      (.loaded (some (bytes "cannot read : 7")), new []) failed.cleared :=
    .call hclear (.call hopen (.call htold .pure))
  exact ⟨_, rfl, tells_own_errors System.Run.nil (Step.call he)⟩

end Runs

end RequestSigner

end Hotpath
