import Hotpath.Executor.Fire
import Hotpath.Lib.System
import Hotpath.Protocol.Records

set_option relaxedAutoImplicit false
set_option autoImplicit false

/-!
# Runs of fires

A server with its kill switch's file, over whole runs: fires, checks of the switch, its two
operations, and the file appearing and disappearing under the process, in any order. Two
questions are answered about every run: at which price real orders leave, and how stale the
kill switch can be.

## Main definitions

* `Hotpath.World` — a server and the file.
* `Hotpath.Action`, `Hotpath.World.reply`, `Hotpath.World.next` — what happens to them.
* `Hotpath.World.SendsReal` — the guards let a real fire through.
* `Hotpath.Witnessed` — an answer of the kill switch is the file's state at a recent instant.

## Main results

* `Hotpath.orders_tradeable_iff` — when every real order of a run leaves at a tradeable price.
* `Hotpath.kill_switch_honoured` — every answer of the kill switch is recent, and what follows
  for fires.
-/

namespace Hotpath

open System
open Utf8 (bytes)

variable {F : Type}

/-- What can happen. After `engage` and `release` the file is as the file system left it. -/
inductive Deed (F : Type) where
  | file (present : Bool)
  | isEngaged
  | engage (present : Bool)
  | release (present : Bool)
  | fire (message : WakeMessage F)

/-- Something that happens, at a reading of the clock. If it asks the file system, `statFailed`
tells whether that sets an error code. -/
structure Action (F : Type) where
  now : ℤ
  statFailed : Bool
  deed : Deed F

/-- What a caller sees of an action. -/
inductive Reply (F : Type) where
  | silent
  | checked (engaged : Bool)
  | fired (outcome : FireOutcome) (request : Option (FireRequest F))

/-- A server, and whether the kill switch's file exists. -/
structure World where
  server : ExecutorServer
  present : Bool

namespace World

/-- What a check of the kill switch meets. -/
def probe (w : World) (a : Action F) : Probe := ⟨a.now, ⟨w.present, a.statFailed⟩⟩

/-- What a caller sees of an action. -/
def reply [Double F] (w : World) (a : Action F) : Reply F :=
  match a.deed with
  | .isEngaged => .checked (w.server.engaged (w.probe a)).1
  | .fire m => .fired (w.server.handleFire (w.probe a) m).1 (w.server.handleFire (w.probe a) m).2.1
  | _ => .silent

/-- A caller of a fire sees its outcome and its request. -/
lemma reply_fire [Double F] {w : World} {a : Action F} {m : WakeMessage F}
    (h : a.deed = .fire m) :
    w.reply a = .fired (w.server.handleFire (w.probe a) m).1
      (w.server.handleFire (w.probe a) m).2.1 := by
  simp only [reply, h]

/-- The world after an action. -/
def next [Double F] (w : World) (a : Action F) : World :=
  match a.deed with
  | .file present => { w with present := present }
  | .isEngaged => { w with server := (w.server.engaged (w.probe a)).2 }
  | .engage present =>
    { server := { w.server with killSwitch := w.server.killSwitch.map KillSwitch.invalidate }
      present := present }
  | .release present =>
    { server := { w.server with killSwitch := w.server.killSwitch.map KillSwitch.invalidate }
      present := present }
  | .fire m => { w with server := (w.server.handleFire (w.probe a) m).2.2 }

/-- The step relation. -/
def Step [Double F] (w : World) (a : Action F) (w' : World) : Prop := w' = w.next a

/-- The actions of a run from a world, each with the world it happens to. -/
def history [Double F] (w : World) : List (Action F) → List (World × Action F)
  | [] => []
  | a :: as => (w, a) :: (w.next a).history as

/-- Every beginning of the history of some actions is the history of a run. -/
lemma run_of_history [Double F] {w₀ : World} {actions : List (Action F)}
    {h₁ h₂ : List (World × Action F)} {p : World × Action F}
    (h : w₀.history actions = h₁ ++ p :: h₂) : Run Step w₀ h₁ p.1 := by
  induction actions generalizing w₀ h₁ with
  | nil => simp [history] at h
  | cons a as ih =>
    cases h₁ with
    | nil =>
      obtain ⟨rfl, -⟩ := List.cons_eq_cons.mp h
      exact Run.nil
    | cons q h₁ =>
      obtain ⟨rfl, htail⟩ := List.cons_eq_cons.mp h
      exact Run.cons rfl (ih htail)

/-- The actions of a history are those of its run. -/
lemma history_actions [Double F] (w₀ : World) (actions : List (Action F)) :
    (w₀.history actions).map Prod.snd = actions := by
  induction actions generalizing w₀ with
  | nil => rfl
  | cons a as ih => rw [history, List.map_cons, ih]

/-! ## The price of real orders -/

/-- A real fire that the price guard and the kill switch let through to a dispatch. -/
def SendsReal [Double F] (w : World) (a : Action F) (m : WakeMessage F) : Prop :=
  a.deed = .fire m ∧ m.dryRun = false ∧ w.server.dispatch = true ∧
    ¬ ExecutorServer.RefusesPrice m ∧ (w.server.engaged (w.probe a)).1 = false

/-- A fire that sends a real order dispatches the request of its message. -/
lemma reply_of_sendsReal [Double F] {w : World} {a : Action F} {m : WakeMessage F}
    (h : w.SendsReal a m) :
    w.reply a = .fired .dispatched (some (ExecutorServer.requestFor m)) := by
  obtain ⟨hdeed, hreal, hdispatch, hprice, hengaged⟩ := h
  have hfired := (w.server.handleFire_fired (w.probe a) m).of_real hreal hprice
  rw [hengaged, hdispatch] at hfired
  obtain ⟨houtcome, hrequest⟩ := Prod.mk.inj hfired
  rw [reply_fire hdeed, houtcome, hrequest]
  rfl

/-- Only a fire that sends a real order dispatches a request that is no dry run. -/
lemma sendsReal_of_reply [Double F] {w : World} {a : Action F} {outcome : FireOutcome}
    {request : FireRequest F} (h : w.reply a = .fired outcome (some request))
    (hreal : request.dryRun = false) :
    ∃ m, w.SendsReal a m ∧ request = ExecutorServer.requestFor m := by
  cases hdeed : a.deed with
  | fire m =>
    have hfired := w.server.handleFire_fired (w.probe a) m
    rw [reply_fire hdeed, Reply.fired.injEq] at h
    rw [h.2] at hfired
    obtain ⟨rfl, hdispatch, hguards⟩ := hfired.of_request
    exact ⟨m, ⟨hdeed, hreal, hdispatch, hguards hreal⟩, rfl⟩
  | _ => simp [reply, hdeed] at h

end World

/-- **At which price real orders leave.** In every run from every state, all real orders leave at
a price strictly between zero and one exactly if all real fires that the guards let through have
a price that is snapped there.

**Proof sketch.** The real orders are the requests of those fires, and a request carries the
snapped price. -/
theorem orders_tradeable_iff (w₀ : World) (actions : List (Action ℚ)) :
    (∀ p ∈ w₀.history actions, ∀ outcome request,
      p.1.reply p.2 = .fired outcome (some request) → request.dryRun = false →
        0 < request.priceDollars ∧ request.priceDollars < 1) ↔
    (∀ p ∈ w₀.history actions, ∀ m, p.1.SendsReal p.2 m →
      SnapsInside m.wirePriceYesDollars m.priceRanges) := by
  constructor
  · intro hin p hp m hm
    exact (snapToGrid_inside _ _).mp (hin p hp _ _ (World.reply_of_sendsReal hm) hm.2.1)
  · intro hin p hp outcome request hreply hreal
    obtain ⟨m, hm, rfl⟩ := World.sendsReal_of_reply hreply hreal
    exact (snapToGrid_inside _ _).mpr (hin p hp m hm)

/-- A wake at less than half a cent, with the default price range. -/
def lowPriceBody : Bytes :=
  bytes "\x7b\"schema_version\":4,\"correlation_id\":\"c\",\"market_ticker\":\"T\"," ++
  bytes "\"asset\":\"A\",\"direction\":\"yes\",\"kalshi_price\":0,\"model_probability\":0," ++
  bytes "\"fee\":0,\"edge\":0,\"decision_ts_ms\":0,\"sent_at_ms\":0,\"sent_at_ns\":0," ++
  bytes "\"wire_price_yes_dollars\":0.004\x7d"

/-- The message of that wake. -/
def lowPriceMessage : WakeMessage ℚ :=
  { WakeMessage.default with
    correlationId := bytes "c"
    marketTicker := bytes "T"
    asset := bytes "A"
    wirePriceYesDollars := 1 / 250 }

/-- The request that a new server without a kill switch dispatches for the low price. -/
def lowPriceRequest : FireRequest ℚ where
  order := ⟨bytes "T", .yes⟩
  priceDollars := 0
  exchangeIndex := -1
  correlationId := bytes "c"
  correlationGroup := []
  dryRun := false

/-- A wake that decodes to a real fire can send an order at the price zero. -/
theorem low_price_order :
    (decodeWakeMessage (F := ℚ) lowPriceBody).toOption = some lowPriceMessage ∧
      lowPriceMessage.dryRun = false ∧
      ((ExecutorServer.new none true false).handleFire ⟨0, ⟨false, false⟩⟩ lowPriceMessage).2.1 =
        some lowPriceRequest ∧
      ¬ (0 < lowPriceRequest.priceDollars ∧ lowPriceRequest.priceDollars < 1) := by
  refine ⟨by decide +kernel, rfl, by decide +kernel, by decide⟩

/-! ## The age of the kill switch's answers -/

/-- The operations that make the switch forget its answer. -/
def Deed.Invalidates : Deed F → Prop
  | .engage _ => True
  | .release _ => True
  | _ => False

/-- An answer at the end of a history is the state of the file at an instant of it: this very
one, or one less than the time to live ago; and the switch was not operated since. -/
def Witnessed (ttlNs : ℤ) (h : List (World × Action F)) (p : World × Action F) (answer : Bool) :
    Prop :=
  ∃ h₁ q h₂, h ++ [p] = h₁ ++ q :: h₂ ∧ q.1.present = answer ∧
    (q = p ∨ p.2.now - ttlNs < q.2.now ∧ q.2.now ≤ p.2.now) ∧
    ∀ r ∈ q :: h₂, ¬ r.2.deed.Invalidates

/-- The file exists, or not, at every instant of a history that is less than the time to live
before its last action, and at that one. -/
def Throughout (ttlNs : ℤ) (h : List (World × Action F)) (p : World × Action F) (present : Bool) :
    Prop :=
  p.1.present = present ∧ ∀ q ∈ h, p.2.now - ttlNs < q.2.now → q.1.present = present

/-- What the file is throughout is what the switch answers. -/
lemma Witnessed.eq_of_throughout {ttlNs : ℤ} {h : List (World × Action F)} {p : World × Action F}
    {answer present : Bool} (hw : Witnessed ttlNs h p answer) (ht : Throughout ttlNs h p present) :
    answer = present := by
  obtain ⟨h₁, q, h₂, hsplit, rfl, hage, -⟩ := hw
  rcases hage with rfl | ⟨hage, -⟩
  · exact ht.1
  · have hmem : q ∈ h ++ [p] := by simp [hsplit]
    rcases List.mem_append.mp hmem with hq | hq
    · exact ht.2 q hq hage
    · obtain rfl := List.mem_singleton.mp hq
      exact ht.1

/-- The cached answer, if there is one, is the state of the file at the instant it was obtained,
and the switch was not operated since. -/
def CacheOk (ttlNs : ℤ) (h : List (World × Action F)) (switch : Option KillSwitch) : Prop :=
  ∃ k, switch = some k ∧ k.ttlNs = ttlNs ∧ (k.hasCached = true →
    ∃ h₁ q h₂, h = h₁ ++ q :: h₂ ∧ q.1.present = k.cached ∧ q.2.now = k.checkedAtNs ∧
      ∀ r ∈ q :: h₂, ¬ r.2.deed.Invalidates)

/-- An action that does not touch the switch keeps the cached answer true. -/
lemma CacheOk.snoc {ttlNs : ℤ} {h : List (World × Action F)} {switch : Option KillSwitch}
    {p : World × Action F} (hc : CacheOk ttlNs h switch) (hp : ¬ p.2.deed.Invalidates) :
    CacheOk ttlNs (h ++ [p]) switch := by
  obtain ⟨k, hk, httl, hcached⟩ := hc
  refine ⟨k, hk, httl, fun hhas => ?_⟩
  obtain ⟨h₁, q, h₂, rfl, hpresent, hnow, hsince⟩ := hcached hhas
  refine ⟨h₁, q, h₂ ++ [p], by simp, hpresent, hnow, fun r hr => ?_⟩
  rcases List.mem_append.mp (show r ∈ (q :: h₂) ++ [p] from hr) with hr | hr
  · exact hsince r hr
  · obtain rfl := List.mem_singleton.mp hr
    exact hp

/-- An operation of the switch leaves no cached answer. -/
lemma CacheOk.invalidate {ttlNs : ℤ} {h h' : List (World × Action F)} {switch : Option KillSwitch}
    (hc : CacheOk ttlNs h switch) : CacheOk ttlNs h' (switch.map KillSwitch.invalidate) := by
  obtain ⟨k, rfl, httl, -⟩ := hc
  exact ⟨k.invalidate, rfl, httl, by simp [KillSwitch.invalidate]⟩

section Check

variable {ttlNs : ℤ} {h : List (World × Action F)} {w : World} {a : Action F}

/-- **A check answers from the cache or from the file.** -/
lemma CacheOk.witnessed (hc : CacheOk ttlNs h w.server.killSwitch) (hstat : a.statFailed = false)
    (hclock : ∀ q ∈ h, q.2.now ≤ a.now) (ha : ¬ a.deed.Invalidates) :
    Witnessed ttlNs h (w, a) (w.server.engaged (w.probe a)).1 := by
  obtain ⟨k, hk, rfl, hcached⟩ := hc
  simp only [ExecutorServer.engaged, hk]
  rcases k.isEngaged_cases (w.probe a).now (w.probe a).stat with ⟨hhas, hage, heq⟩ | heq
  · obtain ⟨h₁, q, h₂, rfl, hpresent, hnow, hsince⟩ := hcached hhas
    rw [heq]
    have hage' : a.now - k.checkedAtNs < k.ttlNs := hage
    refine ⟨h₁, q, h₂ ++ [(w, a)], by simp, hpresent, Or.inr ⟨?_, hclock q (by simp)⟩,
      fun r hr => ?_⟩
    · simp only
      omega
    · rcases List.mem_append.mp (show r ∈ (q :: h₂) ++ [(w, a)] from hr) with hr | hr
      · exact hsince r hr
      · rw [List.mem_singleton.mp hr]
        exact ha
  · rw [heq]
    refine ⟨h, (w, a), [], rfl, by simp [World.probe, hstat], Or.inl rfl, fun r hr => ?_⟩
    rw [List.mem_singleton.mp hr]
    exact ha

/-- **A check leaves a cached answer that is true** of the instant it was obtained. -/
lemma CacheOk.engaged (hc : CacheOk ttlNs h w.server.killSwitch) (hstat : a.statFailed = false)
    (ha : ¬ a.deed.Invalidates) :
    CacheOk ttlNs (h ++ [(w, a)]) (w.server.engaged (w.probe a)).2.killSwitch := by
  have hsnoc := hc.snoc (p := (w, a)) ha
  obtain ⟨k, hk, httl, -⟩ := hc
  simp only [ExecutorServer.engaged, hk]
  rcases k.isEngaged_cases (w.probe a).now (w.probe a).stat with ⟨-, -, heq⟩ | heq
  · rw [heq, ← hk]
    exact hsnoc
  · rw [heq]
    refine ⟨_, rfl, httl, fun _ => ⟨h, (w, a), [], rfl, ?_, rfl, ?_⟩⟩
    · simp [World.probe, hstat]
    · intro r hr
      rw [List.mem_singleton.mp hr]
      exact ha

/-- **Every action leaves a cached answer that is true** of the instant it was obtained. -/
lemma CacheOk.next [Double F] (hc : CacheOk ttlNs h w.server.killSwitch)
    (hstat : a.statFailed = false) :
    CacheOk ttlNs (h ++ [(w, a)]) (w.next a).server.killSwitch := by
  cases hdeed : a.deed with
  | file present =>
    simp only [World.next, hdeed]
    exact hc.snoc (by simp [hdeed, Deed.Invalidates])
  | isEngaged =>
    simp only [World.next, hdeed]
    exact hc.engaged hstat (by simp [hdeed, Deed.Invalidates])
  | engage present =>
    simp only [World.next, hdeed]
    exact hc.invalidate
  | release present =>
    simp only [World.next, hdeed]
    exact hc.invalidate
  | fire m =>
    have ha : ¬ a.deed.Invalidates := by simp [hdeed, Deed.Invalidates]
    simp only [World.next, hdeed]
    rcases (w.server.handleFire_fired (w.probe a) m).killSwitch_eq with hk | hk <;> rw [hk]
    · exact hc.snoc ha
    · exact hc.engaged hstat ha

/-- The cache is so at every instant of a run that starts with a new switch. -/
lemma cacheOk_of_run [Double F] {w₀ : World}
    (hnew : w₀.server.killSwitch = some (KillSwitch.new ttlNs)) (hrun : Run World.Step w₀ h w)
    (hstat : ∀ q ∈ h, q.2.statFailed = false) : CacheOk ttlNs h w.server.killSwitch := by
  refine hrun.history_invariant (I := fun h w => (∀ q ∈ h, q.2.statFailed = false) →
    CacheOk ttlNs h w.server.killSwitch) ?_ ?_ hstat
  · intro _
    exact ⟨_, hnew, rfl, by simp [KillSwitch.new]⟩
  · rintro h w a w' - ih rfl hstat
    exact (ih fun q hq => hstat q (by simp [hq])).next (hstat (w, a) (by simp))

end Check

/-- **The kill switch is honoured within its time to live and never invented.** In every run of a
server with a new switch, at readings of the clock that never decrease and with a file system
that answers, at every action:

* a check answers with the state of the file at this instant, or at one less than the time to
  live ago, since which the switch was not operated;
* so does the check that decides a real fire which passes the price guard;
* no real fire is dispatched if the file exists throughout that time;
* no fire is refused for the switch if the file is absent throughout it;
* a dry run is dispatched in either case.

**Proof sketch.** A cached answer is the state of the file at the instant it was obtained, which
every action keeps; a check uses it only within its time to live. -/
theorem kill_switch_honoured [Double F] (ttlNs : ℤ) (w₀ : World) (actions : List (Action F))
    (hnew : w₀.server.killSwitch = some (KillSwitch.new ttlNs))
    (hclock : actions.Pairwise fun a b => a.now ≤ b.now)
    (hstat : ∀ a ∈ actions, a.statFailed = false) (h₁ h₂ : List (World × Action F))
    (p : World × Action F) (hp : w₀.history actions = h₁ ++ p :: h₂) :
    (∀ answer, p.1.reply p.2 = .checked answer → Witnessed ttlNs h₁ p answer) ∧
    (∀ m, p.2.deed = .fire m → m.dryRun = false → ¬ ExecutorServer.RefusesPrice m →
      ∃ answer, Witnessed ttlNs h₁ p answer ∧ p.1.reply p.2 =
        if answer then .fired .refusedKillSwitch none
        else .fired .dispatched
          (if p.1.server.dispatch then some (ExecutorServer.requestFor m) else none)) ∧
    (∀ m, p.2.deed = .fire m → m.dryRun = false → Throughout ttlNs h₁ p true →
      ∀ outcome request, p.1.reply p.2 = .fired outcome request →
        outcome ≠ .dispatched ∧ request = none) ∧
    (∀ m, p.2.deed = .fire m → Throughout ttlNs h₁ p false →
      ∀ outcome request, p.1.reply p.2 = .fired outcome request →
        outcome ≠ .refusedKillSwitch) ∧
    (∀ m, p.2.deed = .fire m → m.dryRun = true → p.1.reply p.2 = .fired .dispatched
      (if p.1.server.dispatch then some (ExecutorServer.requestFor m) else none)) := by
  obtain ⟨w, a⟩ := p
  have hactions : actions = h₁.map Prod.snd ++ a :: h₂.map Prod.snd := by
    rw [← World.history_actions w₀ actions, hp]
    simp
  have hstat' : (∀ q ∈ h₁, q.2.statFailed = false) ∧ a.statFailed = false := by
    refine ⟨fun q hq => hstat q.2 ?_, hstat a ?_⟩ <;> rw [hactions]
    · exact List.mem_append_left _ (List.mem_map_of_mem hq)
    · simp
  have hclock' : ∀ q ∈ h₁, q.2.now ≤ a.now := by
    intro q hq
    rw [hactions] at hclock
    exact (List.pairwise_append.mp hclock).2.2 q.2 (List.mem_map_of_mem hq) a (by simp)
  have hc := cacheOk_of_run hnew (World.run_of_history hp) hstat'.1
  have hw : ¬ a.deed.Invalidates → Witnessed ttlNs h₁ (w, a) (w.server.engaged (w.probe a)).1 :=
    fun ha => hc.witnessed hstat'.2 hclock' ha
  have hfire : ∀ m, a.deed = .fire m → ¬ a.deed.Invalidates := by
    intro m hm
    simp [hm, Deed.Invalidates]
  refine ⟨?_, ?_, ?_, ?_, ?_⟩
  · intro answer hreply
    cases hdeed : a.deed with
    | isEngaged =>
      simp only [World.reply, hdeed, Reply.checked.injEq] at hreply
      rw [← hreply]
      exact hw (by simp [hdeed, Deed.Invalidates])
    | _ => simp [World.reply, hdeed] at hreply
  · intro m hdeed hreal hprice
    refine ⟨_, hw (hfire m hdeed), ?_⟩
    have hfired := (w.server.handleFire_fired (w.probe a) m).of_real hreal hprice
    rw [World.reply_fire hdeed]
    split_ifs at hfired ⊢ <;> obtain ⟨houtcome, hrequest⟩ := Prod.mk.inj hfired <;>
      rw [houtcome, hrequest]
  · intro m hdeed hreal hthrough outcome request hreply
    have hengaged := (hw (hfire m hdeed)).eq_of_throughout hthrough
    have hfired := w.server.handleFire_fired (w.probe a) m
    rw [World.reply_fire hdeed, Reply.fired.injEq] at hreply
    obtain ⟨rfl, rfl⟩ := hreply
    by_cases hprice : ExecutorServer.RefusesPrice m
    · obtain ⟨houtcome, hrequest⟩ := hfired.of_refusesPrice hprice
      rw [houtcome, hrequest]
      exact ⟨by simp, rfl⟩
    · have hpair := hfired.of_real hreal hprice
      rw [if_pos hengaged] at hpair
      obtain ⟨houtcome, hrequest⟩ := Prod.mk.inj hpair
      rw [houtcome, hrequest]
      exact ⟨by simp, rfl⟩
  · intro m hdeed hthrough outcome request hreply hrefused
    have hengaged := (hw (hfire m hdeed)).eq_of_throughout hthrough
    have hfired := w.server.handleFire_fired (w.probe a) m
    rw [World.reply_fire hdeed, Reply.fired.injEq] at hreply
    rw [hreply.1, hrefused] at hfired
    rw [hfired.of_refused.2.2] at hengaged
    cases hengaged
  · intro m hdeed hdry
    obtain ⟨houtcome, hrequest⟩ := (w.server.handleFire_fired (w.probe a) m).of_dryRun hdry
    rw [World.reply_fire hdeed, houtcome, hrequest]

/-- A check that finds no file, the file appearing, and a real fire more than the time to live
later, which is not dispatched. -/
theorem kill_switch_honoured_after_ttl :
    ∃ (w₀ w : World) (h : List (World × Action ℚ)) (m : WakeMessage ℚ),
      w₀.history [⟨0, false, .isEngaged⟩, ⟨5, false, .file true⟩, ⟨16, false, .fire m⟩] =
        h ++ [(w, ⟨16, false, .fire m⟩)] ∧ m.dryRun = false ∧
      ∀ outcome request, w.reply ⟨16, false, .fire m⟩ = .fired outcome request →
        outcome ≠ .dispatched ∧ request = none := by
  obtain ⟨m, hm⟩ : ∃ m : WakeMessage ℚ,
      m = { WakeMessage.default with wirePriceYesDollars := 1 / 2 } := ⟨_, rfl⟩
  obtain ⟨w₀, hw₀⟩ : ∃ w₀ : World,
      w₀ = ⟨ExecutorServer.new (some (KillSwitch.new 10)) true false, false⟩ := ⟨_, rfl⟩
  have hreal : m.dryRun = false := by rw [hm]; rfl
  refine ⟨w₀, _, [_, _], m, rfl, hreal, ?_⟩
  refine (kill_switch_honoured 10 w₀
    [⟨0, false, .isEngaged⟩, ⟨5, false, .file true⟩, ⟨16, false, .fire m⟩]
    (by rw [hw₀]; rfl) ?_ ?_ [_, _] [] (_, ⟨16, false, .fire m⟩) rfl).2.2.1 m rfl hreal ?_
  · simp
  · simp
  · refine ⟨by rw [hw₀]; rfl, ?_⟩
    intro q hq
    rcases List.mem_cons.mp hq with rfl | hq
    · simp
    · obtain rfl := List.mem_singleton.mp hq
      simp

end Hotpath
