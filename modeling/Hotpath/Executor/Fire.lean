import Hotpath.Executor.KillSwitch
import Hotpath.Executor.Pricing

set_option relaxedAutoImplicit false
set_option autoImplicit false

/-!
# Firing an order

`src/orders.cpp` and `ExecutorServer::handle_fire`: the order templates, the state of the
server, and what it does with a decoded message.

## Main definitions

* `Hotpath.OrderTemplates` — the templates by ticker, each for its own ticker and side.
* `Hotpath.ExecutorServer` — the server's members.
* `Hotpath.ExecutorServer.handleFire`.

## Main results

* `Hotpath.OrderTemplates.acquire_eq` — the acquired template is of the ticker and side.
* `Hotpath.ExecutorServer.handleFire_fired` — everything a fire can do.
-/

namespace Hotpath

variable {F : Type}

/-! ## Order templates -/

/-- An order as far as its ticker and side fix it. -/
structure OrderTemplate where
  ticker : Bytes
  outcomeSide : Direction
  deriving DecidableEq, Repr

/-- `both_sides`: the templates of a ticker, by `side_index`. -/
def bothSides (ticker : Bytes) : OrderTemplate × OrderTemplate := (⟨ticker, .yes⟩, ⟨ticker, .no⟩)

/-- The element of a pair at `side_index`. -/
def atSide (sides : OrderTemplate × OrderTemplate) : Direction → OrderTemplate
  | .yes => sides.1
  | .no => sides.2

/-- The map `by_ticker_`, whose values are the templates of their keys. -/
structure OrderTemplates where
  byTicker : List (Bytes × (OrderTemplate × OrderTemplate))
  ok : ∀ p ∈ byTicker, p.2 = bothSides p.1

namespace OrderTemplates

/-- No template yet. -/
def empty : OrderTemplates := ⟨[], by simp⟩

/-- The map with one more ticker. -/
def insert (templates : OrderTemplates) (ticker : Bytes) : OrderTemplates where
  byTicker := (ticker, bothSides ticker) :: templates.byTicker
  ok := by
    intro p hp
    rcases List.mem_cons.mp hp with rfl | hp
    · rfl
    · exact templates.ok p hp

/-- `acquire`: the template of a ticker and side, and the map with the ticker in it. -/
def acquire (templates : OrderTemplates) (ticker : Bytes) (side : Direction) :
    OrderTemplate × OrderTemplates :=
  match templates.byTicker.find? fun p => p.1 == ticker with
  | some found => (atSide found.2 side, templates)
  | none => (atSide (bothSides ticker) side, templates.insert ticker)

/-- **The acquired template is that of the ticker and side**, whatever was acquired before. -/
theorem acquire_eq (templates : OrderTemplates) (ticker : Bytes) (side : Direction) :
    (templates.acquire ticker side).1 = ⟨ticker, side⟩ := by
  unfold acquire
  cases h : templates.byTicker.find? fun p => p.1 == ticker with
  | none => cases side <;> rfl
  | some found =>
    have hkey : found.1 = ticker := by simpa using List.find?_some h
    have hok := templates.ok found (List.mem_of_find?_eq_some h)
    rw [hkey] at hok
    cases side <;> simp [atSide, hok, bothSides]

end OrderTemplates

/-! ## The server -/

/-- `FireRequest`, with the template its pointer names. -/
structure FireRequest (F : Type) where
  order : OrderTemplate
  priceDollars : F
  exchangeIndex : Int64
  correlationId : Bytes
  correlationGroup : Bytes
  dryRun : Bool
  deriving DecidableEq, Repr

/-- What `handle_fire` did with a wake message. -/
inductive FireOutcome where
  | dispatched
  | refusedUntradeablePrice
  | refusedKillSwitch
  deriving DecidableEq, Repr

/-- `ExecutorStats`, whose counters are atomic there. -/
structure ExecutorStats where
  framesRead : ℕ
  acksAccepted : ℕ
  acksRejected : ℕ
  firesDispatched : ℕ
  firesRefusedPrice : ℕ
  firesRefusedKillSwitch : ℕ
  deriving DecidableEq, Repr

/-- `ExecutorServer`, less its descriptors: of the configuration, the kill switch if there is
one, and which callbacks are set; then the templates, the counters, the two frame buffers and
the stop flag. -/
structure ExecutorServer where
  killSwitch : Option KillSwitch
  dispatch : Bool
  recordWakeRecv : Bool
  templates : OrderTemplates
  stats : ExecutorStats
  body : Bytes
  ack : Bytes
  stopping : Bool

/-- A constructed server. -/
def ExecutorServer.new (killSwitch : Option KillSwitch) (dispatch recordWakeRecv : Bool) :
    ExecutorServer where
  killSwitch := killSwitch
  dispatch := dispatch
  recordWakeRecv := recordWakeRecv
  templates := .empty
  stats := ⟨0, 0, 0, 0, 0, 0⟩
  body := []
  ack := []
  stopping := false

/-- The counters after a fire: that of its outcome is one higher. -/
def ExecutorStats.fired (stats : ExecutorStats) : FireOutcome → ExecutorStats
  | .dispatched => { stats with firesDispatched := stats.firesDispatched + 1 }
  | .refusedUntradeablePrice => { stats with firesRefusedPrice := stats.firesRefusedPrice + 1 }
  | .refusedKillSwitch =>
    { stats with firesRefusedKillSwitch := stats.firesRefusedKillSwitch + 1 }

/-- What a check of the kill switch would meet: the clock and the file system. -/
structure Probe where
  now : ℤ
  stat : Stat

namespace ExecutorServer

/-- The kill switch's part of the guard in `handle_fire`, which asks it only if there is one. -/
def engaged (s : ExecutorServer) (probe : Probe) : Bool × ExecutorServer :=
  match s.killSwitch with
  | none => (false, s)
  | some k =>
    ((k.isEngaged probe.now probe.stat).1,
      { s with killSwitch := some (k.isEngaged probe.now probe.stat).2 })

/-- `handle_fire`: the outcome, the request it dispatches if any, and the server after it. -/
def handleFire [Double F] (s : ExecutorServer) (probe : Probe) (message : WakeMessage F) :
    FireOutcome × Option (FireRequest F) × ExecutorServer :=
  if !message.dryRun ∧
      (message.wirePriceYesDollars ≤ 0.0 ∨ message.wirePriceYesDollars ≥ 1.0) then
    (.refusedUntradeablePrice, none,
      { s with stats := { s.stats with firesRefusedPrice := s.stats.firesRefusedPrice + 1 } })
  else
    let wirePrice := snapToGrid message.wirePriceYesDollars message.priceRanges
    let (refused, s) := if !message.dryRun then s.engaged probe else (false, s)
    if refused then
      (.refusedKillSwitch, none,
        { s with stats :=
          { s.stats with firesRefusedKillSwitch := s.stats.firesRefusedKillSwitch + 1 } })
    else
      let (order, templates) := s.templates.acquire message.marketTicker message.direction
      let s := { s with
        templates := templates
        stats := { s.stats with firesDispatched := s.stats.firesDispatched + 1 } }
      let request : FireRequest F :=
        { order := order
          priceDollars := wirePrice
          exchangeIndex := message.exchangeIndex
          correlationId := message.correlationId
          correlationGroup := message.correlationGroup
          dryRun := message.dryRun }
      (.dispatched, if s.dispatch then some request else none, s)

/-! ## What a fire can do -/

/-- The price guard of `handle_fire` refuses the message. -/
def RefusesPrice [Double F] (message : WakeMessage F) : Prop :=
  message.dryRun = false ∧
    (message.wirePriceYesDollars ≤ 0.0 ∨ message.wirePriceYesDollars ≥ 1.0)

/-- The request a message is dispatched with. -/
def requestFor [Double F] (message : WakeMessage F) : FireRequest F where
  order := ⟨message.marketTicker, message.direction⟩
  priceDollars := snapToGrid message.wirePriceYesDollars message.priceRanges
  exchangeIndex := message.exchangeIndex
  correlationId := message.correlationId
  correlationGroup := message.correlationGroup
  dryRun := message.dryRun

/-- The ways a fire can go, with the outcome, the request and the kill switch it leaves: the
price is refused; a message that is no dry run and passes that guard is refused by the kill
switch, or dispatched; a dry run is dispatched without asking the kill switch. -/
inductive Fired [Double F] (s : ExecutorServer) (probe : Probe) (m : WakeMessage F) :
    FireOutcome → Option (FireRequest F) → Option KillSwitch → Prop
  | price (h : RefusesPrice m) : Fired s probe m .refusedUntradeablePrice none s.killSwitch
  | engaged (hd : m.dryRun = false) (hp : ¬ RefusesPrice m) (he : (s.engaged probe).1 = true) :
      Fired s probe m .refusedKillSwitch none (s.engaged probe).2.killSwitch
  | real (hd : m.dryRun = false) (hp : ¬ RefusesPrice m) (he : (s.engaged probe).1 = false) :
      Fired s probe m .dispatched (if s.dispatch then some (requestFor m) else none)
        (s.engaged probe).2.killSwitch
  | shadow (hd : m.dryRun = true) :
      Fired s probe m .dispatched (if s.dispatch then some (requestFor m) else none) s.killSwitch

/-- Asking the kill switch changes nothing else. -/
lemma engaged_frame (s : ExecutorServer) (probe : Probe) :
    (s.engaged probe).2 = { s with killSwitch := (s.engaged probe).2.killSwitch } := by
  unfold engaged
  cases s.killSwitch <;> rfl

/-- **Everything a fire can do.** -/
theorem handleFire_fired [Double F] (s : ExecutorServer) (probe : Probe) (m : WakeMessage F) :
    Fired s probe m (s.handleFire probe m).1 (s.handleFire probe m).2.1
      (s.handleFire probe m).2.2.killSwitch := by
  have hrequest : ∀ templates : OrderTemplates, FireRequest.mk
      (templates.acquire m.marketTicker m.direction).1
      (snapToGrid m.wirePriceYesDollars m.priceRanges) m.exchangeIndex m.correlationId
      m.correlationGroup m.dryRun = requestFor m := by
    intro templates
    rw [OrderTemplates.acquire_eq, requestFor]
  by_cases hp : RefusesPrice m
  · have hguard : (!m.dryRun) = true ∧
        (m.wirePriceYesDollars ≤ 0.0 ∨ m.wirePriceYesDollars ≥ 1.0) := by
      simpa [RefusesPrice] using hp
    rw [handleFire, if_pos hguard]
    exact Fired.price hp
  · have hguard : ¬ ((!m.dryRun) = true ∧
        (m.wirePriceYesDollars ≤ 0.0 ∨ m.wirePriceYesDollars ≥ 1.0)) := by
      simpa [RefusesPrice] using hp
    rw [handleFire, if_neg hguard]
    cases hd : m.dryRun with
    | true =>
      rw [hd] at hrequest
      simp only [Bool.not_true, Bool.false_eq_true, if_false, hrequest]
      exact Fired.shadow hd
    | false =>
      rw [hd] at hrequest
      have hframe := engaged_frame s probe
      cases he : (s.engaged probe).1 with
      | true =>
        simp only [Bool.not_false, if_true, he]
        exact Fired.engaged hd hp he
      | false =>
        simp only [Bool.not_false, if_true, he, Bool.false_eq_true, if_false, hrequest]
        have hdispatch : (s.engaged probe).2.dispatch = s.dispatch := by rw [hframe]
        rw [hdispatch]
        exact Fired.real hd hp he

section Fired

variable [Double F] {s : ExecutorServer} {probe : Probe} {m : WakeMessage F}
  {outcome : FireOutcome} {request : Option (FireRequest F)} {switch : Option KillSwitch}

/-- A fire leaves the kill switch as it was, or as a check of it does. -/
lemma Fired.killSwitch_eq (h : Fired s probe m outcome request switch) :
    switch = s.killSwitch ∨ switch = (s.engaged probe).2.killSwitch := by
  cases h with
  | price _ => exact Or.inl rfl
  | engaged _ _ _ => exact Or.inr rfl
  | real _ _ _ => exact Or.inr rfl
  | shadow _ => exact Or.inl rfl

/-- A real fire that passes the price guard is up to the kill switch. -/
lemma Fired.of_real (h : Fired s probe m outcome request switch) (hd : m.dryRun = false)
    (hp : ¬ RefusesPrice m) :
    (outcome, request) = if (s.engaged probe).1 then (.refusedKillSwitch, none)
      else (.dispatched, if s.dispatch then some (requestFor m) else none) := by
  cases h with
  | price h => exact absurd h hp
  | engaged _ _ he => rw [if_pos he]
  | real _ _ he => rw [he]; rfl
  | shadow hd' => rw [hd] at hd'; cases hd'

/-- A dry run is dispatched. -/
lemma Fired.of_dryRun (h : Fired s probe m outcome request switch) (hd : m.dryRun = true) :
    outcome = .dispatched ∧ request = if s.dispatch then some (requestFor m) else none := by
  cases h with
  | price hp => rw [hp.1] at hd; cases hd
  | engaged hd' _ _ => rw [hd'] at hd; cases hd
  | real hd' _ _ => rw [hd'] at hd; cases hd
  | shadow _ => exact ⟨rfl, rfl⟩

/-- A request is dispatched only for its message, and if that is no dry run, only past both
guards. -/
lemma Fired.of_request {r : FireRequest F} (h : Fired s probe m outcome (some r) switch) :
    r = requestFor m ∧ s.dispatch = true ∧
      (m.dryRun = false → ¬ RefusesPrice m ∧ (s.engaged probe).1 = false) := by
  generalize hr : some r = request at h
  cases h with
  | price _ => cases hr
  | engaged _ _ _ => cases hr
  | real _ hp he =>
    split_ifs at hr with hdispatch
    exact ⟨Option.some.inj hr, hdispatch, fun _ => ⟨hp, he⟩⟩
  | shadow hd =>
    split_ifs at hr with hdispatch
    refine ⟨Option.some.inj hr, hdispatch, fun hreal => ?_⟩
    rw [hd] at hreal
    cases hreal

/-- A refused price dispatches nothing. -/
lemma Fired.of_refusesPrice (h : Fired s probe m outcome request switch) (hp : RefusesPrice m) :
    outcome = .refusedUntradeablePrice ∧ request = none := by
  cases h with
  | price _ => exact ⟨rfl, rfl⟩
  | engaged _ hp' _ => exact absurd hp hp'
  | real _ hp' _ => exact absurd hp hp'
  | shadow hd =>
    rw [hp.1] at hd
    cases hd

/-- Only a check that finds the switch engaged refuses for it. -/
lemma Fired.of_refused (h : Fired s probe m .refusedKillSwitch request switch) :
    m.dryRun = false ∧ ¬ RefusesPrice m ∧ (s.engaged probe).1 = true := by
  cases h with
  | engaged hd hp he => exact ⟨hd, hp, he⟩

end Fired

/-- A fire leaves the configuration of the callbacks and the stop flag alone. -/
lemma handleFire_frame [Double F] (s : ExecutorServer) (probe : Probe) (m : WakeMessage F) :
    (s.handleFire probe m).2.2.dispatch = s.dispatch ∧
      (s.handleFire probe m).2.2.recordWakeRecv = s.recordWakeRecv ∧
      (s.handleFire probe m).2.2.stopping = s.stopping := by
  have hframe := engaged_frame s probe
  generalize (s.engaged probe).2.killSwitch = k at hframe
  unfold handleFire
  split_ifs
  · exact ⟨rfl, rfl, rfl⟩
  · simp only [hframe]
    split_ifs <;> exact ⟨rfl, rfl, rfl⟩
  · simp only
    split_ifs <;> exact ⟨rfl, rfl, rfl⟩

/-- A fire counts its outcome and nothing else. -/
lemma handleFire_stats [Double F] (s : ExecutorServer) (probe : Probe) (m : WakeMessage F) :
    (s.handleFire probe m).2.2.stats = s.stats.fired (s.handleFire probe m).1 := by
  have hframe := engaged_frame s probe
  generalize (s.engaged probe).2.killSwitch = k at hframe
  unfold handleFire
  split_ifs
  · rfl
  · simp only [hframe]
    split_ifs <;> rfl
  · simp only
    split_ifs <;> rfl

/-- A fire dispatches the request of its message, if it is dispatched and there is a callback. -/
lemma handleFire_request [Double F] (s : ExecutorServer) (probe : Probe) (m : WakeMessage F) :
    (s.handleFire probe m).2.1 =
      if (s.handleFire probe m).1 = .dispatched ∧ s.dispatch then some (requestFor m)
      else none := by
  have hfired := s.handleFire_fired probe m
  generalize (s.handleFire probe m).1 = outcome at hfired
  generalize (s.handleFire probe m).2.1 = request at hfired
  generalize (s.handleFire probe m).2.2.killSwitch = killSwitch at hfired
  cases hfired with
  | price _ => rfl
  | engaged _ _ _ => rfl
  | real _ _ _ => simp
  | shadow _ => simp

end ExecutorServer

end Hotpath
