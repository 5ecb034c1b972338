import Hotpath.Executor.ServerSteps
import Hotpath.Lib.System

set_option relaxedAutoImplicit false
set_option autoImplicit false

/-!
# Stopping the server

Three signals stop a server, each where the others do not reach: the flag at its checks, the wake
pipe in `poll`, and the shutdown of the published descriptor in `read` and `send`. Together they
miss no placement of `stop` among the steps of `serve_forever`.

## Main definitions

* `Hotpath.Executor.Signals` — the invariant of the three signals.
* `Hotpath.Executor.Blocked`.

## Main results

* `Hotpath.Executor.stop_not_lost`.
-/

namespace Hotpath

open System
open Utf8 (bytes)

variable {F ι : Type}

namespace Executor

variable [DecidableEq ι] [Double F] [CharConv F]

/-! ## The three signals -/

omit [Double F] [CharConv F] in
/-- Where the caller is behind its step, and the others where they were. -/
lemma stopper_cases {s : Executor F ι} {i j : ι} {at' : Stopper} {P : Stopper → Prop}
    (hi : P at') (hj : P (s.stoppers j)) : P ((s.stopper i at').stoppers j) := by
  by_cases h : j = i
  · subst h
    simpa [stopper] using hi
  · simpa [stopper, Function.update_of_ne h] using hj

omit [Double F] [CharConv F] in
/-- What holds of all callers still holds if it does where the one is now. -/
lemma forall_stopper {s : Executor F ι} {i : ι} {at' : Stopper} {P : Stopper → Prop}
    (h : ∀ j, P (s.stoppers j)) (hi : P at') : ∀ j, P ((s.stopper i at').stoppers j) :=
  fun j => stopper_cases hi (h j)

/-- A caller of `stop` that has written has woken `poll`. -/
def Wakes (pipe : ℕ) : Stopper → Prop
  | .idle => True
  | .stored => True
  | .written => 0 < pipe
  | .loaded _ => 0 < pipe
  | .done => 0 < pipe

/-- A pipe with a byte in it wakes `poll`, whoever wrote it. -/
lemma wakes_of_pos {pipe : ℕ} (h : 0 < pipe) (x : Stopper) : Wakes pipe x := by
  cases x with
  | idle => trivial
  | stored => trivial
  | written => exact h
  | loaded _ => exact h
  | done => exact h

/-- A caller of `stop` that has loaded the descriptor reaches the socket. -/
def Reaches (k : Socket) : Stopper → Prop
  | .idle => True
  | .stored => True
  | .written => True
  | .loaded fd => fd = k.fd
  | .done => k.shutDown = true

/-- A further shutdown takes nothing from that. -/
lemma Reaches.shutdown {k : Socket} {x : Stopper} (h : Reaches k x) (fd : ℤ) :
    Reaches (k.shutdown fd) x := by
  cases x with
  | idle => trivial
  | stored => trivial
  | written => trivial
  | loaded fd' =>
    show fd' = (k.shutdown fd).fd
    rw [k.fd_shutdown]
    exact h
  | done =>
    show (k.shutdown fd).shutDown = true
    unfold Socket.shutdown
    split_ifs
    · rfl
    · exact h

/-- The invariant of the three signals: what is published, and what the callers of `stop` that
have come so far have signalled by it. Those that came to a connection which is read from or sent
to came after its check, and so found its descriptor. -/
structure Signals (s : Executor F ι) : Prop where
  opened : s.descriptors.Open
  published : Published s.place → ∃ k, s.socket = some k ∧ s.connectionFd = k.fd
  unpublished : ¬ Published s.place → s.connectionFd = -1
  idle : s.server.stopping = false → ∀ i, s.stoppers i = .idle
  woken : ∀ i, Wakes s.pipe (s.stoppers i)
  reached : s.place = .reading ∨ s.place = .sending →
    ∀ k, s.socket = some k → ∀ i, Reaches k (s.stoppers i)

omit [DecidableEq ι] [Double F] [CharConv F] in
/-- The serving thread keeps the invariant. -/
lemma Signals.moves {s s' : Executor F ι} (h : Signals s) (hm : Moves s s') (hsame : Same s s') :
    Signals s' := by
  have hquiet : ∀ p : Place, p ≠ .reading ∧ p ≠ .sending → s'.place = p →
      (s'.place = .reading ∨ s'.place = .sending →
        ∀ k, s'.socket = some k → ∀ i, Reaches k (s'.stoppers i)) := by
    rintro p ⟨h₁, h₂⟩ rfl (h' | h')
    · exact absurd h' h₁
    · exact absurd h' h₂
  have haway : ∀ p : Place, ¬ Published p → s.place = p → s.connectionFd = -1 := by
    rintro p hp rfl
    exact h.unpublished hp
  refine ⟨hsame.descriptors ▸ h.opened, ?_, ?_, ?_, ?_, ?_⟩
  · intro hp'
    cases hm with
    | between _ hp _ _ =>
      rcases hp with hp | ⟨hp, -⟩ <;> rw [hp] at hp' <;> simp [Published] at hp'
    | accepts _ hp _ => rw [hp] at hp'; simp [Published] at hp'
    | publishes k _ _ hk hsocket hfd => exact ⟨k, by rw [hsocket, hk], hfd⟩
    | serves hp _ _ _ hsocket hfd => rw [hsocket, hfd]; exact h.published hp
    | unpublishes _ hp _ _ => rw [hp] at hp'; simp [Published] at hp'
    | closes _ hp _ _ => rw [hp] at hp'; simp [Published] at hp'
  · intro hp'
    cases hm with
    | between hp _ _ hfd =>
      rw [hfd]
      rcases hp with hp | hp
      · exact haway _ (by simp [Published]) hp
      · exact haway _ (by simp [Published]) hp
    | accepts hp _ hfd => rw [hfd]; exact haway _ (by simp [Published]) hp
    | publishes _ _ hp _ _ _ => rw [hp] at hp'; simp [Published] at hp'
    | serves _ hp _ _ _ _ => exact absurd hp hp'
    | unpublishes _ _ _ hfd => exact hfd
    | closes hp _ _ hfd => rw [hfd]; exact haway _ (by simp [Published]) hp
  · rw [hsame.stopping, hsame.stoppers]
    exact h.idle
  · rw [hsame.stoppers, hsame.pipe]
    exact h.woken
  · cases hm with
    | between _ hp _ _ =>
      rcases hp with hp | ⟨hp, -⟩
      · exact hquiet _ (by simp) hp
      · exact hquiet _ (by simp) hp
    | accepts _ hp _ => exact hquiet _ (by simp) hp
    | publishes _ _ hp _ _ _ => exact hquiet _ (by simp) hp
    | unpublishes _ hp _ _ => exact hquiet _ (by simp) hp
    | closes _ hp _ _ => exact hquiet _ (by simp) hp
    | serves _ _ hreading hsending hsocket _ =>
      -- no caller has come yet when the loop is entered, and later the socket stays
      have hentered : s'.place = .reading ∨ s'.place = .sending →
          (s.place = .reading ∨ s.place = .sending) ∨ s.server.stopping = false := by
        rintro (h' | h')
        · rcases hreading h' with h' | h'
          · exact Or.inl (Or.inl h')
          · exact Or.inr h'
        · exact Or.inl (hsending h')
      intro hp' k hk i
      rw [hsame.stoppers]
      rw [hsocket] at hk
      rcases hentered hp' with hp | hstopping
      · exact h.reached hp k hk i
      · rw [h.idle hstopping i]
        trivial

/-- Every step keeps the invariant. -/
lemma Signals.step {s s' : Executor F ι} {a : ServerAction ι} (h : Signals s) (hs : Step s a s') :
    Signals s' := by
  rcases hs.moves with ⟨i, rfl⟩ | ⟨hm, hsame⟩
  swap
  · exact h.moves hm hsame
  have hflag : ∀ {x : Stopper}, s.stoppers i = x → x ≠ .idle → ¬ s.server.stopping = false := by
    intro x hx hne hstopping
    exact hne (hx ▸ h.idle hstopping i)
  cases hs with
  | stopStore hi =>
    exact ⟨h.opened, h.published, h.unpublished, by rintro ⟨⟩, forall_stopper h.woken trivial,
      fun hp k hk => forall_stopper (h.reached hp k hk) trivial⟩
  | stopWrite hi =>
    have hpipe : 0 < if 0 ≤ s.descriptors.wakeWriteFd then s.pipe + 1 else s.pipe := by
      rw [if_pos h.opened.2.2]
      omega
    exact ⟨h.opened, h.published, h.unpublished,
      fun hstopping => absurd hstopping (hflag hi (by rintro ⟨⟩)), fun j => wakes_of_pos hpipe _,
      fun hp k hk => forall_stopper (h.reached hp k hk) trivial⟩
  | stopLoad hi =>
    have hpipe : 0 < s.pipe := by
      have := h.woken i
      rwa [hi] at this
    refine ⟨h.opened, h.published, h.unpublished,
      fun hstopping => absurd hstopping (hflag hi (by rintro ⟨⟩)), forall_stopper h.woken ?_,
      fun hp k hk => forall_stopper (h.reached hp k hk) ?_⟩
    · split_ifs <;> exact hpipe
    · obtain ⟨k', hk', hfd⟩ := h.published (by
        rcases hp with hp | hp
        · exact Or.inr (Or.inl hp)
        · exact Or.inr (Or.inr (Or.inl hp)))
      obtain rfl : k' = k := Option.some.inj (hk'.symm.trans hk)
      rw [if_pos (by omega), hfd]
      rfl
  | @stopShutdown i fd hi =>
    have hpipe : 0 < s.pipe := by
      have := h.woken i
      rwa [hi] at this
    refine ⟨h.opened, fun hp => ?_, h.unpublished,
      fun hstopping => absurd hstopping (hflag hi (by rintro ⟨⟩)),
      forall_stopper h.woken hpipe, fun hp k hk => ?_⟩
    · obtain ⟨k, hk, hfd⟩ := h.published hp
      exact ⟨k.shutdown fd, congrArg (Option.map (Socket.shutdown fd)) hk,
        hfd.trans (congrArg Nat.cast (k.fd_shutdown fd).symm)⟩
    · obtain ⟨k, hk', rfl⟩ := Option.map_eq_some_iff.mp hk
      have hreached := h.reached hp k hk'
      refine forall_stopper (fun j => (hreached j).shutdown fd) ?_
      have hfd : fd = k.fd := by
        have := hreached i
        rwa [hi] at this
      rw [hfd]
      exact k.shutDown_shutdown

/-- A server that is made to listen and not asked to stop keeps the invariant in all its runs. -/
lemma signals {server : ExecutorServer} {d : Descriptors} (hd : d.Open)
    {h : List (Executor F ι × ServerAction ι)} {s : Executor F ι}
    (hr : Run Step (new server d) h s) : Signals s := by
  refine hr.invariant ?_ fun s a s' hI hs => hI.step hs
  refine ⟨hd, ?_, fun _ => rfl, fun _ _ => rfl, fun _ => trivial, ?_⟩
  · rintro (h | h | h | h) <;> cases h
  · rintro (h | h) <;> cases h

/-! ## No thread stays blocked -/

/-- The serving thread is in `poll` and the wake pipe is not readable, or in `read` or `send` on
a connection that has not been shut down. -/
def Blocked (s : Executor F ι) : Prop :=
  match s.control with
  | .polling => ¬ (0 ≤ s.descriptors.wakeReadFd ∧ 0 < s.pipe)
  | .reading _ _ => ¬ ∃ k, s.socket = some k ∧ k.shutDown = true
  | .sending _ _ _ => ¬ ∃ k, s.socket = some k ∧ k.shutDown = true
  | _ => False

omit [DecidableEq ι] [Double F] [CharConv F] in
/-- Behind a call of `stop`, no thread is blocked. -/
lemma Signals.not_blocked {s : Executor F ι} (h : Signals s) {i : ι} (hi : s.stoppers i = .done) :
    ¬ s.Blocked := by
  have hpipe : 0 < s.pipe := by
    have := h.woken i
    rwa [hi] at this
  have hserved : s.place = .reading ∨ s.place = .sending →
      ∃ k, s.socket = some k ∧ k.shutDown = true := by
    intro hp
    obtain ⟨k, hk, -⟩ := h.published (by
      rcases hp with hp | hp
      · exact Or.inr (Or.inl hp)
      · exact Or.inr (Or.inr (Or.inl hp)))
    have := h.reached hp k hk i
    rw [hi] at this
    exact ⟨k, hk, this⟩
  unfold Blocked
  cases hc : s.control with
  | polling => exact fun hblocked => hblocked ⟨h.opened.2.1, hpipe⟩
  | reading _ _ => exact fun hblocked => hblocked (hserved (Or.inl (congrArg Control.place hc)))
  | sending _ _ _ => exact fun hblocked => hblocked (hserved (Or.inr (congrArg Control.place hc)))
  | _ => exact id

/-! ## The connection that is shut down -/

omit [DecidableEq ι] [Double F] [CharConv F] in
/-- Once the flag is set, a thread that is past accepting a connection accepts none any more. -/
lemma Moves.settled {s s' : Executor F ι} (hm : Moves s s') (hstopping : s.server.stopping = true)
    (hp : s.place ≠ .waiting ∧ s.place ≠ .accepted) :
    (s'.place ≠ .waiting ∧ s'.place ≠ .accepted) ∧
      (s'.socket = s.socket ∨ s'.socket = none) := by
  cases hm with
  | between _ hp' hsocket _ =>
    rcases hp' with hp' | ⟨-, hp' | hp'⟩
    · exact ⟨by rw [hp']; decide, Or.inl hsocket⟩
    · exact absurd hp' hp.1
    · rw [hstopping] at hp'
      cases hp'
  | accepts hp' _ _ => exact absurd hp' hp.1
  | publishes _ hp' _ _ _ _ => exact absurd hp' hp.2
  | serves _ hp' _ _ hsocket _ =>
    refine ⟨?_, Or.inl hsocket⟩
    rcases hp' with hp' | hp' | hp' | hp' <;> rw [hp'] <;> decide
  | unpublishes _ hp' hsocket _ => exact ⟨by rw [hp']; decide, Or.inl hsocket⟩
  | closes _ hp' hsocket _ => exact ⟨by rw [hp']; decide, Or.inr hsocket⟩

/-- What a step of `stop` does as far as the socket and the callers are concerned. -/
lemma Step.stops {j : ι} {s s' : Executor F ι} (hs : Step s (.stop j) s') :
    s'.control = s.control ∧ (s.server.stopping = true → s'.server.stopping = true) ∧
      (∀ k', s'.socket = some k' → ∃ k, s.socket = some k ∧ k'.serial = k.serial) ∧
      (∀ i, i ≠ j → s'.stoppers i = s.stoppers i) ∧ s.stoppers j ≠ .done ∧
      (∀ fd, s.stoppers j = .loaded fd → s'.stoppers j = .done) := by
  have hsame : ∀ k', s.socket = some k' → ∃ k, s.socket = some k ∧ k'.serial = k.serial :=
    fun k' hk' => ⟨k', hk', rfl⟩
  have hothers : ∀ at' i, i ≠ j → (s.stopper j at').stoppers i = s.stoppers i :=
    fun at' i hi => Function.update_of_ne hi _ _
  cases hs with
  | stopStore hj =>
    exact ⟨rfl, fun _ => rfl, hsame, hothers _, by rw [hj]; rintro ⟨⟩, by rw [hj]; rintro _ ⟨⟩⟩
  | stopWrite hj =>
    exact ⟨rfl, id, hsame, hothers _, by rw [hj]; rintro ⟨⟩, by rw [hj]; rintro _ ⟨⟩⟩
  | stopLoad hj =>
    exact ⟨rfl, id, hsame, hothers _, by rw [hj]; rintro ⟨⟩, by rw [hj]; rintro _ ⟨⟩⟩
  | stopShutdown hj =>
    refine ⟨rfl, id, ?_, hothers _, by rw [hj]; rintro ⟨⟩, fun _ _ => Function.update_self _ _ _⟩
    intro k' hk'
    obtain ⟨k, hk, rfl⟩ := Option.map_eq_some_iff.mp hk'
    exact ⟨k, hk, k.serial_shutdown _⟩

/-- The caller `i` of `stop` loads the descriptor. -/
def Loads (i : ι) (p : Executor F ι × ServerAction ι) : Prop :=
  p.2 = .stop i ∧ p.1.stoppers i = .written

/-- Between the load of the descriptor and the shutdown, the connection whose descriptor was
loaded is the only one that may be open. -/
def LoadedOne (i : ι) (p : Executor F ι × ServerAction ι) (s : Executor F ι) : Prop :=
  s.stoppers i = .done ∨
    s.server.stopping = true ∧ (s.place ≠ .waiting ∧ s.place ≠ .accepted) ∧
      ∃ k, p.1.socket = some k ∧ p.1.connectionFd = k.fd ∧ s.stoppers i = .loaded k.fd ∧
        ∀ k', s.socket = some k' → k'.serial = k.serial

/-- The load of a descriptor loads that of the connection that may be open. -/
lemma LoadedOne.first {i : ι} {s s' : Executor F ι} (h : Signals s) (hi : s.stoppers i = .written)
    (hs : Step s (.stop i) s') : LoadedOne i (s, .stop i) s' := by
  have hstopping : s.server.stopping = true := by
    cases hstopping : s.server.stopping with
    | true => rfl
    | false =>
      have := h.idle hstopping i
      rw [hi] at this
      cases this
  cases hs with
  | stopStore hi' => rw [hi] at hi'; cases hi'
  | stopWrite hi' => rw [hi] at hi'; cases hi'
  | stopShutdown hi' => rw [hi] at hi'; cases hi'
  | stopLoad _ =>
    by_cases hfd : 0 ≤ s.connectionFd
    · right
      have hp : Published s.place := by
        by_contra hp
        have := h.unpublished hp
        omega
      obtain ⟨k, hk, hk'⟩ := h.published hp
      refine ⟨hstopping, ?_, k, hk, hk', ?_, ?_⟩
      · show s.place ≠ .waiting ∧ s.place ≠ .accepted
        rcases hp with hp | hp | hp | hp <;> rw [hp] <;> decide
      · rw [if_pos hfd, hk']
        exact Function.update_self _ _ _
      · intro k' hk''
        rw [Option.some.inj (hk''.symm.trans hk)]
    · left
      rw [if_neg hfd]
      exact Function.update_self _ _ _

/-- After the load of a descriptor no step opens another connection. -/
lemma LoadedOne.next {i : ι} {p : Executor F ι × ServerAction ι} {s s' : Executor F ι}
    {a : ServerAction ι} (h : LoadedOne i p s) (hs : Step s a s') : LoadedOne i p s' := by
  rcases hs.moves with ⟨j, rfl⟩ | ⟨hm, hsame⟩
  · obtain ⟨hcontrol, hstopping', hsocket, hothers, hdone, hloaded⟩ := hs.stops
    rcases h with h | ⟨hstopping, hp, k, hk, hfd, hi, hserial⟩
    · by_cases hij : i = j
      · exact absurd (hij ▸ h) hdone
      · exact Or.inl (by rw [hothers i hij, h])
    · by_cases hij : i = j
      · exact Or.inl (hij ▸ hloaded k.fd (hij ▸ hi))
      · refine Or.inr ⟨hstopping' hstopping, by rwa [place, hcontrol], k, hk, hfd,
          by rw [hothers i hij, hi], fun k' hk' => ?_⟩
        obtain ⟨k'', hk'', hserial'⟩ := hsocket k' hk'
        rw [hserial', hserial k'' hk'']
  · rcases h with h | ⟨hstopping, hp, k, hk, hfd, hi, hserial⟩
    · exact Or.inl (by rw [hsame.stoppers, h])
    · obtain ⟨hp', hsocket⟩ := hm.settled hstopping hp
      refine Or.inr ⟨by rw [hsame.stopping, hstopping], hp', k, hk, hfd,
        by rw [hsame.stoppers, hi], ?_⟩
      rcases hsocket with hsocket | hsocket
      · rw [hsocket]
        exact hserial
      · rw [hsocket]
        rintro k' ⟨⟩

/-! ## The frame that is still handled -/

/-- All events of frames are of the frame `n`. -/
def OfFrame (n : ℕ) (events : List (ServerEvent F)) : Prop :=
  ∀ m event, ServerEvent.frame m event ∈ events → m = n

/-- What happened since an instant behind the store of the flag: nothing yet to any frame if one
is still read, and otherwise all of it to one frame, which is the one that is answered if one
is. -/
def LastFrame (p : Executor F ι × ServerAction ι) (s : Executor F ι) : Prop :=
  s.server.stopping = true ∧ ∃ n added, s.trace = p.1.trace ++ added ∧ OfFrame n added ∧
    (s.place = .reading → ∀ m, OfFrame m added) ∧
    (s.place = .sending → n = s.server.stats.framesRead)

omit [DecidableEq ι] [Double F] [CharConv F] in
/-- The events a frame is handled with are of that frame. -/
lemma ofFrame_map (s : Executor F ι) (events : List (Event F)) :
    OfFrame s.server.stats.framesRead (events.map s.frameEvent) := by
  intro m event hmem
  obtain ⟨_, -, heq⟩ := List.mem_map.mp hmem
  cases heq
  rfl

omit [Double F] [CharConv F] in
/-- Events of a frame after others of it. -/
lemma OfFrame.append {n : ℕ} {l₁ l₂ : List (ServerEvent F)} (h₁ : OfFrame n l₁)
    (h₂ : OfFrame n l₂) : OfFrame n (l₁ ++ l₂) := by
  intro m event hmem
  rcases List.mem_append.mp hmem with hmem | hmem
  · exact h₁ m event hmem
  · exact h₂ m event hmem

omit [DecidableEq ι] in
/-- What a step adds to the trace: events of the frame that is answered, if one is. -/
lemma Counts.frames {s s' : Executor F ι} (hc : Counts s s') :
    ∃ added, s'.trace = s.trace ++ added ∧ OfFrame s.server.stats.framesRead added ∧
      (s.place ≠ .sending → ∀ m, OfFrame m added) ∧
      (s.place = .sending → s'.place = .sending →
        s'.server.stats.framesRead = s.server.stats.framesRead) := by
  have hnil : ∀ m, OfFrame (F := F) m [] := fun m m' event hmem => by cases hmem
  cases hc with
  | silent _ hstats htrace =>
    exact ⟨[], by rw [htrace, List.append_nil], hnil _, fun _ => hnil,
      fun _ _ => by rw [hstats]⟩
  | answers moment hp hs' =>
    subst hs'
    refine ⟨[], (List.append_nil _).symm, hnil _, fun _ => hnil, fun hp' => ?_⟩
    rw [hp] at hp'
    cases hp'
  | sends bytes hp _ hstats htrace =>
    exact ⟨_, htrace, s.ofFrame_map _, fun hp' => absurd hp hp', fun _ _ => by rw [hstats]⟩
  | fires moment message hp hs' =>
    subst hs'
    exact ⟨_, rfl, s.ofFrame_map _, fun hp' => absurd (place_of_pending hp) hp', by rintro _ ⟨⟩⟩
  | ends ending _ hs' =>
    subst hs'
    have hended : ∀ m, OfFrame (F := F) m [.ended ending] := by
      intro m m' event hmem
      cases List.mem_singleton.mp hmem
    exact ⟨_, rfl, hended _, fun _ => hended, by rintro _ ⟨⟩⟩

/-- Once the flag is set, no further frame is read. -/
lemma Step.last {s s' : Executor F ι} {a : ServerAction ι} (hs : Step s a s')
    (hstopping : s.server.stopping = true) :
    s'.server.stopping = true ∧ (s'.place = .reading → s.place = .reading) ∧
      (s'.place = .sending → s.place = .reading ∨ s.place = .sending) := by
  rcases hs.moves with ⟨j, rfl⟩ | ⟨hm, hsame⟩
  · obtain ⟨hcontrol, hstopping', -⟩ := hs.stops
    have hplace : s'.place = s.place := congrArg Control.place hcontrol
    exact ⟨hstopping' hstopping, fun hp => hplace ▸ hp, fun hp => Or.inr (hplace ▸ hp)⟩
  · have hplace : ∀ p : Place, p ≠ .reading ∧ p ≠ .sending → s'.place = p →
        (s'.place = .reading → s.place = .reading) ∧
          (s'.place = .sending → s.place = .reading ∨ s.place = .sending) := by
      rintro p ⟨h₁, h₂⟩ rfl
      exact ⟨fun h => absurd h h₁, fun h => absurd h h₂⟩
    refine ⟨by rw [hsame.stopping, hstopping], ?_⟩
    cases hm with
    | between _ hp _ _ =>
      rcases hp with hp | ⟨hp, -⟩
      · exact hplace _ (by decide) hp
      · exact hplace _ (by decide) hp
    | accepts _ hp _ => exact hplace _ (by decide) hp
    | publishes _ _ hp _ _ _ => exact hplace _ (by decide) hp
    | serves _ _ hreading hsending _ _ =>
      refine ⟨fun hp => ?_, hsending⟩
      rcases hreading hp with hp | hfalse
      · exact hp
      · rw [hstopping] at hfalse
        cases hfalse
    | unpublishes _ hp _ _ => exact hplace _ (by decide) hp
    | closes _ hp _ _ => exact hplace _ (by decide) hp

/-- Every step keeps to one frame.

**Proof sketch.** What is added is of the frame that is being answered, and that one cannot change
any more: it is the one all events so far belong to, or the one that was still read when the flag
was stored. -/
lemma LastFrame.next {p : Executor F ι × ServerAction ι} {s s' : Executor F ι} {a : ServerAction ι}
    (h : LastFrame p s) (hs : Step s a s') : LastFrame p s' := by
  obtain ⟨hstopping, n, added, htrace, hof, hreading, hsending⟩ := h
  obtain ⟨hstopping', hreading', hsending'⟩ := hs.last hstopping
  obtain ⟨new, hnew, hofnew, hnone, hsame⟩ := hs.counts.1.frames
  have htrace' : s'.trace = p.1.trace ++ (added ++ new) := by
    rw [hnew, htrace, List.append_assoc]
  refine ⟨hstopping', ?_⟩
  by_cases hp : s.place = .sending
  · refine ⟨n, added ++ new, htrace', hof.append (hsending hp ▸ hofnew), fun hp' => ?_,
      fun hp' => ?_⟩
    · rw [hreading' hp'] at hp
      cases hp
    · rw [hsame hp hp', hsending hp]
  · by_cases hp' : s.place = .reading
    · exact ⟨s'.server.stats.framesRead, added ++ new, htrace',
        (hreading hp' _).append (hnone hp _), fun _ m => (hreading hp' m).append (hnone hp m),
        fun _ => rfl⟩
    · refine ⟨n, added ++ new, htrace', hof.append (hnone hp n), fun h => absurd (hreading' h) hp',
        fun h => ?_⟩
      rcases hsending' h with h | h
      · exact absurd h hp'
      · exact absurd h hp

/-- **No stop is lost.** Whatever the order of the steps of `serve_forever` and of any number of
calls of `stop`, however the peers and the system calls behave: behind a call of `stop` the server
is not blocked; the connection that a caller shuts down is the one whose descriptor it loaded; and
all that is sent, recorded or fired after the flag was stored belongs to one frame. -/
theorem stop_not_lost {path : Bytes} {calls : ListenCalls} {d : Descriptors}
    (hlisten : Descriptors.closed.listen path calls = (none, d)) {killSwitch : Option KillSwitch}
    {dispatch recordWakeRecv : Bool} {h : List (Executor F ι × ServerAction ι)} {s : Executor F ι}
    (hr : Run Step (new (ExecutorServer.new killSwitch dispatch recordWakeRecv) d) h s) :
    (∀ i, s.stoppers i = .done → ¬ s.Blocked) ∧
    (∀ i fd k, s.stoppers i = .loaded fd → s.socket = some k → (k.fd : ℤ) = fd →
      ∀ p ∈ h, Loads i p → ∃ k₁, p.1.socket = some k₁ ∧ p.1.connectionFd = k₁.fd ∧
        k.serial = k₁.serial) ∧
    (∀ p ∈ h, p.1.server.stopping = true →
      ∃ n added, s.trace = p.1.trace ++ added ∧ OfFrame n added) := by
  have hd := Descriptors.open_of_listen hlisten
  refine ⟨fun i hi => (signals hd hr).not_blocked hi, ?_, ?_⟩
  · intro i fd k hi hk hfd p hp hload
    have hone : LoadedOne i p s := by
      refine hr.since (P := Loads i) (J := LoadedOne i) ?_ ?_ p hp hload
      · rintro h₁ s₁ a s₂ hr₁ ⟨rfl, hi₁⟩ hs
        exact LoadedOne.first (signals hd hr₁) hi₁ hs
      · intro h₁ q s₁ a s₂ _ _ hone hs
        exact hone.next hs
    rcases hone with hdone | ⟨-, -, k₁, hk₁, hfd₁, -, hserial⟩
    · rw [hi] at hdone
      cases hdone
    · exact ⟨k₁, hk₁, hfd₁, hserial k hk⟩
  · intro p hp hstopping
    have hstart : ∀ (s₁ : Executor F ι) (a : ServerAction ι), s₁.server.stopping = true →
        LastFrame (s₁, a) s₁ := by
      intro s₁ a hstopping₁
      have hnil : ∀ m, OfFrame (F := F) m [] := fun m m' event hmem => by cases hmem
      exact ⟨hstopping₁, s₁.server.stats.framesRead, [], (List.append_nil _).symm, hnil _,
        fun _ => hnil, fun _ => rfl⟩
    obtain ⟨-, n, added, htrace, hframe, -⟩ : LastFrame p s :=
      hr.since (P := fun p => p.1.server.stopping = true) (J := LastFrame)
        (fun _ s₁ a _ _ hstopping₁ hs => (hstart s₁ a hstopping₁).next hs)
        (fun _ _ _ _ _ _ _ hlast hs => hlast.next hs) p hp hstopping
    exact ⟨n, added, htrace, hframe⟩

/-- A server that reads from its first connection when `stop` is called: behind the call the
connection is shut down and the server is not blocked. -/
theorem stop_not_lost_reading : ∃ (h : List (Executor ℚ Unit × ServerAction Unit))
    (s : Executor ℚ Unit), Run Step (new (ExecutorServer.new none true true) ⟨3, 4, 5⟩) h s ∧
      s.control = .reading .framePrefix 0 ∧ s.stoppers () = .done ∧ ¬ s.Blocked := by
  have hlisten := Descriptors.closed.listen_ok
    (show (bytes "executor.sock").length < kSunPathBytes by decide) 4 5 3
  obtain ⟨h, s, hr, hcontrol, hdone⟩ : ∃ (h : List (Executor ℚ Unit × ServerAction Unit))
      (s : Executor ℚ Unit), Run Step (new (ExecutorServer.new none true true) ⟨3, 4, 5⟩) h s ∧
        s.control = .reading .framePrefix 0 ∧ s.stoppers () = .done :=
    ⟨_, _, Run.cons (.start rfl) (Run.cons (.poll rfl true) (Run.cons (.polled rfl)
      (Run.cons (.accept rfl 7) (Run.cons (.publish rfl rfl) (Run.cons (.loop rfl rfl)
        (Run.cons (.stopStore (i := ()) rfl) (Run.cons (.stopWrite (i := ()) rfl)
          (Run.cons (.stopLoad (i := ()) rfl) (Run.cons (.stopShutdown (i := ()) rfl)
            Run.nil))))))))), rfl, rfl⟩
  exact ⟨h, s, hr, hcontrol, hdone, (stop_not_lost hlisten hr).1 () hdone⟩

end Executor

end Hotpath
