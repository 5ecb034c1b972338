import Mathlib.Data.Nat.ModEq
import Hotpath.Telemetry.SpscRing

set_option relaxedAutoImplicit false
set_option autoImplicit false

/-!
# The ring is a bounded queue

Each side works from an index it owns and an old copy of the other's, both of which wrap at
`2 ^ 64`. What relates them to a queue is stated in distances between counters, which a wrap does
not change: the consumer's copy of `head` lies between `tail` and `head`, the producer's copy of
`tail` at most a capacity behind `head` and not after `tail`.

## Main definitions

* `Hotpath.SpscRing.Holds` — the ring holds a queue.
* `Hotpath.SpscRing.PushAt`, `Hotpath.SpscRing.PopAt` — what a call in progress knows.

## Main results

* `Hotpath.SpscRing.Holds.tryPush_done`, `Hotpath.SpscRing.Holds.tryPop_done` — a call returns
  with an operation of the queue.
* `Hotpath.RingUse.refines` — every use of a ring is one of a bounded queue.
-/

namespace Hotpath

variable {T : Type}

/-! ## Counters -/

/-- A counter that is so far ahead of another is at that distance. -/
private lemma toNat_sub_of_eq {a b : UInt64} {n : ℕ} (h : a = b + UInt64.ofNat n)
    (hn : n < 2 ^ 64) : (a - b).toNat = n := by
  have hb := b.toNat_lt
  rw [h, UInt64.toNat_sub, UInt64.toNat_add, UInt64.toNat_ofNat']
  omega

/-- The distance to a counter grows as that counter does. -/
private lemma toNat_succ_sub {a b : UInt64} (h : (a - b).toNat + 1 < 2 ^ 64) :
    (a + 1 - b).toNat = (a - b).toNat + 1 := by
  have ha := a.toNat_lt
  have hb := b.toNat_lt
  have h1 : (1 : UInt64).toNat = 1 := rfl
  simp only [UInt64.toNat_sub, UInt64.toNat_add, h1] at h ⊢
  omega

/-- The distance from a counter that is behind shrinks as that counter grows. -/
private lemma toNat_sub_succ {a b : UInt64} (h : b ≠ a) :
    (a - (b + 1)).toNat + 1 = (a - b).toNat := by
  have ha := a.toNat_lt
  have hb := b.toNat_lt
  have h1 : (1 : UInt64).toNat = 1 := rfl
  have hne : b.toNat ≠ a.toNat := fun h' => h (UInt64.toNat_inj.mp h')
  simp only [UInt64.toNat_sub, UInt64.toNat_add, h1]
  omega

namespace SpscRing

variable {r r' : SpscRing T}

/-! ## Slots -/

/-- The number of slots divides the range of the counters. -/
private lemma length_dvd (r : SpscRing T) : r.slots.length ∣ 2 ^ 64 := by
  obtain ⟨k, hk, hlen, -⟩ := r.sized
  rw [hlen]
  exact Nat.pow_dvd_pow 2 (by omega)

/-- The number of slots is below that range. -/
private lemma length_le (r : SpscRing T) : 0 < r.slots.length ∧ r.slots.length ≤ 2 ^ 63 := by
  obtain ⟨k, hk, hlen, -⟩ := r.sized
  rw [hlen]
  exact ⟨Nat.two_pow_pos k, Nat.pow_le_pow_right (by decide) hk⟩

/-- The capacity is the number of slots. -/
lemma toNat_capacity (r : SpscRing T) : r.capacity.toNat = r.slots.length := by
  have := r.length_le
  rw [capacity, UInt64.toNat_ofNat', Nat.mod_eq_of_lt (by omega)]

/-- The capacity of a ring is not zero. -/
lemma capacity_pos (r : SpscRing T) : 0 < r.capacity := by
  rw [UInt64.lt_iff_toNat_lt, toNat_capacity]
  exact r.length_le.1

/-- The slot that a counter falls on is its remainder. -/
private lemma toNat_and_mask (r : SpscRing T) (i : UInt64) :
    (i &&& r.mask).toNat = i.toNat % r.slots.length := by
  obtain ⟨k, -, hlen, hmask⟩ := r.sized
  rw [UInt64.toNat_and, hmask, hlen, Nat.and_two_pow_sub_one_eq_mod]

/-- Counters at a distance below the number of slots fall on different slots. -/
lemma index_ne (r : SpscRing T) {i : UInt64} {n : ℕ} (hpos : 0 < n) (hn : n < r.slots.length) :
    (i &&& r.mask).toNat ≠ ((i + UInt64.ofNat n) &&& r.mask).toNat := by
  have hle := r.length_le
  rw [toNat_and_mask, toNat_and_mask, UInt64.toNat_add, UInt64.toNat_ofNat',
    Nat.mod_eq_of_lt (a := n) (by omega), Nat.mod_mod_of_dvd _ r.length_dvd]
  intro h
  have hmod : (i.toNat + 0) % r.slots.length = (i.toNat + n) % r.slots.length := by simpa using h
  have := Nat.ModEq.add_left_cancel' i.toNat hmod
  rw [Nat.ModEq, Nat.mod_eq_of_lt hle.1, Nat.mod_eq_of_lt hn] at this
  omega

/-- Writing a slot leaves their number. -/
@[simp]
lemma capacity_setSlot (r : SpscRing T) (i : UInt64) (value : T) :
    (r.setSlot i value).capacity = r.capacity := by
  simp [capacity, setSlot]

/-- A slot that is written holds the value. -/
lemma slot_setSlot_self (r : SpscRing T) (i : UInt64) (value : T) :
    (r.setSlot i value).slot i = value := by
  simp [slot, setSlot]

/-- Writing a slot leaves the others as they are. -/
lemma slot_setSlot_of_ne (r : SpscRing T) {i j : UInt64} (value : T)
    (h : (j &&& r.mask).toNat ≠ (i &&& r.mask).toNat) : (r.setSlot i value).slot j = r.slot j := by
  simp only [slot, setSlot, List.get_eq_getElem]
  exact List.getElem_set_ne h.symm _

/-! ## The invariant -/

/-- The ring holds a queue, oldest value first. -/
structure Holds (r : SpscRing T) (queue : List T) : Prop where
  fits : queue.length ≤ r.slots.length
  head_eq : r.head = r.tail + UInt64.ofNat queue.length
  slot_eq : ∀ i < queue.length, queue[i]? = some (r.slot (r.tail + UInt64.ofNat i))
  /-- The producer's copy of `tail` is not after it, and a capacity behind `head` at most. -/
  tailCache_le : queue.length ≤ (r.head - r.tailCache).toNat ∧
    (r.head - r.tailCache).toNat ≤ r.slots.length
  /-- The consumer's copy of `head` is not after it, and not before `tail`. -/
  headCache_le : (r.headCache - r.tail).toNat ≤ queue.length

/-- What a call of `try_push` knows: the index is its own, and from the check on there is room
behind the copied `tail`. -/
def PushAt (r : SpscRing T) : TryPush T → Prop
  | .loadHead _ => True
  | .loadTail _ head => head = r.head
  | .writeSlot _ head => head = r.head ∧ (r.head - r.tailCache).toNat < r.slots.length
  | .storeHead value head =>
    head = r.head ∧ (r.head - r.tailCache).toNat < r.slots.length ∧ r.slot head = value

/-- What a call of `try_pop` knows: the index is its own, and from the check on there is a value
before the copied `head`. -/
def PopAt (r : SpscRing T) : TryPop T → Prop
  | .loadTail => True
  | .loadHead tail => tail = r.tail
  | .readSlot tail => tail = r.tail ∧ r.tail ≠ r.headCache
  | .storeTail tail out => tail = r.tail ∧ r.tail ≠ r.headCache ∧ r.slot tail = out

namespace Holds

variable {queue : List T}

/-- The indices tell the length of the queue. -/
lemma toNat_sub (hr : r.Holds queue) : (r.head - r.tail).toNat = queue.length := by
  have := r.length_le
  have := hr.fits
  exact toNat_sub_of_eq hr.head_eq (by omega)

/-- A value before the copied `head` is one of the queue. -/
lemma pos_of_ne (hr : r.Holds queue) (h : r.tail ≠ r.headCache) : 0 < queue.length := by
  have := toNat_sub_succ h
  have := hr.headCache_le
  omega

/-- Room behind the copied `tail` is room in the queue. -/
lemma lt_of_lt (hr : r.Holds queue) (h : (r.head - r.tailCache).toNat < r.slots.length) :
    queue.length < r.slots.length :=
  lt_of_le_of_lt hr.tailCache_le.1 h

/-- The slot that is free to be written is none of the queue's. -/
lemma index_head_ne (hr : r.Holds queue) (h : (r.head - r.tailCache).toNat < r.slots.length)
    {i : ℕ} (hi : i < queue.length) :
    ((r.tail + UInt64.ofNat i) &&& r.mask).toNat ≠ (r.head &&& r.mask).toNat := by
  have hlt := hr.lt_of_lt h
  have hsum : r.head = r.tail + UInt64.ofNat i + UInt64.ofNat (queue.length - i) := by
    rw [hr.head_eq, UInt64.add_assoc, ← UInt64.ofNat_add, Nat.add_sub_cancel' hi.le]
  rw [hsum]
  exact r.index_ne (by omega) (by omega)

end Holds

/-! ## Steps of the producer -/

/-- A push that finds room by its copy of the other index goes on to write. -/
lemma tryPush_loadHead {r : SpscRing T} (hroom : r.head - r.tailCache < r.capacity) (value : T) :
    r.tryPush (.loadHead value) = (r, .more (.writeSlot value r.head)) :=
  if_neg (UInt64.not_le.mpr hroom)

/-- Writing the free slot leaves the queue, and what the consumer knows. -/
private lemma Holds.setSlot {queue : List T} (hr : r.Holds queue) (value : T)
    (h : (r.head - r.tailCache).toNat < r.slots.length) :
    (r.setSlot r.head value).Holds queue ∧
      ∀ c, r.PopAt c → (r.setSlot r.head value).PopAt c := by
  have hslot : ∀ i < queue.length, (r.setSlot r.head value).slot (r.tail + UInt64.ofNat i) =
      r.slot (r.tail + UInt64.ofNat i) :=
    fun i hi => r.slot_setSlot_of_ne value (hr.index_head_ne h hi)
  have hlen : (r.setSlot r.head value).slots.length = r.slots.length := List.length_set
  refine ⟨⟨by rw [hlen]; exact hr.fits, hr.head_eq, fun i hi => ?_, ?_, hr.headCache_le⟩,
    fun c hc => ?_⟩
  · rw [hr.slot_eq i hi]
    exact congrArg some (hslot i hi).symm
  · rw [hlen]
    exact hr.tailCache_le
  · cases c with
    | loadTail => trivial
    | loadHead tail => exact hc
    | readSlot tail => exact hc
    | storeTail tail out =>
      obtain ⟨rfl, hne, hout⟩ := hc
      have h0 := hslot 0 (hr.pos_of_ne hne)
      rw [show r.tail + UInt64.ofNat 0 = r.tail from UInt64.add_zero _] at h0
      exact ⟨rfl, hne, h0.trans hout⟩

/-- A step inside of `try_push` leaves the queue as it is. -/
lemma Holds.tryPush_more {queue : List T} (hr : r.Holds queue) {p p' : TryPush T} (hp : r.PushAt p)
    (h : r.tryPush p = (r', .more p')) :
    r'.Holds queue ∧ r'.PushAt p' ∧ p'.value = p.value ∧ r'.slots.length = r.slots.length ∧
      ∀ c, r.PopAt c → r'.PopAt c := by
  cases p with
  | loadHead value =>
    simp only [tryPush, ge_iff_le, UInt64.le_iff_toNat_le, toNat_capacity] at h
    split_ifs at h with hfull
    · obtain ⟨rfl, rfl⟩ : r = r' ∧ TryPush.loadTail value r.head = p' := by simpa using h
      exact ⟨hr, rfl, rfl, rfl, fun _ hc => hc⟩
    · obtain ⟨rfl, rfl⟩ : r = r' ∧ TryPush.writeSlot value r.head = p' := by simpa using h
      exact ⟨hr, ⟨rfl, by omega⟩, rfl, rfl, fun _ hc => hc⟩
  | loadTail value head =>
    obtain rfl : head = r.head := hp
    simp only [tryPush, ge_iff_le, UInt64.le_iff_toNat_le, toNat_capacity] at h
    split_ifs at h with hfull
    · simp at h
    · obtain ⟨rfl, rfl⟩ : { r with tailCache := r.tail } = r' ∧
          TryPush.writeSlot value r.head = p' := by simpa using h
      have hfits := hr.fits
      refine ⟨⟨hfits, hr.head_eq, hr.slot_eq, ?_, hr.headCache_le⟩, ⟨rfl, ?_⟩, rfl, rfl,
        fun c hc => by cases c <;> exact hc⟩
      · simp only [hr.toNat_sub]
        exact ⟨le_rfl, hfits⟩
      · simpa using hfull
  | writeSlot value head =>
    obtain ⟨rfl, hlt⟩ := hp
    obtain ⟨rfl, rfl⟩ : r.setSlot r.head value = r' ∧ TryPush.storeHead value r.head = p' := by
      simpa [tryPush] using h
    obtain ⟨hr', hpop⟩ := hr.setSlot value hlt
    have hlen : (r.setSlot r.head value).slots.length = r.slots.length := List.length_set
    exact ⟨hr', ⟨rfl, by rw [hlen]; exact hlt, r.slot_setSlot_self r.head value⟩, rfl, hlen, hpop⟩
  | storeHead value head => simp [tryPush] at h

/-- **`try_push` returns with a push of the queue**: an accepted one puts its value in, a refused
one finds the queue at its capacity. -/
theorem Holds.tryPush_done {queue : List T} (hr : r.Holds queue) {p : TryPush T} (hp : r.PushAt p)
    {accepted : Bool} (h : r.tryPush p = (r', .done accepted)) :
    ∃ queue', Fifo.Step r.slots.length queue (.push p.value accepted) queue' ∧ r'.Holds queue' ∧
      r'.slots.length = r.slots.length ∧ ∀ c, r.PopAt c → r'.PopAt c := by
  have hfits := hr.fits
  cases p with
  | loadHead value =>
    simp only [tryPush] at h
    split_ifs at h <;> simp at h
  | loadTail value head =>
    obtain rfl : head = r.head := hp
    simp only [tryPush, ge_iff_le, UInt64.le_iff_toNat_le] at h
    split_ifs at h with hfull
    · obtain ⟨rfl, rfl⟩ : { r with tailCache := r.tail } = r' ∧ false = accepted := by simpa using h
      have hge : r.slots.length ≤ queue.length := by
        rw [← hr.toNat_sub, ← toNat_capacity]
        exact hfull
      refine ⟨queue, .full (le_antisymm hfits hge), ⟨hfits, hr.head_eq, hr.slot_eq, ?_,
        hr.headCache_le⟩, rfl, fun c hc => by cases c <;> exact hc⟩
      simp only [hr.toNat_sub]
      exact ⟨le_rfl, hfits⟩
    · simp at h
  | writeSlot value head => simp [tryPush] at h
  | storeHead value head =>
    obtain ⟨rfl, hlt, hslot⟩ := hp
    obtain ⟨rfl, rfl⟩ : { r with head := r.head + 1 } = r' ∧ true = accepted := by
      simpa [tryPush] using h
    have hroom := hr.lt_of_lt hlt
    have hle := r.length_le
    refine ⟨queue ++ [value], .push hroom, ⟨?_, ?_, fun i hi => ?_, ?_, ?_⟩, rfl,
      fun c hc => by cases c <;> exact hc⟩
    · rw [List.length_append, List.length_singleton]
      exact hroom
    · simp only [List.length_append, List.length_singleton, hr.head_eq, UInt64.ofNat_add,
        UInt64.add_assoc]
      rfl
    · rw [List.length_append, List.length_singleton] at hi
      rcases Nat.lt_succ_iff_lt_or_eq.mp hi with hi | rfl
      · rw [List.getElem?_append_left hi, hr.slot_eq i hi]
        rfl
      · rw [List.getElem?_append_right le_rfl, Nat.sub_self, List.getElem?_cons_zero, ← hslot,
          hr.head_eq]
        rfl
    · have := hr.tailCache_le
      simp only [List.length_append, List.length_singleton, toNat_succ_sub
        (show (r.head - r.tailCache).toNat + 1 < 2 ^ 64 by omega)]
      omega
    · have := hr.headCache_le
      simp only [List.length_append, List.length_singleton]
      omega

/-! ## Steps of the consumer -/

/-- A pop that finds nothing by its copy of the other index loads the index. -/
lemma tryPop_loadTail {r : SpscRing T} (hcache : r.tail = r.headCache) :
    r.tryPop .loadTail = (r, .more (.loadHead r.tail)) := if_pos hcache

/-- A pop that loads the same index as its own finds the ring empty. -/
lemma tryPop_loadHead_of_eq {r : SpscRing T} (hempty : r.tail = r.head) :
    r.tryPop (.loadHead r.tail) = ({ r with headCache := r.head }, .done none) := if_pos hempty

/-- A pop that loads another index than its own goes on to read. -/
lemma tryPop_loadHead_of_ne {r : SpscRing T} (hne : r.tail ≠ r.head) :
    r.tryPop (.loadHead r.tail) = ({ r with headCache := r.head }, .more (.readSlot r.tail)) :=
  if_neg hne

/-- A step inside of `try_pop` leaves the queue as it is. -/
lemma Holds.tryPop_more {queue : List T} (hr : r.Holds queue) {c c' : TryPop T} (hc : r.PopAt c)
    (h : r.tryPop c = (r', .more c')) :
    r'.Holds queue ∧ r'.PopAt c' ∧ r'.slots.length = r.slots.length ∧
      ∀ p, r.PushAt p → r'.PushAt p := by
  cases c with
  | loadTail =>
    simp only [tryPop] at h
    split_ifs at h with hempty
    · obtain ⟨rfl, rfl⟩ : r = r' ∧ TryPop.loadHead r.tail = c' := by simpa using h
      exact ⟨hr, rfl, rfl, fun _ hp => hp⟩
    · obtain ⟨rfl, rfl⟩ : r = r' ∧ TryPop.readSlot r.tail = c' := by simpa using h
      exact ⟨hr, ⟨rfl, hempty⟩, rfl, fun _ hp => hp⟩
  | loadHead tail =>
    obtain rfl : tail = r.tail := hc
    simp only [tryPop] at h
    split_ifs at h with hempty
    · simp at h
    · obtain ⟨rfl, rfl⟩ : { r with headCache := r.head } = r' ∧ TryPop.readSlot r.tail = c' := by
        simpa using h
      refine ⟨⟨hr.fits, hr.head_eq, hr.slot_eq, hr.tailCache_le, ?_⟩, ⟨rfl, hempty⟩, rfl,
        fun p hp => by cases p <;> exact hp⟩
      exact hr.toNat_sub.le
  | readSlot tail =>
    obtain ⟨rfl, hne⟩ := hc
    obtain ⟨rfl, rfl⟩ : r = r' ∧ TryPop.storeTail r.tail (r.slot r.tail) = c' := by
      simpa [tryPop] using h
    exact ⟨hr, ⟨rfl, hne, rfl⟩, rfl, fun _ hp => hp⟩
  | storeTail tail out => simp [tryPop] at h

/-- **`try_pop` returns with a pop of the queue**: the oldest value, or nothing if there is
none. -/
theorem Holds.tryPop_done {queue : List T} (hr : r.Holds queue) {c : TryPop T} (hc : r.PopAt c)
    {result : Option T} (h : r.tryPop c = (r', .done result)) :
    ∃ queue', Fifo.Step r.slots.length queue (.pop result) queue' ∧ r'.Holds queue' ∧
      r'.slots.length = r.slots.length ∧ ∀ p, r.PushAt p → r'.PushAt p := by
  cases c with
  | loadTail =>
    simp only [tryPop] at h
    split_ifs at h <;> simp at h
  | loadHead tail =>
    obtain rfl : tail = r.tail := hc
    simp only [tryPop] at h
    split_ifs at h with hempty
    · obtain ⟨rfl, rfl⟩ : { r with headCache := r.head } = r' ∧ none = result := by simpa using h
      have hnil : queue = [] := by
        rw [← List.length_eq_zero_iff, ← hr.toNat_sub, ← hempty, UInt64.sub_self]
        rfl
      subst hnil
      refine ⟨[], .empty, ⟨hr.fits, hr.head_eq, hr.slot_eq, hr.tailCache_le, ?_⟩, rfl,
        fun p hp => by cases p <;> exact hp⟩
      exact hr.toNat_sub.le
    · simp at h
  | readSlot tail => simp [tryPop] at h
  | storeTail tail out =>
    obtain ⟨rfl, hne, rfl⟩ := hc
    obtain ⟨rfl, rfl⟩ : { r with tail := r.tail + 1 } = r' ∧ some (r.slot r.tail) = result := by
      simpa [tryPop] using h
    have hpos := hr.pos_of_ne hne
    obtain ⟨value, queue, rfl⟩ := List.exists_cons_of_length_pos hpos
    have hvalue : value = r.slot r.tail := by
      have := hr.slot_eq 0 hpos
      rw [show r.tail + UInt64.ofNat 0 = r.tail from UInt64.add_zero _] at this
      simpa using this
    have hfits := hr.fits
    have hnext : ∀ i, r.tail + 1 + UInt64.ofNat i = r.tail + UInt64.ofNat (i + 1) := by
      intro i
      rw [UInt64.add_assoc, UInt64.add_comm 1, UInt64.ofNat_add]
      rfl
    rw [← hvalue]
    rw [List.length_cons] at hfits
    refine ⟨queue, .pop, ⟨Nat.le_of_succ_le hfits, ?_, fun i hi => ?_, ?_, ?_⟩, rfl,
      fun p hp => by cases p <;> exact hp⟩
    · simp only [hnext]
      exact hr.head_eq
    · have := hr.slot_eq (i + 1) (by simpa using hi)
      rw [List.getElem?_cons_succ] at this
      rw [this]
      simp only [hnext]
      rfl
    · have := hr.tailCache_le
      rw [List.length_cons] at this
      exact ⟨Nat.le_of_succ_le this.1, this.2⟩
    · have h1 := hr.headCache_le
      have h2 := toNat_sub_succ hne
      rw [List.length_cons] at h1
      simp only
      omega

/-- The producer leaves the consumer's index. -/
lemma tail_tryPush {p : TryPush T} {o : Loop.Step (TryPush T) Bool} (h : r.tryPush p = (r', o)) :
    r'.tail = r.tail := by
  cases p <;> simp only [tryPush] at h
  · split_ifs at h <;> cases h <;> rfl
  · split_ifs at h <;> cases h <;> rfl
  · cases h
    rfl
  · cases h
    rfl

/-- The consumer leaves the producer's index. -/
lemma head_tryPop {c : TryPop T} {o : Loop.Step (TryPop T) (Option T)}
    (h : r.tryPop c = (r', o)) : r'.head = r.head := by
  cases c <;> simp only [tryPop] at h
  · split_ifs at h <;> cases h <;> rfl
  · split_ifs at h <;> cases h <;> rfl
  · cases h
    rfl
  · cases h
    rfl

end SpscRing

/-! ## Uses of a ring -/

open System (Run During)

/-- The operation of the queue that a step completes. -/
def RingEvent.op : RingEvent T → Option (Fifo.Op T)
  | .pushReturned value accepted => some (.push value accepted)
  | .popReturned result => some (.pop result)
  | _ => none

/-- The values of the calls of `try_push` that returned true, in order. -/
def pushedValues (h : List (RingUse T × RingEvent T)) : List T :=
  (h.filterMap fun p => p.2.op).filterMap Fifo.Op.pushed

/-- The values of the calls of `try_pop` that returned true, in order. -/
def poppedValues (h : List (RingUse T × RingEvent T)) : List T :=
  (h.filterMap fun p => p.2.op).filterMap Fifo.Op.popped

/-- How many values were pushed and not popped. -/
def occupancy (h : List (RingUse T × RingEvent T)) : ℕ :=
  (pushedValues h).length - (poppedValues h).length

namespace RingUse

variable {capacity : UInt64} {hcap : capacity.toNat ≤ 2 ^ 63} {h : List (RingUse T × RingEvent T)}
  {u u' : RingUse T} {e : RingEvent T} {queue : List T}

/-- A ring of some number of slots in use holds a queue, and the calls in progress know what they
should. -/
structure Holds (n : ℕ) (u : RingUse T) (queue : List T) : Prop where
  length_eq : u.ring.slots.length = n
  ring : u.ring.Holds queue
  producer : ∀ p, u.producer = .calling p → u.ring.PushAt p
  consumer : ∀ c, u.consumer = .calling c → u.ring.PopAt c

/-- A new ring holds the empty queue. -/
lemma holds_new [Inhabited T] : Holds (SpscRing.new (T := T) capacity hcap).slots.length
    (RingUse.new capacity hcap) ([] : List T) where
  length_eq := rfl
  ring := ⟨Nat.zero_le _, rfl, fun i hi => absurd hi (Nat.not_lt_zero i),
    ⟨Nat.zero_le _, by simp [RingUse.new, SpscRing.new]⟩, by simp [RingUse.new, SpscRing.new]⟩
  producer := fun p hp => by cases hp
  consumer := fun c hc => by cases hc

/-- A step that completes no operation leaves the queue. -/
lemma Holds.silent {n : ℕ} (hu : Holds n u queue) (hs : Step u e u') (he : e.op = none) :
    Holds n u' queue := by
  obtain ⟨hlen, hring, hproducer, hconsumer⟩ := hu
  cases hs with
  | callPush value =>
    exact ⟨hlen, hring, fun p hp => by cases hp; trivial, hconsumer⟩
  | push h =>
    obtain ⟨hr', hp', -, hlen', hpop⟩ := hring.tryPush_more (hproducer _ rfl) h
    exact ⟨hlen'.trans hlen, hr', fun p hp => by cases hp; exact hp',
      fun c hc => hpop c (hconsumer c hc)⟩
  | pushReturn h => cases he
  | callPop => exact ⟨hlen, hring, hproducer, fun c hc => by cases hc; trivial⟩
  | pop h =>
    obtain ⟨hr', hc', hlen', hpush⟩ := hring.tryPop_more (hconsumer _ rfl) h
    exact ⟨hlen'.trans hlen, hr', fun p hp => hpush p (hproducer p hp),
      fun c hc => by cases hc; exact hc'⟩
  | popReturn h => cases he
  | producerCallSize _ => exact ⟨hlen, hring, fun p hp => (by cases hp), hconsumer⟩
  | producerSize _ => exact ⟨hlen, hring, fun p hp => (by cases hp), hconsumer⟩
  | producerSizeReturn _ => exact ⟨hlen, hring, fun p hp => (by cases hp), hconsumer⟩
  | consumerCallSize _ => exact ⟨hlen, hring, hproducer, fun c hc => by cases hc⟩
  | consumerSize _ => exact ⟨hlen, hring, hproducer, fun c hc => by cases hc⟩
  | consumerSizeReturn _ => exact ⟨hlen, hring, hproducer, fun c hc => by cases hc⟩

/-- A step that completes an operation is that operation of the queue. -/
lemma Holds.seen {n : ℕ} (hu : Holds n u queue) (hs : Step u e u') {op : Fifo.Op T}
    (he : e.op = some op) : ∃ queue', Fifo.Step n queue op queue' ∧ Holds n u' queue' := by
  obtain ⟨rfl, hring, hproducer, hconsumer⟩ := hu
  cases hs with
  | pushReturn h =>
    cases he
    obtain ⟨queue', hop, hr', hlen', hpop⟩ := hring.tryPush_done (hproducer _ rfl) h
    exact ⟨queue', hop, hlen', hr', fun p hp => (by cases hp), fun c hc => hpop c (hconsumer c hc)⟩
  | popReturn h =>
    cases he
    obtain ⟨queue', hop, hr', hlen', hpush⟩ := hring.tryPop_done (hconsumer _ rfl) h
    exact ⟨queue', hop, hlen', hr', fun p hp => hpush p (hproducer p hp), fun c hc => by cases hc⟩
  | _ => cases he

section Refines

variable [Inhabited T]

/-- **A ring in use is a bounded queue**: the operations its calls complete, in the order they
return in, are a run of the queue. -/
theorem refines (hr : Run Step (RingUse.new capacity hcap) h u) : ∃ h' queue,
    Run (Fifo.Step (SpscRing.new (T := T) capacity hcap).slots.length) [] h' queue ∧
      Holds (SpscRing.new (T := T) capacity hcap).slots.length u queue ∧
      h'.map Prod.snd = h.filterMap fun p => p.2.op :=
  hr.simulate RingEvent.op holds_new (fun _ _ _ _ hu hs he => hu.silent hs he)
    (fun _ _ _ _ _ hu hs he => hu.seen hs he)

/-- What was pushed is what was popped and a queue of that length between the indices. -/
lemma pushedValues_eq (hr : Run Step (RingUse.new capacity hcap) h u) : ∃ queue,
    Holds (SpscRing.new (T := T) capacity hcap).slots.length u queue ∧
      pushedValues h = poppedValues h ++ queue ∧ occupancy h = queue.length := by
  obtain ⟨h', queue, hr', hu, hops⟩ := refines hr
  have heq : pushedValues h = poppedValues h ++ queue := by
    rw [pushedValues, poppedValues, ← hops]
    exact Fifo.pushed_eq hr'
  refine ⟨queue, hu, heq, ?_⟩
  rw [occupancy, heq, List.length_append]
  omega

/-- The indices tell the occupancy. -/
lemma occupancy_eq (hr : Run Step (RingUse.new capacity hcap) h u) :
    occupancy h = (u.ring.head - u.ring.tail).toNat := by
  obtain ⟨queue, hu, -, hocc⟩ := pushedValues_eq hr
  rw [hocc, hu.ring.toNat_sub]

end Refines

/-! ## Sizes -/

/-- The producer is in a call. -/
def ProducerBusy (u : RingUse T) : Prop := u.producer ≠ .idle

/-- The consumer is in a call. -/
def ConsumerBusy (u : RingUse T) : Prop := u.consumer ≠ .idle

/-- At an instant the indices have certain values. -/
def Indices (head tail : UInt64) (_ : List (RingUse T × RingEvent T)) (u : RingUse T) : Prop :=
  u.ring.head = head ∧ u.ring.tail = tail

/-- What a call of `size` of the producer knows: the index it loaded is `head`, which nobody else
moves, or `tail` at an instant of the call at which `head` was what it is. -/
def ProducerSizes (h : List (RingUse T × RingEvent T)) (u : RingUse T) : Prop :=
  match u.producer with
  | .sizing (.gotHead head) => head = u.ring.head
  | .sizing (.gotTail tail) =>
    During ProducerBusy (Indices u.ring.head tail) h
  | _ => True

/-- What a call of `size` of the consumer knows. -/
def ConsumerSizes (h : List (RingUse T × RingEvent T)) (u : RingUse T) : Prop :=
  match u.consumer with
  | .sizing (.gotTail tail) => tail = u.ring.tail
  | .sizing (.gotHead head) =>
    During ConsumerBusy (Indices head u.ring.tail) h
  | _ => True

/-- A step of the consumer leaves what the producer knows. -/
private lemma ProducerSizes.keep (hu : ProducerSizes h u) (hp : u'.producer = u.producer)
    (hhead : u'.ring.head = u.ring.head) : ProducerSizes (h ++ [(u, e)]) u' := by
  obtain ⟨r, p, c⟩ := u
  obtain ⟨r', p', c'⟩ := u'
  obtain rfl : p' = p := hp
  simp only at hhead
  match p', hu with
  | .idle, _ => trivial
  | .calling _, _ => trivial
  | .sizing (.loads _), _ => trivial
  | .sizing (.gotHead head), hu => exact hu.trans hhead.symm
  | .sizing (.gotTail tail), hu =>
    show During ProducerBusy (Indices r'.head tail) _
    rw [hhead]
    exact During.snoc hu (by simp [ProducerBusy])

/-- A step of the producer leaves what the consumer knows. -/
private lemma ConsumerSizes.keep (hu : ConsumerSizes h u) (hc : u'.consumer = u.consumer)
    (htail : u'.ring.tail = u.ring.tail) : ConsumerSizes (h ++ [(u, e)]) u' := by
  obtain ⟨r, p, c⟩ := u
  obtain ⟨r', p', c'⟩ := u'
  obtain rfl : c' = c := hc
  simp only at htail
  match c', hu with
  | .idle, _ => trivial
  | .calling _, _ => trivial
  | .sizing (.loads _), _ => trivial
  | .sizing (.gotTail tail), hu => exact hu.trans htail.symm
  | .sizing (.gotHead head), hu =>
    show During ConsumerBusy (Indices head r'.tail) _
    rw [htail]
    exact During.snoc hu (by simp [ConsumerBusy])

/-- Every step keeps what the calls of `size` know. -/
private lemma sizes_step (hp : ProducerSizes h u) (hc : ConsumerSizes h u) (hs : Step u e u') :
    ProducerSizes (h ++ [(u, e)]) u' ∧ ConsumerSizes (h ++ [(u, e)]) u' := by
  cases hs with
  | callPush value => exact ⟨trivial, hc.keep rfl rfl⟩
  | push h => exact ⟨trivial, hc.keep rfl (SpscRing.tail_tryPush h)⟩
  | pushReturn h => exact ⟨trivial, hc.keep rfl (SpscRing.tail_tryPush h)⟩
  | producerCallSize headFirst => exact ⟨trivial, hc.keep rfl rfl⟩
  | producerSizeReturn h => exact ⟨trivial, hc.keep rfl rfl⟩
  | callPop => exact ⟨hp.keep rfl rfl, trivial⟩
  | pop h => exact ⟨hp.keep rfl (SpscRing.head_tryPop h), trivial⟩
  | popReturn h => exact ⟨hp.keep rfl (SpscRing.head_tryPop h), trivial⟩
  | consumerCallSize headFirst => exact ⟨hp.keep rfl rfl, trivial⟩
  | consumerSizeReturn h => exact ⟨hp.keep rfl rfl, trivial⟩
  | @producerSize r k k' c h =>
    refine ⟨?_, hc.keep rfl rfl⟩
    match k, h with
    | .loads true, h =>
      cases h
      exact rfl
    | .loads false, h =>
      cases h
      show During ProducerBusy (Indices r.head r.tail) _
      exact During.last (by simp [ProducerBusy]) ⟨rfl, rfl⟩
  | @consumerSize r k k' p h =>
    refine ⟨hp.keep rfl rfl, ?_⟩
    match k, h with
    | .loads true, h =>
      cases h
      show During ConsumerBusy (Indices r.head r.tail) _
      exact During.last (by simp [ConsumerBusy]) ⟨rfl, rfl⟩
    | .loads false, h =>
      cases h
      exact rfl

/-- What the calls of `size` know in a run. -/
private lemma sizes_run [Inhabited T] (hr : Run Step (RingUse.new capacity hcap) h u) :
    ProducerSizes h u ∧ ConsumerSizes h u := by
  refine hr.history_invariant (I := fun h u => ProducerSizes h u ∧ ConsumerSizes h u) ⟨?_, ?_⟩
    fun _ _ _ _ _ hu hs => sizes_step hu.1 hu.2 hs
  · trivial
  · trivial

/-! ## The ring over whole runs -/

/-- The slot the producer is writing, from the check that there is room to the store that
publishes it. -/
def writing (u : RingUse T) : Option ℕ :=
  match u.producer with
  | .calling (.writeSlot _ head) => some (head &&& u.ring.mask).toNat
  | .calling (.storeHead _ head) => some (head &&& u.ring.mask).toNat
  | _ => none

/-- The slot the consumer is reading, from the check that there is a value to the store that gives
it back. -/
def reading (u : RingUse T) : Option ℕ :=
  match u.consumer with
  | .calling (.readSlot tail) => some (tail &&& u.ring.mask).toNat
  | .calling (.storeTail tail _) => some (tail &&& u.ring.mask).toNat
  | _ => none

/-- The producer writes at `head`, and behind its copy of `tail` there is room. -/
private lemma Holds.of_writing {n i : ℕ} (hu : Holds n u queue) (hw : u.writing = some i) :
    i = (u.ring.head &&& u.ring.mask).toNat ∧
      (u.ring.head - u.ring.tailCache).toNat < u.ring.slots.length := by
  obtain ⟨r, p, c⟩ := u
  match p, hw, hu.producer with
  | .calling (.writeSlot value head), hw, hp =>
    obtain ⟨hhead, hlt⟩ := hp _ rfl
    exact ⟨(Option.some.inj hw).symm.trans (by rw [hhead]), hlt⟩
  | .calling (.storeHead value head), hw, hp =>
    obtain ⟨hhead, hlt, -⟩ := hp _ rfl
    exact ⟨(Option.some.inj hw).symm.trans (by rw [hhead]), hlt⟩

/-- The consumer reads at `tail`, and before its copy of `head` there is a value. -/
private lemma Holds.of_reading {n i : ℕ} (hu : Holds n u queue) (hw : u.reading = some i) :
    i = (u.ring.tail &&& u.ring.mask).toNat ∧ u.ring.tail ≠ u.ring.headCache := by
  obtain ⟨r, p, c⟩ := u
  match c, hw, hu.consumer with
  | .calling (.readSlot tail), hw, hc =>
    obtain ⟨htail, hne⟩ := hc _ rfl
    exact ⟨(Option.some.inj hw).symm.trans (by rw [htail]), hne⟩
  | .calling (.storeTail tail value), hw, hc =>
    obtain ⟨htail, hne, -⟩ := hc _ rfl
    exact ⟨(Option.some.inj hw).symm.trans (by rw [htail]), hne⟩

/-- The two sides access different slots. -/
private lemma Holds.writing_ne_reading {n i j : ℕ} (hu : Holds n u queue)
    (hw : u.writing = some i) (hread : u.reading = some j) : i ≠ j := by
  obtain ⟨rfl, hlt⟩ := hu.of_writing hw
  obtain ⟨rfl, hne⟩ := hu.of_reading hread
  have h0 := hu.ring.index_head_ne hlt (hu.ring.pos_of_ne hne)
  rw [show u.ring.tail + UInt64.ofNat 0 = u.ring.tail from UInt64.add_zero _] at h0
  exact h0.symm

section Linearizable

variable [Inhabited T]

/-- A refused push returns at an instant at which the ring is full. -/
private lemma full_of_refused (hr : Run Step (RingUse.new capacity hcap) h u) {value : T}
    (hs : Step u (.pushReturned value false) u') : occupancy h = u.ring.capacity.toNat := by
  obtain ⟨queue, hu, -, hocc⟩ := pushedValues_eq hr
  obtain ⟨queue', hop, -⟩ := hu.seen hs rfl
  rw [hocc, SpscRing.toNat_capacity, hu.length_eq]
  cases hop with
  | full hfull => exact hfull

/-- A failed pop returns at an instant at which the ring is empty. -/
private lemma empty_of_none (hr : Run Step (RingUse.new capacity hcap) h u)
    (hs : Step u (.popReturned none) u') : occupancy h = 0 := by
  obtain ⟨queue, hu, -, hocc⟩ := pushedValues_eq hr
  obtain ⟨queue', hop, -⟩ := hu.seen hs rfl
  rw [hocc]
  cases hop with
  | empty => rfl

/-- A size the producer gets is the occupancy at an instant of its call. -/
private lemma producer_size (hr : Run Step (RingUse.new capacity hcap) h u) {n : UInt64}
    (hs : Step u (.producerSizeReturned n) u') :
    During ProducerBusy (fun h₁ _ => occupancy h₁ = n.toNat)
      (h ++ [(u, .producerSizeReturned n)]) := by
  have hsizes := (sizes_run hr).1
  cases hs with
  | @producerSizeReturn r k _ c hk =>
    match k, hk, hsizes with
    | .loads true, hk, _ => cases hk
    | .loads false, hk, _ => cases hk
    | .gotHead head, hk, hsizes =>
      obtain rfl : head = r.head := hsizes
      cases hk
      exact During.last (by simp [ProducerBusy]) (occupancy_eq hr)
    | .gotTail tail, hk, hsizes =>
      cases hk
      have hd : During ProducerBusy (Indices r.head tail) h := hsizes
      refine During.snoc (hr.during_imp hd fun h₁ s₁ hr₁ heq => ?_) (by simp [ProducerBusy])
      rw [occupancy_eq hr₁, heq.1, heq.2]

/-- A size the consumer gets is the occupancy at an instant of its call. -/
private lemma consumer_size (hr : Run Step (RingUse.new capacity hcap) h u) {n : UInt64}
    (hs : Step u (.consumerSizeReturned n) u') :
    During ConsumerBusy (fun h₁ _ => occupancy h₁ = n.toNat)
      (h ++ [(u, .consumerSizeReturned n)]) := by
  have hsizes := (sizes_run hr).2
  cases hs with
  | @consumerSizeReturn r k _ p hk =>
    match k, hk, hsizes with
    | .loads true, hk, _ => cases hk
    | .loads false, hk, _ => cases hk
    | .gotTail tail, hk, hsizes =>
      obtain rfl : tail = r.tail := hsizes
      cases hk
      exact During.last (by simp [ConsumerBusy]) (occupancy_eq hr)
    | .gotHead head, hk, hsizes =>
      cases hk
      have hd : During ConsumerBusy (Indices head r.tail) h := hsizes
      refine During.snoc (hr.during_imp hd fun h₁ s₁ hr₁ heq => ?_) (by simp [ConsumerBusy])
      rw [occupancy_eq hr₁, heq.1, heq.2]

/-- **The ring is a linearizable bounded queue.** In every run of a producer and a consumer, of
any length and so also beyond a wrap of the counters: the values popped are the first of those
pushed; never more are in the ring than its capacity, which is the requested one rounded up to a
power of two; the slot that is written is never the one that is read; a push is refused, a pop
fails and a size is returned only if the ring is full, is empty and has that many values at some
instant of the call.

**Proof sketch.** A run is one of the queue of that capacity, in which an operation happens with
the last step of its call. For sizes, the index that is loaded first is the caller's own, which
nobody else moves, or the other one, and then what is returned is the occupancy at that load. -/
theorem ring_linearizable (hr : Run Step (RingUse.new capacity hcap) h u) :
    poppedValues h <+: pushedValues h ∧
    occupancy h ≤ u.ring.capacity.toNat ∧
    u.ring.capacity.toNat = bitCeil (max 2 capacity.toNat) ∧
    (∀ i j, u.writing = some i → u.reading = some j → i ≠ j) ∧
    ∀ e u', Step u e u' →
      (∀ value, e = .pushReturned value false → During ProducerBusy
        (fun h₁ _ => occupancy h₁ = u.ring.capacity.toNat) (h ++ [(u, e)])) ∧
      (e = .popReturned none → During ConsumerBusy
        (fun h₁ _ => occupancy h₁ = 0) (h ++ [(u, e)])) ∧
      (∀ n, e = .producerSizeReturned n → During ProducerBusy
        (fun h₁ _ => occupancy h₁ = n.toNat) (h ++ [(u, e)])) ∧
      (∀ n, e = .consumerSizeReturned n → During ConsumerBusy
        (fun h₁ _ => occupancy h₁ = n.toNat) (h ++ [(u, e)])) := by
  obtain ⟨queue, hu, heq, hocc⟩ := pushedValues_eq hr
  refine ⟨⟨queue, heq.symm⟩, ?_, ?_, fun i j hw hread => hu.writing_ne_reading hw hread,
    fun e u' hs => ⟨?_, ?_, ?_, ?_⟩⟩
  · rw [hocc, SpscRing.toNat_capacity]
    exact hu.ring.fits
  · rw [SpscRing.toNat_capacity, hu.length_eq, SpscRing.new, List.length_replicate]
    congr 1
    split_ifs with hlt
    · have : capacity.toNat < 2 := hlt
      omega
    · have : ¬ capacity.toNat < 2 := hlt
      omega
  · rintro value rfl
    refine During.last ?_ (full_of_refused hr hs)
    cases hs
    simp [ProducerBusy]
  · rintro rfl
    refine During.last ?_ (empty_of_none hr hs)
    cases hs
    simp [ConsumerBusy]
  · rintro n rfl
    exact producer_size hr hs
  · rintro n rfl
    exact consumer_size hr hs

end Linearizable

/-- Two values go through a ring for which a single slot was requested, the second pushed while the
first is popped. A third is refused meanwhile, when the ring was full; and after both a pop fails,
when it was empty. -/
theorem ring_linearizable_two : ∃ (h h' : List (RingUse ℕ × RingEvent ℕ)) (u v u' v' : RingUse ℕ),
    Run Step (RingUse.new 1 (by decide)) h u ∧ Step u (.pushReturned 9 false) v ∧
      During ProducerBusy (fun h₁ _ => occupancy h₁ = 2) (h ++ [(u, .pushReturned 9 false)]) ∧
      Run Step v h' u' ∧ poppedValues (h ++ [(u, .pushReturned 9 false)] ++ h') = [7, 8] ∧
      poppedValues (h ++ [(u, .pushReturned 9 false)] ++ h') <+:
        pushedValues (h ++ [(u, .pushReturned 9 false)] ++ h') ∧
      Step u' (.popReturned none) v' ∧ During ConsumerBusy (fun h₁ _ => occupancy h₁ = 0)
        ((h ++ [(u, .pushReturned 9 false)] ++ h') ++ [(u', .popReturned none)]) := by
  have hrun : ∃ (h h' : List (RingUse ℕ × RingEvent ℕ)) (u v u' v' : RingUse ℕ),
      Run Step (RingUse.new 1 (by decide)) h u ∧ Step u (.pushReturned 9 false) v ∧
        Run Step v h' u' ∧ Step u' (.popReturned none) v' ∧
        poppedValues (h ++ [(u, .pushReturned 9 false)] ++ h') = [7, 8] :=
    ⟨_, _, _, _, _, _, .cons (.callPush 7) (.cons .callPop (.cons (.push rfl) (.cons (.pop rfl)
      (.cons (.push rfl) (.cons (.pushReturn rfl) (.cons (.callPush 8) (.cons (.pop rfl)
        (.cons (.push rfl) (.cons (.pop rfl) (.cons (.push rfl) (.cons (.pushReturn rfl)
          (.cons (.callPush 9) (.cons (.push rfl) .nil))))))))))))), .pushReturn rfl,
      .cons (.popReturn rfl) (.cons .callPop (.cons (.pop rfl) (.cons (.pop rfl) (.cons (.pop rfl)
        (.cons (.popReturn rfl) (.cons .callPop (.cons (.pop rfl) .nil))))))), .popReturn rfl, rfl⟩
  obtain ⟨h, h', u, v, u', v', hr, hs, hr', hs', hpopped⟩ := hrun
  obtain ⟨-, -, hcapacity, -, hevents⟩ := ring_linearizable hr
  have hfull := (hevents _ _ hs).1 9 rfl
  rw [hcapacity] at hfull
  have hwhole := (hr.snoc hs).append hr'
  obtain ⟨hpre, -, -, -, hevents'⟩ := ring_linearizable hwhole
  exact ⟨h, h', u, v, u', v', hr, hs, hfull, hr', hpopped, hpre, hs', (hevents' _ _ hs').2.1 rfl⟩

end RingUse

end Hotpath
