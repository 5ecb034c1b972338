import Mathlib.Algebra.Ring.Nat
import Mathlib.Data.Nat.Log
import Hotpath.Lib.Fifo
import Hotpath.Lib.Loop

set_option relaxedAutoImplicit false
set_option autoImplicit false

/-!
# The ring between the recording thread and the writer thread

`SpscRing`, as one producer and one consumer use it. A call of `try_push`, `try_pop` or `size`
is cut into its loads, slot accesses and stores, and each of these is one step; what a call has
read so far is the state of the call. The steps of the two sides interleave freely.

## Main definitions

* `Hotpath.SpscRing` — the memory of a ring.
* `Hotpath.SpscRing.tryPush`, `Hotpath.SpscRing.tryPop`, `Hotpath.SpscRing.size` — one step of a
  call.
* `Hotpath.RingUse`, `Hotpath.RingUse.Step` — a ring with its two sides, and their steps.
-/

namespace Hotpath

variable {T : Type}

/-- `std::bit_ceil`. -/
def bitCeil (n : ℕ) : ℕ := 2 ^ Nat.clog 2 n

/-- The memory of an `SpscRing`: the producer's index and its copy of the consumer's, the
consumer's and its copy of the producer's, the slots and the mask. -/
structure SpscRing (T : Type) where
  head : UInt64
  tailCache : UInt64
  tail : UInt64
  headCache : UInt64
  slots : List T
  mask : UInt64
  /-- The number of slots is a power of two that a counter can hold, and the mask is one less. -/
  sized : ∃ k ≤ 63, slots.length = 2 ^ k ∧ mask.toNat = 2 ^ k - 1

namespace SpscRing

/-- The constructor: the capacity is rounded up to a power of two, at least two. -/
def new [Inhabited T] (capacity : UInt64) (h : capacity.toNat ≤ 2 ^ 63) : SpscRing T where
  head := 0
  tailCache := 0
  tail := 0
  headCache := 0
  slots := List.replicate (bitCeil (if capacity < 2 then 2 else capacity.toNat)) default
  mask := UInt64.ofNat (bitCeil (if capacity < 2 then 2 else capacity.toNat) - 1)
  sized := by
    have hle : (if capacity < 2 then 2 else capacity.toNat) ≤ 2 ^ 63 := by
      split_ifs
      · decide
      · exact h
    have hk := Nat.clog_le_of_le_pow hle
    refine ⟨_, hk, List.length_replicate .., ?_⟩
    have hpow := Nat.pow_le_pow_right (n := 2) (by decide) hk
    rw [bitCeil, UInt64.toNat_ofNat', Nat.mod_eq_of_lt (by omega)]

variable (r : SpscRing T)

/-- `slots_.size()`, which `capacity` returns. -/
def capacity : UInt64 := UInt64.ofNat r.slots.length

/-- A counter falls on a slot. -/
lemma index_lt (i : UInt64) : (i &&& r.mask).toNat < r.slots.length := by
  obtain ⟨k, -, hlen, hmask⟩ := r.sized
  rw [UInt64.toNat_and, hmask, hlen, Nat.and_two_pow_sub_one_eq_mod]
  exact Nat.mod_lt _ (Nat.two_pow_pos k)

/-- `slots_[i & mask_]`. -/
def slot (i : UInt64) : T := r.slots.get ⟨(i &&& r.mask).toNat, r.index_lt i⟩

/-- `slots_[i & mask_] = value`. -/
def setSlot (i : UInt64) (value : T) : SpscRing T :=
  { r with
    slots := r.slots.set (i &&& r.mask).toNat value
    sized := by simpa using r.sized }

end SpscRing

/-! ## Calls -/

/-- Where a call of `try_push` is. -/
inductive TryPush (T : Type) where
  | loadHead (value : T)
  | loadTail (value : T) (head : UInt64)
  | writeSlot (value : T) (head : UInt64)
  | storeHead (value : T) (head : UInt64)

/-- The value a call of `try_push` is to push. -/
def TryPush.value : TryPush T → T
  | .loadHead value => value
  | .loadTail value _ => value
  | .writeSlot value _ => value
  | .storeHead value _ => value

/-- Where a call of `try_pop` is. -/
inductive TryPop (T : Type) where
  | loadTail
  | loadHead (tail : UInt64)
  | readSlot (tail : UInt64)
  | storeTail (tail : UInt64) (out : T)

/-- Where a call of `size` is; which index it loads first is up to the compiler. -/
inductive SizeCall where
  | loads (headFirst : Bool)
  | gotHead (head : UInt64)
  | gotTail (tail : UInt64)

namespace SpscRing

/-- A step of `try_push`: the ring after it, and the rest of the call or its result. -/
def tryPush (r : SpscRing T) : TryPush T → SpscRing T × Loop.Step (TryPush T) Bool
  | .loadHead value =>
    if r.head - r.tailCache ≥ r.capacity then (r, .more (.loadTail value r.head))
    else (r, .more (.writeSlot value r.head))
  | .loadTail value head =>
    let r := { r with tailCache := r.tail }
    if head - r.tailCache ≥ r.capacity then (r, .done false)
    else (r, .more (.writeSlot value head))
  | .writeSlot value head => (r.setSlot head value, .more (.storeHead value head))
  | .storeHead _ head => ({ r with head := head + 1 }, .done true)

/-- A step of `try_pop`: the ring after it, and the rest of the call or the value it took, if it
returns true. -/
def tryPop (r : SpscRing T) : TryPop T → SpscRing T × Loop.Step (TryPop T) (Option T)
  | .loadTail =>
    if r.tail = r.headCache then (r, .more (.loadHead r.tail)) else (r, .more (.readSlot r.tail))
  | .loadHead tail =>
    let r := { r with headCache := r.head }
    if tail = r.headCache then (r, .done none) else (r, .more (.readSlot tail))
  | .readSlot tail => (r, .more (.storeTail tail (r.slot tail)))
  | .storeTail tail out => ({ r with tail := tail + 1 }, .done (some out))

/-- A step of `size`, which leaves the ring as it is. -/
def size (r : SpscRing T) : SizeCall → Loop.Step SizeCall UInt64
  | .loads true => .more (.gotHead r.head)
  | .loads false => .more (.gotTail r.tail)
  | .gotHead head => .done (head - r.tail)
  | .gotTail tail => .done (r.head - tail)

end SpscRing

/-! ## The two sides -/

/-- What a side is doing: nothing, a call of its own operation, or a call of `size`. -/
inductive Side (C : Type) where
  | idle
  | calling (call : C)
  | sizing (call : SizeCall)

/-- A ring in use. -/
structure RingUse (T : Type) where
  ring : SpscRing T
  producer : Side (TryPush T)
  consumer : Side (TryPop T)

/-- What is seen of a step of a ring in use: a call or a return of the producer or the consumer,
or neither. -/
inductive RingEvent (T : Type) where
  | internal
  | pushCalled (value : T)
  | pushReturned (value : T) (accepted : Bool)
  | popCalled
  | popReturned (result : Option T)
  | producerSizeCalled
  | producerSizeReturned (n : UInt64)
  | consumerSizeCalled
  | consumerSizeReturned (n : UInt64)

/-- A ring that was constructed and not used yet. -/
def RingUse.new [Inhabited T] (capacity : UInt64) (h : capacity.toNat ≤ 2 ^ 63) : RingUse T :=
  ⟨SpscRing.new capacity h, .idle, .idle⟩

/-- The steps of a ring in use: a side that is idle calls an operation, one that is not takes the
next step of its call. -/
inductive RingUse.Step : RingUse T → RingEvent T → RingUse T → Prop
  | callPush {r : SpscRing T} {c : Side (TryPop T)} (value : T) :
      Step ⟨r, .idle, c⟩ (.pushCalled value) ⟨r, .calling (.loadHead value), c⟩
  | push {r r' : SpscRing T} {p p' : TryPush T} {c : Side (TryPop T)}
      (h : r.tryPush p = (r', .more p')) :
      Step ⟨r, .calling p, c⟩ .internal ⟨r', .calling p', c⟩
  | pushReturn {r r' : SpscRing T} {p : TryPush T} {c : Side (TryPop T)} {accepted : Bool}
      (h : r.tryPush p = (r', .done accepted)) :
      Step ⟨r, .calling p, c⟩ (.pushReturned p.value accepted) ⟨r', .idle, c⟩
  | callPop {r : SpscRing T} {p : Side (TryPush T)} :
      Step ⟨r, p, .idle⟩ .popCalled ⟨r, p, .calling .loadTail⟩
  | pop {r r' : SpscRing T} {p : Side (TryPush T)} {c c' : TryPop T}
      (h : r.tryPop c = (r', .more c')) :
      Step ⟨r, p, .calling c⟩ .internal ⟨r', p, .calling c'⟩
  | popReturn {r r' : SpscRing T} {p : Side (TryPush T)} {c : TryPop T} {result : Option T}
      (h : r.tryPop c = (r', .done result)) :
      Step ⟨r, p, .calling c⟩ (.popReturned result) ⟨r', p, .idle⟩
  | producerCallSize {r : SpscRing T} {c : Side (TryPop T)} (headFirst : Bool) :
      Step ⟨r, .idle, c⟩ .producerSizeCalled ⟨r, .sizing (.loads headFirst), c⟩
  | producerSize {r : SpscRing T} {k k' : SizeCall} {c : Side (TryPop T)}
      (h : r.size k = .more k') : Step ⟨r, .sizing k, c⟩ .internal ⟨r, .sizing k', c⟩
  | producerSizeReturn {r : SpscRing T} {k : SizeCall} {n : UInt64} {c : Side (TryPop T)}
      (h : r.size k = .done n) : Step ⟨r, .sizing k, c⟩ (.producerSizeReturned n) ⟨r, .idle, c⟩
  | consumerCallSize {r : SpscRing T} {p : Side (TryPush T)} (headFirst : Bool) :
      Step ⟨r, p, .idle⟩ .consumerSizeCalled ⟨r, p, .sizing (.loads headFirst)⟩
  | consumerSize {r : SpscRing T} {k k' : SizeCall} {p : Side (TryPush T)}
      (h : r.size k = .more k') : Step ⟨r, p, .sizing k⟩ .internal ⟨r, p, .sizing k'⟩
  | consumerSizeReturn {r : SpscRing T} {k : SizeCall} {n : UInt64} {p : Side (TryPush T)}
      (h : r.size k = .done n) : Step ⟨r, p, .sizing k⟩ (.consumerSizeReturned n) ⟨r, p, .idle⟩

end Hotpath
