import Mathlib.Algebra.Group.Nat.Defs
import Mathlib.Data.Nat.Log
import Tpcc.Lib.Transition

/-! The single-producer, single-consumer ring of `spsc_circular_queue.h`, with the atomic steps of
one producer's `TryPush` calls and one consumer's `TryPop` calls.  Indices are 64-bit words that
wrap. -/

namespace Tpcc.Spsc

open Lib

/-- The smallest power of two that is at least `n`. -/
def bitCeil (n : Nat) : Nat := 2 ^ Nat.clog 2 n

/-- The fields of a queue.  A slot is `none` when it holds no value to read: it is
default-constructed, or its value was moved out. -/
structure TSpscCircularQueue (α : Type) where
  queue : List (Option α)
  capacity : UInt64
  capacityMask : UInt64
  head : UInt64
  cachedTail : UInt64
  tail : UInt64
  cachedHead : UInt64

/-- `Resize` of a new queue. -/
def resize {α : Type} (capacity : UInt64) : TSpscCircularQueue α :=
  let ceil := if capacity ≠ 0 then UInt64.ofNat (bitCeil capacity.toNat) else 0
  { queue := List.replicate ceil.toNat none
    capacity := ceil
    capacityMask := if ceil ≠ 0 then ceil - 1 else 0
    head := 0
    cachedTail := 0
    tail := 0
    cachedHead := 0 }

/-- Where the producer stands in `TryPush`.  After the load of `Tail` it carries the number of
values that the queue held at that load. -/
inductive Producer (α : Type)
  | idle
  | loaded (item : α) (head : UInt64)
  | refreshed (item : α) (head : UInt64) (occupied : Nat)
  | written (item : α) (head : UInt64)

/-- Where the consumer stands in `TryPop`. -/
inductive Consumer (α : Type)
  | idle
  | loaded (tail : UInt64)
  | refreshed (tail : UInt64) (occupied : Nat)
  | taken (item : Option α) (tail : UInt64)

/-- A queue with its two threads, and the values pushed and popped so far: a value is pushed by the
store to `Head` and popped by the store to `Tail`. -/
structure State (α : Type) where
  q : TSpscCircularQueue α
  producer : Producer α
  consumer : Consumer α
  pushed : List α
  popped : List (Option α)

/-- What a step shows: the slot contents that a write replaces and that a read finds, and the
results of the calls, a failure with the number of values the queue held at the load of the other
side's index. -/
inductive Event (α : Type)
  | internal
  | slotWrite (previous : Option (Option α))
  | slotRead (found : Option (Option α))
  | pushTrue (item : α)
  | pushFalse (occupied : Nat)
  | popTrue (item : Option α)
  | popFalse (occupied : Nat)

namespace State

variable {α : Type}

/-- The number of values in the queue. -/
def occupied (s : State α) : Nat := s.pushed.length - s.popped.length

/-- `head & CapacityMask`. -/
def slot (s : State α) (index : UInt64) : Nat := (index &&& s.q.capacityMask).toNat

/-- The slot write of `TryPush`. -/
def writeSlot (s : State α) (item : α) (head : UInt64) : Event α × State α :=
  (.slotWrite s.q.queue[s.slot head]?,
    { s with
      q := { s.q with queue := s.q.queue.set (s.slot head) (some item) }
      producer := .written item head })

/-- The next step of the producer, which pushes `next` when it is not inside a call. -/
def tryPush (s : State α) (next : α) : Event α × State α :=
  match s.producer with
  | .idle => (.internal, { s with producer := .loaded next s.q.head })
  | .loaded item head =>
    if head - s.q.cachedTail = s.q.capacity then
      (.internal,
        { s with
          q := { s.q with cachedTail := s.q.tail }
          producer := .refreshed item head s.occupied })
    else
      s.writeSlot item head
  | .refreshed item head occupied =>
    if head - s.q.cachedTail = s.q.capacity then
      (.pushFalse occupied, { s with producer := .idle })
    else
      s.writeSlot item head
  | .written item head =>
    (.pushTrue item,
      { s with
        q := { s.q with head := head + 1 }
        producer := .idle
        pushed := s.pushed ++ [item] })

/-- The slot read of `TryPop`. -/
def readSlot (s : State α) (tail : UInt64) : Event α × State α :=
  (.slotRead s.q.queue[s.slot tail]?,
    { s with
      q := { s.q with queue := s.q.queue.set (s.slot tail) none }
      consumer := .taken s.q.queue[s.slot tail]?.join tail })

/-- The next step of the consumer. -/
def tryPop (s : State α) : Event α × State α :=
  match s.consumer with
  | .idle =>
    if s.q.capacity = 0 then (.popFalse s.occupied, s)
    else (.internal, { s with consumer := .loaded s.q.tail })
  | .loaded tail =>
    if tail = s.q.cachedHead then
      (.internal,
        { s with
          q := { s.q with cachedHead := s.q.head }
          consumer := .refreshed tail s.occupied })
    else
      s.readSlot tail
  | .refreshed tail occupied =>
    if tail = s.q.cachedHead then (.popFalse occupied, { s with consumer := .idle })
    else s.readSlot tail
  | .taken item tail =>
    (.popTrue item,
      { s with
        q := { s.q with tail := tail + 1 }
        consumer := .idle
        popped := s.popped ++ [item] })

end State

/-- Which of the two threads takes the next step. -/
inductive Turn (α : Type)
  | producer (next : α)
  | consumer

/-- One step of an interleaving. -/
def step {α : Type} (s : State α) : Turn α → Option (Event α × State α)
  | .producer next => some (s.tryPush next)
  | .consumer => some s.tryPop

/-- A queue after `Resize(capacity)`, before any call. -/
def start (α : Type) (capacity : UInt64) : State α := ⟨resize capacity, .idle, .idle, [], []⟩

/-- The runs of a queue after `Resize(capacity)`. -/
def lts (α : Type) (capacity : UInt64) : Lts (State α) (Event α) :=
  .ofStep (· = start α capacity) step

end Tpcc.Spsc
