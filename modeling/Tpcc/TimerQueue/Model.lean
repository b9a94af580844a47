import Mathlib.Algebra.GroupWithZero.Nat
import Tpcc.Lib.Sorter

/-! The timer wheel of `timer_queue.h`.  A queue has a ring of buckets, of which the current one is
popped through a cursor and kept sorted behind it, and the others collect items for later in any
order.  Deadlines are points of a bounded linear order, whose ends are `TTimePoint::max()` and
`TTimePoint::min()`. -/

namespace Tpcc.TimerQueue

open Lib

structure TItem (τ α : Type) where
  deadline : τ
  value : α
deriving DecidableEq, Repr

structure TBucket (τ α : Type) where
  items : List (TItem τ α)
  minDeadline : τ
  maxDeadline : τ
  isSorted : Bool
deriving Repr

section

variable {τ α : Type} [LinearOrder τ] [BoundedOrder τ]

namespace TBucket

/-- A new bucket, and the bucket that `Clear` leaves. -/
def clear : TBucket τ α := ⟨[], ⊤, ⊥, true⟩

def size (b : TBucket τ α) : Nat := b.items.length

def addBack (b : TBucket τ α) (item : TItem τ α) : TBucket τ α where
  items := b.items ++ [item]
  minDeadline := min b.minDeadline item.deadline
  maxDeadline := max b.maxDeadline item.deadline
  isSorted :=
    match b.items.getLast? with
    | some last => if item.deadline < last.deadline then false else b.isSorted
    | none => b.isSorted

/-- `std::upper_bound` over a sorted range: the number of its items that are not later than
`item`. -/
def upperBound (range : List (TItem τ α)) (item : TItem τ α) : Nat :=
  (range.takeWhile fun x => !decide (item.deadline < x.deadline)).length

def addSorted (b : TBucket τ α) (item : TItem τ α) (validFromPos : Nat) : TBucket τ α :=
  if b.maxDeadline ≤ item.deadline then b.addBack item
  else
    { b with
      minDeadline := min b.minDeadline item.deadline
      maxDeadline := max b.maxDeadline item.deadline
      items := b.items.insertIdx
        (validFromPos + upperBound (b.items.drop validFromPos) item) item }

/-- `Sort`, through the routine `std` that stands for `std::sort`. -/
def sort (std : Sorter (TItem.deadline (τ := τ) (α := α))) (b : TBucket τ α) : TBucket τ α :=
  if b.isSorted then b else { b with items := std.run b.items, isSorted := true }

end TBucket

/-- `Size_` is `size`.  The bucket vector is a list that only `Resize` makes longer or shorter. -/
structure TBinnedTimerQueue (τ α : Type) where
  buckets : List (TBucket τ α)
  bucketSoftLimit : Nat
  size : Nat
  currentBucket : Nat
  currentCursor : Nat
deriving Repr

/-- The exceptions of the queue, without their texts. -/
inductive QueueError
  | resizeNonEmpty
  | popEmpty
  | emptyBucketAfterAdvance
deriving DecidableEq, Repr

namespace TBinnedTimerQueue

/-- `Buckets[i]`. -/
def bucket (q : TBinnedTimerQueue τ α) (i : Nat) : TBucket τ α := q.buckets.getD i .clear

/-- The number of buckets. -/
def bucketCount (q : TBinnedTimerQueue τ α) : Nat := q.buckets.length

/-- `Buckets[i] = b`. -/
def setBucket (q : TBinnedTimerQueue τ α) (i : Nat) (b : TBucket τ α) : TBinnedTimerQueue τ α :=
  { q with buckets := q.buckets.set i b }

def resize (q : TBinnedTimerQueue τ α) (bucketCount bucketSoftLimit : Nat) :
    Except QueueError (TBinnedTimerQueue τ α) :=
  if q.size ≠ 0 then .error .resizeNonEmpty
  else
    .ok { q with
      buckets := q.buckets.take (max 2 bucketCount) ++
        List.replicate (max 2 bucketCount - q.buckets.length) .clear
      bucketSoftLimit := max 1 bucketSoftLimit }

/-- The queue before its constructor calls `Resize`. -/
def blank : TBinnedTimerQueue τ α := ⟨[], 0, 0, 0, 0⟩

/-- The constructor: `Resize` of a queue without buckets. -/
def new (bucketCount bucketSoftLimit : Nat) : Except QueueError (TBinnedTimerQueue τ α) :=
  blank.resize bucketCount bucketSoftLimit

/-- The loop of `ComputeBucket` from offset `i` on, with `fuel` iterations left. -/
def computeBucketFrom (q : TBinnedTimerQueue τ α) (deadline : τ) : Nat → Nat → Nat
  | 0, _ => (q.currentBucket + q.bucketCount - 1) % q.bucketCount
  | fuel + 1, i =>
    let bucketIndex := (i + q.currentBucket) % q.bucketCount
    if deadline ≤ (q.bucket bucketIndex).maxDeadline then bucketIndex
    else
      let nextBucketIndex := (bucketIndex + 1) % q.bucketCount
      if deadline ≤ (q.bucket nextBucketIndex).minDeadline then
        if q.bucketSoftLimit ≤ (q.bucket bucketIndex).size then nextBucketIndex
        else bucketIndex
      else q.computeBucketFrom deadline fuel (i + 1)

def computeBucket (q : TBinnedTimerQueue τ α) (deadline : τ) : Nat :=
  q.computeBucketFrom deadline q.bucketCount 0

/-- `Add` from the point where the deadline `now + delay` is known. -/
def add (q : TBinnedTimerQueue τ α) (deadline : τ) (value : α) : TBinnedTimerQueue τ α :=
  let bucket := q.computeBucket deadline
  let item : TItem τ α := ⟨deadline, value⟩
  let q' :=
    if bucket = q.currentBucket then
      q.setBucket bucket ((q.bucket bucket).addSorted item q.currentCursor)
    else q.setBucket bucket ((q.bucket bucket).addBack item)
  { q' with size := q'.size + 1 }

/-- `GetNextDeadline`; `none` is the read of `Items[0]` in a bucket without items. -/
def getNextDeadline (q : TBinnedTimerQueue τ α) : Option τ :=
  if q.size = 0 then some ⊤
  else
    match (q.bucket q.currentBucket).items[q.currentCursor]? with
    | some item => some item.deadline
    | none =>
      (q.bucket ((q.currentBucket + 1) % q.bucketCount)).items[0]?.map TItem.deadline

def advance (std : Sorter (TItem.deadline (τ := τ) (α := α))) (q : TBinnedTimerQueue τ α) :
    TBinnedTimerQueue τ α :=
  let next := (q.currentBucket + 1) % q.bucketCount
  let q := q.setBucket q.currentBucket .clear
  { q.setBucket next ((q.bucket next).sort std) with currentCursor := 0, currentBucket := next }

def popFront (std : Sorter (TItem.deadline (τ := τ) (α := α))) (q : TBinnedTimerQueue τ α) :
    Except QueueError (TItem τ α × TBinnedTimerQueue τ α) :=
  if q.size = 0 then .error .popEmpty
  else
    match (q.bucket q.currentBucket).items[q.currentCursor]? with
    | some item =>
      .ok (item, { q with size := q.size - 1, currentCursor := q.currentCursor + 1 })
    | none =>
      let q := { q with size := q.size - 1 }.advance std
      match (q.bucket q.currentBucket).items[q.currentCursor]? with
      | some item => .ok (item, { q with currentCursor := q.currentCursor + 1 })
      | none => .error .emptyBucketAfterAdvance

def empty (q : TBinnedTimerQueue τ α) : Bool := q.size == 0

/-! `Validate`, one test for each of its four loops. -/

/-- The current bucket is sorted behind the cursor. -/
def currentSorted (q : TBinnedTimerQueue τ α) : Bool :=
  let items := (q.bucket q.currentBucket).items.drop q.currentCursor
  (items.zip items.tail).all fun p => !decide (p.2.deadline < p.1.deadline)

/-- The recorded bounds of a bucket are those of its items. -/
def boundsExact (b : TBucket τ α) : Bool :=
  decide (b.minDeadline = leastKey TItem.deadline b.items) &&
    decide (b.maxDeadline = greatestKey TItem.deadline b.items)

/-- From the current bucket on, no two neighbouring buckets with items overlap. -/
def neighboursOrdered (q : TBinnedTimerQueue τ α) : Bool :=
  (List.range (q.bucketCount - 1)).all fun offset =>
    let i := (q.currentBucket + offset) % q.bucketCount
    let a := q.bucket i
    let b := q.bucket ((i + 1) % q.bucketCount)
    a.items.isEmpty || b.items.isEmpty || decide (a.maxDeadline ≤ b.minDeadline)

/-- The number of items behind the cursor. -/
def computedSize (q : TBinnedTimerQueue τ α) : Nat :=
  ((List.range q.bucketCount).map fun i =>
    if i = q.currentBucket then (q.bucket i).size - q.currentCursor else (q.bucket i).size).sum

def validate (q : TBinnedTimerQueue τ α) : Bool :=
  q.currentSorted && q.buckets.all boundsExact && q.neighboursOrdered &&
    q.computedSize == q.size

end TBinnedTimerQueue

end

end Tpcc.TimerQueue
