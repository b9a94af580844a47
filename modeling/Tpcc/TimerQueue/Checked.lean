import Tpcc.TimerQueue.Peek

/-! The calls of the timer wheel with their reads checked: `none` is a read behind the end of the
bucket vector, or behind the end of a bucket's items.  Where the current bucket exists, the checked
calls do what the unchecked ones do. -/

namespace Tpcc.TimerQueue

open Lib

/-- A traversal whose reads all succeed. -/
theorem mapM_eq_map {α β : Type} {l : List α} {f : α → Option β} {g : α → β}
    (h : ∀ a ∈ l, f a = some (g a)) : l.mapM f = some (l.map g) := by
  induction l with
  | nil => rfl
  | cons a l ih =>
    have hrest := ih fun b hb => h b (List.mem_cons_of_mem a hb)
    rw [List.mapM_cons, h a List.mem_cons_self, hrest]
    rfl

section

variable {τ α : Type} [LinearOrder τ] [BoundedOrder τ]

/-- `AddSorted`, whose search begins at `Items.begin() + validFromPos`. -/
def TBucket.addSorted? (b : TBucket τ α) (item : TItem τ α) (validFromPos : Nat) :
    Option (TBucket τ α) :=
  if b.maxDeadline ≤ item.deadline ∨ validFromPos ≤ b.items.length then
    some (b.addSorted item validFromPos)
  else none

namespace TBinnedTimerQueue

/-- `Buckets[i]`, where there is such a bucket. -/
def bucket? (q : TBinnedTimerQueue τ α) (i : Nat) : Option (TBucket τ α) := q.buckets[i]?

def computeBucketFrom? (q : TBinnedTimerQueue τ α) (deadline : τ) : Nat → Nat → Option Nat
  | 0, _ => some ((q.currentBucket + q.bucketCount - 1) % q.bucketCount)
  | fuel + 1, i => do
    let bucketIndex := (i + q.currentBucket) % q.bucketCount
    let bucket ← q.bucket? bucketIndex
    if deadline ≤ bucket.maxDeadline then some bucketIndex
    else
      let nextBucketIndex := (bucketIndex + 1) % q.bucketCount
      let nextBucket ← q.bucket? nextBucketIndex
      if deadline ≤ nextBucket.minDeadline then
        if q.bucketSoftLimit ≤ bucket.size then some nextBucketIndex else some bucketIndex
      else q.computeBucketFrom? deadline fuel (i + 1)

def computeBucket? (q : TBinnedTimerQueue τ α) (deadline : τ) : Option Nat :=
  q.computeBucketFrom? deadline q.bucketCount 0

def add? (q : TBinnedTimerQueue τ α) (deadline : τ) (value : α) :
    Option (TBinnedTimerQueue τ α) := do
  let bucket ← q.computeBucket? deadline
  let item : TItem τ α := ⟨deadline, value⟩
  let old ← q.bucket? bucket
  let new ←
    if bucket = q.currentBucket then old.addSorted? item q.currentCursor
    else some (old.addBack item)
  return { q.setBucket bucket new with size := q.size + 1 }

def getNextDeadline? (q : TBinnedTimerQueue τ α) : Option τ :=
  if q.size = 0 then some ⊤
  else do
    let current ← q.bucket? q.currentBucket
    if q.currentCursor < current.size then
      let item ← current.items[q.currentCursor]?
      return item.deadline
    else
      let next ← q.bucket? ((q.currentBucket + 1) % q.bucketCount)
      let item ← next.items[0]?
      return item.deadline

def advance? (std : Sorter (TItem.deadline (τ := τ) (α := α))) (q : TBinnedTimerQueue τ α) :
    Option (TBinnedTimerQueue τ α) := do
  let _ ← q.bucket? q.currentBucket
  let next := (q.currentBucket + 1) % q.bucketCount
  let q := q.setBucket q.currentBucket .clear
  let bucket ← q.bucket? next
  return { q.setBucket next (bucket.sort std) with currentCursor := 0, currentBucket := next }

/-- `PopFront`, with what it returns or throws and the queue that it leaves. -/
def popFront? (std : Sorter (TItem.deadline (τ := τ) (α := α))) (q : TBinnedTimerQueue τ α) :
    Option (Except QueueError (TItem τ α) × TBinnedTimerQueue τ α) :=
  if q.size = 0 then some (.error .popEmpty, q)
  else do
    let current ← q.bucket? q.currentBucket
    if q.currentCursor < current.size then
      let item ← current.items[q.currentCursor]?
      return (.ok item, { q with size := q.size - 1, currentCursor := q.currentCursor + 1 })
    else
      let q ← { q with size := q.size - 1 }.advance? std
      let current ← q.bucket? q.currentBucket
      if current.items.isEmpty then return (.error .emptyBucketAfterAdvance, q)
      else
        let item ← current.items[q.currentCursor]?
        return (.ok item, { q with currentCursor := q.currentCursor + 1 })

def currentSorted? (q : TBinnedTimerQueue τ α) : Option Bool := do
  let current ← q.bucket? q.currentBucket
  let items := current.items.drop q.currentCursor
  return (items.zip items.tail).all fun p => !decide (p.2.deadline < p.1.deadline)

def neighboursOrdered? (q : TBinnedTimerQueue τ α) : Option Bool :=
  (List.range (q.bucketCount - 1)).allM fun offset => do
    let i := (q.currentBucket + offset) % q.bucketCount
    let a ← q.bucket? i
    let b ← q.bucket? ((i + 1) % q.bucketCount)
    return a.items.isEmpty || b.items.isEmpty || decide (a.maxDeadline ≤ b.minDeadline)

def computedSize? (q : TBinnedTimerQueue τ α) : Option Nat := do
  let sizes ← (List.range q.bucketCount).mapM fun i => do
    let bucket ← q.bucket? i
    return if i = q.currentBucket then bucket.size - q.currentCursor else bucket.size
  return sizes.sum

/-- `Validate`, which leaves at the first test that fails. -/
def validate? (q : TBinnedTimerQueue τ α) : Option Bool := do
  if !(← q.currentSorted?) then return false
  if !q.buckets.all boundsExact then return false
  if !(← q.neighboursOrdered?) then return false
  return (← q.computedSize?) == q.size

end TBinnedTimerQueue

open TBinnedTimerQueue

variable {q q' : TBinnedTimerQueue τ α}

theorem bucket?_eq {i : Nat} (hi : i < q.bucketCount) : q.bucket? i = some (q.bucket i) := by
  rw [bucket?, bucket, List.getD_eq_getElem?_getD, List.getElem?_eq_getElem hi]
  rfl

theorem bucket?_mod (hpos : 0 < q.bucketCount) (i : Nat) :
    q.bucket? (i % q.bucketCount) = some (q.bucket (i % q.bucketCount)) :=
  bucket?_eq (Nat.mod_lt i hpos)

theorem computeBucketFrom?_eq (hpos : 0 < q.bucketCount) (deadline : τ) (fuel i : Nat) :
    q.computeBucketFrom? deadline fuel i = some (q.computeBucketFrom deadline fuel i) := by
  induction fuel generalizing i with
  | zero => rfl
  | succ fuel ih =>
    simp only [computeBucketFrom?, computeBucketFrom, bucket?_mod hpos, ih, Option.bind_eq_bind,
      Option.bind_some]
    split
    · rfl
    · split
      · split <;> rfl
      · rfl

/-- `ComputeBucket` gives the index of a bucket, also when there is no current one. -/
theorem computeBucketFrom_lt (hpos : 0 < q.bucketCount) (deadline : τ) (fuel i : Nat) :
    q.computeBucketFrom deadline fuel i < q.bucketCount := by
  induction fuel generalizing i with
  | zero => exact Nat.mod_lt _ hpos
  | succ fuel ih =>
    simp only [computeBucketFrom]
    split
    · exact Nat.mod_lt _ hpos
    · split
      · split
        · exact Nat.mod_lt _ hpos
        · exact Nat.mod_lt _ hpos
      · exact ih (i + 1)

/-- `Add` reads only existing buckets, also when there is no current one. -/
theorem add?_eq (hpos : 0 < q.bucketCount)
    (hcursor : q.currentBucket < q.bucketCount →
      q.currentCursor ≤ (q.bucket q.currentBucket).items.length) (deadline : τ) (value : α) :
    q.add? deadline value = some (q.add deadline value) := by
  have hbucket : q.computeBucket? deadline = some (q.computeBucket deadline) :=
    computeBucketFrom?_eq hpos deadline q.bucketCount 0
  have hlt : q.computeBucket deadline < q.bucketCount :=
    computeBucketFrom_lt hpos deadline q.bucketCount 0
  simp only [add?, add, hbucket, bucket?_eq hlt, Option.bind_eq_bind, Option.bind_some]
  by_cases hcurrent : q.computeBucket deadline = q.currentBucket
  · have hsorted : (q.bucket q.currentBucket).addSorted? ⟨deadline, value⟩ q.currentCursor =
        some ((q.bucket q.currentBucket).addSorted ⟨deadline, value⟩ q.currentCursor) :=
      if_pos (.inr (hcursor (hcurrent ▸ hlt)))
    simp [hcurrent, hsorted, setBucket]
  · simp [hcurrent, setBucket]

@[simp] theorem add_bucketCount (deadline : τ) (value : α) :
    (q.add deadline value).bucketCount = q.bucketCount := by
  unfold add
  dsimp only
  split
  · exact List.length_set
  · exact List.length_set

@[simp] theorem add_currentBucket (deadline : τ) (value : α) :
    (q.add deadline value).currentBucket = q.currentBucket := by
  unfold add
  dsimp only
  split <;> rfl

theorem add_size_ne (deadline : τ) (value : α) : (q.add deadline value).size ≠ 0 :=
  Nat.succ_ne_zero _

theorem computedSize?_eq : q.computedSize? = some q.computedSize := by
  have hsizes : ((List.range q.bucketCount).mapM fun i => do
      let bucket ← q.bucket? i
      return if i = q.currentBucket then bucket.size - q.currentCursor else bucket.size) =
      some ((List.range q.bucketCount).map fun i =>
        if i = q.currentBucket then (q.bucket i).size - q.currentCursor else (q.bucket i).size) :=
    mapM_eq_map fun i hi => by rw [bucket?_eq (List.mem_range.mp hi)]; rfl
  rw [computedSize?, hsizes]
  rfl

section Current

variable (hcurrent : q.currentBucket < q.bucketCount)
include hcurrent

theorem getNextDeadline?_eq : q.getNextDeadline? = q.getNextDeadline := by
  have hpos : 0 < q.bucketCount := Nat.zero_lt_of_lt hcurrent
  unfold getNextDeadline? getNextDeadline
  by_cases hsize : q.size = 0
  · simp [hsize]
  · simp only [hsize, if_false, bucket?_eq hcurrent, bucket?_mod hpos, Option.bind_eq_bind,
      Option.bind_some]
    cases hitem : (q.bucket q.currentBucket).items[q.currentCursor]? with
    | some item =>
      have hleft : q.currentCursor < (q.bucket q.currentBucket).size :=
        (List.getElem?_eq_some_iff.mp hitem).1
      rw [if_pos hleft]
      rfl
    | none =>
      have hused : ¬q.currentCursor < (q.bucket q.currentBucket).size :=
        not_lt.mpr (List.getElem?_eq_none_iff.mp hitem)
      rw [if_neg hused]
      cases (q.bucket ((q.currentBucket + 1) % q.bucketCount)).items[0]? <;> rfl

theorem advance?_eq (std : Sorter (TItem.deadline (τ := τ) (α := α))) :
    q.advance? std = some (q.advance std) := by
  have hpos : 0 < (q.setBucket q.currentBucket .clear).bucketCount := by
    simpa [setBucket, bucketCount] using Nat.zero_lt_of_lt hcurrent
  have hcount : (q.setBucket q.currentBucket .clear).bucketCount = q.bucketCount := by
    simp [setBucket, bucketCount]
  have hnext := bucket?_mod hpos (q.currentBucket + 1)
  rw [hcount] at hnext
  simp only [advance?, advance, bucket?_eq hcurrent, hnext, Option.bind_eq_bind,
    Option.bind_some]
  rfl

theorem advance_current (std : Sorter (TItem.deadline (τ := τ) (α := α))) :
    (q.advance std).currentBucket < (q.advance std).bucketCount := by
  simpa [advance, setBucket, bucketCount] using
    Nat.mod_lt (q.currentBucket + 1) (Nat.zero_lt_of_lt hcurrent)

/-- The checked pop succeeds where the unchecked one does. -/
theorem popFront?_ok {std : Sorter (TItem.deadline (τ := τ) (α := α))} {item : TItem τ α}
    (hpop : q.popFront std = .ok (item, q')) : q.popFront? std = some (.ok item, q') := by
  unfold popFront at hpop
  unfold popFront?
  split at hpop
  · cases hpop
  · next hsize =>
    simp only [hsize, if_false, bucket?_eq hcurrent, Option.bind_eq_bind, Option.bind_some]
    split at hpop
    · next current hitem =>
      cases hpop
      have hleft : q.currentCursor < (q.bucket q.currentBucket).size :=
        (List.getElem?_eq_some_iff.mp hitem).1
      rw [if_pos hleft, hitem]
      rfl
    · next hitem =>
      have hused : ¬q.currentCursor < (q.bucket q.currentBucket).size :=
        not_lt.mpr (List.getElem?_eq_none_iff.mp hitem)
      have hless : ({ q with size := q.size - 1 } : TBinnedTimerQueue τ α).currentBucket <
          ({ q with size := q.size - 1 } : TBinnedTimerQueue τ α).bucketCount := hcurrent
      rw [if_neg hused, advance?_eq hless, Option.bind_some,
        bucket?_eq (advance_current hless std), Option.bind_some]
      dsimp only at hpop
      split at hpop
      · next first hfirst =>
        cases hpop
        have hne := List.isEmpty_eq_false_iff.mpr (List.ne_nil_of_mem (List.mem_of_getElem? hfirst))
        rw [hne, hfirst]
        rfl
      · cases hpop

theorem currentSorted?_eq : q.currentSorted? = some q.currentSorted := by
  simp only [currentSorted?, bucket?_eq hcurrent, Option.bind_eq_bind, Option.bind_some]
  rfl

theorem neighboursOrdered?_eq : q.neighboursOrdered? = some q.neighboursOrdered := by
  have hpos : 0 < q.bucketCount := Nat.zero_lt_of_lt hcurrent
  simp only [neighboursOrdered?, bucket?_mod hpos, Option.bind_eq_bind, Option.bind_some]
  exact List.allM_pure

/-- `Validate` reads only existing buckets. -/
theorem validate?_eq : q.validate? = some q.validate := by
  simp only [validate?, currentSorted?_eq hcurrent, neighboursOrdered?_eq hcurrent,
    computedSize?_eq, Option.bind_eq_bind, Option.bind_some, validate]
  cases q.currentSorted <;> cases q.buckets.all boundsExact <;> cases q.neighboursOrdered <;> rfl

end Current

/-! Without a current bucket. -/

section Lost

variable (hlost : q.bucketCount ≤ q.currentBucket)
include hlost

omit [LinearOrder τ] [BoundedOrder τ] in
theorem bucket?_lost : q.bucket? q.currentBucket = none := List.getElem?_eq_none_iff.mpr hlost

theorem validate?_lost : q.validate? = none := by
  simp [validate?, currentSorted?, bucket?_lost hlost]

theorem popFront?_lost (std : Sorter (TItem.deadline (τ := τ) (α := α))) (hsize : q.size ≠ 0) :
    q.popFront? std = none := by
  simp [popFront?, hsize, bucket?_lost hlost]

theorem getNextDeadline?_lost (hsize : q.size ≠ 0) : q.getNextDeadline? = none := by
  simp [getNextDeadline?, hsize, bucket?_lost hlost]

end Lost

end

end Tpcc.TimerQueue
