import Mathlib.Data.List.Basic
import Mathlib.Data.UInt

/-! `THistogram`: its buckets, the recording of a value, sums and differences, and percentiles.
Percentiles are exact fractions. -/

namespace Tpcc.Stats

/-- The last bucket holds the values that no other bucket holds. -/
@[ext]
structure THistogram where
  hdrTill : UInt64
  maxValue : UInt64
  buckets : List UInt64
  totalCount : UInt64
  maxRecordedValue : UInt64
  hdrTill_lt : hdrTill.toNat < buckets.length

namespace THistogram

/-- The loop of `GetExponentialBucketCount`; `none` when it has not ended after `fuel` rounds. -/
def exponentialBucketCount (maxValue : UInt64) : Nat → UInt64 → Option Nat
  | 0, _ => none
  | fuel + 1, range =>
    if range ≤ maxValue then (exponentialBucketCount maxValue fuel (range * 2)).map (· + 1)
    else some 0

/-- The constructor.  A range that doubles 64 times without an end has become zero, and the loop runs
for ever; `none` stands for that and for the exception. -/
def new (hdrTill maxValue : UInt64) : Option THistogram :=
  if hdrTill = 0 ∨ maxValue = 0 ∨ hdrTill > maxValue then none
  else
    (exponentialBucketCount maxValue 65 (hdrTill * 2)).map fun count =>
      { hdrTill := hdrTill
        maxValue := maxValue
        buckets := List.replicate (hdrTill.toNat + count + 1) 0
        totalCount := 0
        maxRecordedValue := 0
        hdrTill_lt := by
          rw [List.length_replicate]
          omega }

/-- The loop of `GetBucketIndex` over the buckets that are left before the last one. -/
def bucketLoop (value : UInt64) (last : Nat) : Nat → UInt64 → UInt64 → Nat → Nat
  | 0, _, _, _ => last
  | left + 1, bucketStart, bucketSize, bucketIndex =>
    if value < bucketStart + bucketSize then bucketIndex
    else bucketLoop value last left (bucketStart + bucketSize) (bucketSize * 2) (bucketIndex + 1)

def getBucketIndex (h : THistogram) (value : UInt64) : Nat :=
  if value < h.hdrTill then value.toNat
  else
    bucketLoop value (h.buckets.length - 1) (h.buckets.length - 1 - h.hdrTill.toNat) h.hdrTill
      h.hdrTill h.hdrTill.toNat

/-- `RecordValue`; `none` is the internal error. -/
def recordValue (h : THistogram) (value : UInt64) : Option THistogram :=
  let bucketIndex := h.getBucketIndex value
  if bucketIndex ≥ h.buckets.length then none
  else
    some { h with
      buckets := h.buckets.modify bucketIndex (· + 1)
      totalCount := h.totalCount + 1
      maxRecordedValue := max h.maxRecordedValue value
      hdrTill_lt := by
        rw [List.length_modify]
        exact h.hdrTill_lt }

def reset (h : THistogram) : THistogram :=
  { h with
    buckets := List.replicate h.buckets.length 0
    totalCount := 0
    maxRecordedValue := 0
    hdrTill_lt := by
      rw [List.length_replicate]
      exact h.hdrTill_lt }

/-- The loop over the buckets that both histograms have. -/
def combineBuckets (f : UInt64 → UInt64 → UInt64) : List UInt64 → List UInt64 → List UInt64
  | b :: buckets, other :: others => f b other :: combineBuckets f buckets others
  | buckets, [] => buckets
  | [], _ => []

theorem length_combineBuckets (f : UInt64 → UInt64 → UInt64) (buckets others : List UInt64) :
    (combineBuckets f buckets others).length = buckets.length := by
  induction buckets generalizing others with
  | nil => cases others <;> rfl
  | cons b buckets ih =>
    cases others with
    | nil => rfl
    | cons other others => simp only [combineBuckets, List.length_cons, ih]

/-- `Add`; `none` is the exception. -/
def add (h other : THistogram) : Option THistogram :=
  if h.hdrTill ≠ other.hdrTill ∨ h.maxValue ≠ other.maxValue then none
  else
    some { h with
      buckets := combineBuckets (· + ·) h.buckets other.buckets
      totalCount := h.totalCount + other.totalCount
      maxRecordedValue := max h.maxRecordedValue other.maxRecordedValue
      hdrTill_lt := by
        rw [length_combineBuckets]
        exact h.hdrTill_lt }

/-- `Sub`; `none` is the exception. -/
def sub (h other : THistogram) : Option THistogram :=
  if h.hdrTill ≠ other.hdrTill ∨ h.maxValue ≠ other.maxValue then none
  else
    some { h with
      buckets := combineBuckets (· - ·) h.buckets other.buckets
      totalCount := h.totalCount - other.totalCount
      hdrTill_lt := by
        rw [length_combineBuckets]
        exact h.hdrTill_lt }

/-- The loop of `GetBucketUpperBound`, for the given number of rounds. -/
def upperBoundLoop : Nat → UInt64 → UInt64 → UInt64
  | 0, bucketStart, bucketSize => bucketStart + bucketSize
  | rounds + 1, bucketStart, bucketSize =>
    upperBoundLoop rounds (bucketStart + bucketSize) (bucketSize * 2)

/-- `std::numeric_limits<uint64_t>::max()`. -/
def maxUInt64 : UInt64 := 18446744073709551615

def getBucketUpperBound (h : THistogram) (bucketIndex : Nat) : UInt64 :=
  if bucketIndex < h.hdrTill.toNat then UInt64.ofNat (bucketIndex + 1)
  else if bucketIndex = h.buckets.length - 1 then
    if h.maxRecordedValue > 0 then h.maxRecordedValue else maxUInt64
  else upperBoundLoop (bucketIndex - h.hdrTill.toNat) h.hdrTill h.hdrTill

/-- The loop of `GetValueAtPercentile` over the buckets that are left. -/
def percentileLoop (h : THistogram) (targetCount : UInt64) : List UInt64 → Nat → UInt64 → UInt64
  | [], _, _ => maxUInt64
  | bucket :: buckets, i, currentCount =>
    if currentCount + bucket ≥ targetCount then h.getBucketUpperBound i
    else percentileLoop h targetCount buckets (i + 1) (currentCount + bucket)

/-- `ceil(percentile * TotalCount_ / 100.0)`. -/
def targetCount (percentile : Rat) (totalCount : Nat) : Nat :=
  (percentile * (totalCount : Rat) / 100).ceil.toNat

/-- `GetValueAtPercentile`; `none` is the exception. -/
def getValueAtPercentile (h : THistogram) (percentile : Rat) : Option UInt64 :=
  if percentile < 0 ∨ percentile > 100 then none
  else if h.totalCount = 0 then some 0
  else
    some (h.percentileLoop (UInt64.ofNat (targetCount percentile h.totalCount.toNat)) h.buckets 0 0)

theorem bucketLoop_lt {value : UInt64} {last size : Nat} (hlast : last < size) {left : Nat}
    {bucketStart bucketSize : UInt64} {bucketIndex : Nat} (h : bucketIndex + left ≤ last) :
    bucketLoop value last left bucketStart bucketSize bucketIndex < size := by
  induction left generalizing bucketStart bucketSize bucketIndex with
  | zero => exact hlast
  | succ left ih =>
    unfold bucketLoop
    split
    · omega
    · exact ih (by omega)

theorem getBucketIndex_lt (h : THistogram) (value : UInt64) :
    h.getBucketIndex value < h.buckets.length := by
  have hsize := h.hdrTill_lt
  unfold getBucketIndex
  split
  · next hvalue =>
    have hvalue' := UInt64.lt_iff_toNat_lt.1 hvalue
    omega
  · exact bucketLoop_lt (by omega) (by omega)

end THistogram

end Tpcc.Stats
