import Tpcc.Stats.Histogram

/-! What a histogram holds after some values: the number of values of each bucket, their total and
their maximum.  Recording, `Add` and `Sub` in these terms. -/

namespace Tpcc.Stats.THistogram

/-- The greatest of the values, 0 if there are none. -/
def greatest (values : List UInt64) : UInt64 := values.foldr max 0

theorem greatest_cons (v : UInt64) (values : List UInt64) :
    (greatest (v :: values)).toNat = max v.toNat (greatest values).toNat :=
  UInt64.toNat_max v (greatest values)

theorem greatest_append (a b : List UInt64) : greatest (a ++ b) = max (greatest a) (greatest b) := by
  rw [← UInt64.toNat_inj, UInt64.toNat_max]
  induction a with
  | nil => simp [greatest]
  | cons v a ih => rw [List.cons_append, greatest_cons, greatest_cons, ih, Nat.max_assoc]

theorem greatest_le_iff {values : List UInt64} {bound : UInt64} :
    greatest values ≤ bound ↔ ∀ v ∈ values, v ≤ bound := by
  simp only [UInt64.le_iff_toNat_le]
  induction values with
  | nil => simp [greatest]
  | cons v values ih => rw [greatest_cons, Nat.max_le, ih, List.forall_mem_cons]

theorem le_greatest {values : List UInt64} {v : UInt64} (h : v ∈ values) : v ≤ greatest values :=
  greatest_le_iff.mp (UInt64.le_refl _) v h

theorem greatest_mem {values : List UInt64} (h : values ≠ []) : greatest values ∈ values := by
  induction values with
  | nil => exact absurd rfl h
  | cons v values ih =>
    by_cases hle : (greatest values).toNat ≤ v.toNat
    · have hv : greatest (v :: values) = v := by
        rw [← UInt64.toNat_inj, greatest_cons, Nat.max_eq_left hle]
      rw [hv]
      exact List.mem_cons_self
    · have hne : values ≠ [] := by
        rintro rfl
        exact hle (Nat.zero_le _)
      have hrest : greatest (v :: values) = greatest values := by
        rw [← UInt64.toNat_inj, greatest_cons, Nat.max_eq_right (by omega)]
      rw [hrest]
      exact List.mem_cons_of_mem v (ih hne)

theorem greatest_perm {a b : List UInt64} (h : a.Perm b) : greatest a = greatest b :=
  UInt64.le_antisymm (greatest_le_iff.mpr fun _ hv => le_greatest (h.mem_iff.mp hv))
    (greatest_le_iff.mpr fun _ hv => le_greatest (h.mem_iff.mpr hv))

/-- The number of values in a bucket. -/
def bucketCount (h : THistogram) (values : List UInt64) (i : Nat) : Nat :=
  values.countP fun v => h.getBucketIndex v = i

/-- A histogram of the shape of `h` after the given values. -/
def tally (h : THistogram) (values : List UInt64) : THistogram where
  hdrTill := h.hdrTill
  maxValue := h.maxValue
  buckets := (List.range h.buckets.length).map fun i => UInt64.ofNat (h.bucketCount values i)
  totalCount := UInt64.ofNat values.length
  maxRecordedValue := greatest values
  hdrTill_lt := by
    rw [List.length_map, List.length_range]
    exact h.hdrTill_lt

variable {h : THistogram} {values : List UInt64}

@[simp]
theorem length_buckets_tally : (h.tally values).buckets.length = h.buckets.length := by
  rw [tally, List.length_map, List.length_range]

/-- The bucket of a value depends on the shape only. -/
theorem getBucketIndex_tally : (h.tally values).getBucketIndex = h.getBucketIndex := by
  funext v
  rw [getBucketIndex, getBucketIndex, length_buckets_tally]
  rfl

theorem getElem_buckets_tally {i : Nat} (hi : i < (h.tally values).buckets.length) :
    (h.tally values).buckets[i] = UInt64.ofNat (h.bucketCount values i) := by
  simp [tally]

theorem reset_eq_tally : h.reset = h.tally [] := by
  ext1
  · rfl
  · rfl
  · refine List.ext_getElem (by simp [reset]) fun i hi hi' => ?_
    rw [getElem_buckets_tally]
    simp [reset, bucketCount]
  · rfl
  · rfl

theorem bucketCount_append (a b : List UInt64) (i : Nat) :
    h.bucketCount (a ++ b) i = h.bucketCount a i + h.bucketCount b i := List.countP_append

/-- Recording a value. -/
theorem recordValue_tally (v : UInt64) :
    (h.tally values).recordValue v = some (h.tally (values ++ [v])) := by
  unfold recordValue
  dsimp only
  rw [if_neg (Nat.not_le.2 ((h.tally values).getBucketIndex_lt v))]
  refine congrArg some (THistogram.ext rfl rfl ?_ ?_ ?_)
  · refine List.ext_getElem (by simp) fun i hi hi' => ?_
    rw [List.getElem_modify, getElem_buckets_tally, getElem_buckets_tally, getBucketIndex_tally,
      bucketCount_append]
    by_cases hindex : h.getBucketIndex v = i
    · simp [bucketCount, hindex, UInt64.ofNat_add]
    · simp [bucketCount, hindex]
  · simp [tally, UInt64.ofNat_add]
  · change max (greatest values) v = greatest (values ++ [v])
    have hsingle : greatest [v] = v := by
      rw [← UInt64.toNat_inj, greatest_cons]
      exact Nat.max_eq_left (Nat.zero_le _)
    rw [greatest_append, hsingle]

/-- `RecordValue` of one value after the other. -/
def recordAll (h : THistogram) (values : List UInt64) : Option THistogram :=
  values.foldlM recordValue h

theorem recordAll_tally (a b : List UInt64) : (h.tally a).recordAll b = some (h.tally (a ++ b)) := by
  induction b generalizing a with
  | nil => rw [List.append_nil]; rfl
  | cons v b ih =>
    rw [recordAll, List.foldlM_cons, recordValue_tally]
    change (h.tally (a ++ [v])).recordAll b = _
    rw [ih, List.append_assoc]
    rfl

/-- The counts depend on which values there are, not on their order. -/
theorem tally_perm {a b : List UInt64} (hperm : a.Perm b) : h.tally a = h.tally b := by
  refine THistogram.ext rfl rfl ?_ (congrArg UInt64.ofNat hperm.length_eq) (greatest_perm hperm)
  exact List.map_congr_left fun i _ => congrArg UInt64.ofNat (hperm.countP_eq _)

theorem getElem_combineBuckets {f : UInt64 → UInt64 → UInt64} {buckets others : List UInt64}
    (hlength : buckets.length = others.length) {i : Nat}
    (hi : i < (combineBuckets f buckets others).length) (hi' : i < buckets.length)
    (hi'' : i < others.length) :
    (combineBuckets f buckets others)[i] = f buckets[i] others[i] := by
  induction buckets generalizing others i with
  | nil => cases hi'
  | cons b buckets ih =>
    cases others with
    | nil => cases hi''
    | cons other others =>
      cases i with
      | zero => rfl
      | succ i => exact ih (Nat.succ.inj hlength) _ _ _

/-- `Add` of the counts of two histograms of one shape. -/
theorem add_tally (a b : List UInt64) : (h.tally a).add (h.tally b) = some (h.tally (a ++ b)) := by
  unfold add
  rw [if_neg (by simp [tally])]
  refine congrArg some (THistogram.ext rfl rfl ?_ ?_ (greatest_append a b).symm)
  · refine List.ext_getElem (by simp [length_combineBuckets]) fun i hi hi' => ?_
    rw [getElem_buckets_tally, getElem_combineBuckets (by simp) _ (by simpa using hi')
      (by simpa using hi'), getElem_buckets_tally, getElem_buckets_tally, bucketCount_append,
      UInt64.ofNat_add]
  · simp [tally, UInt64.ofNat_add]

/-- The same counts with another maximum. -/
def withMax (h : THistogram) (maximum : UInt64) : THistogram := { h with maxRecordedValue := maximum }

/-- `Sub` of an earlier histogram leaves the counts of the values since, but not their maximum. -/
theorem sub_tally (a b : List UInt64) :
    (h.tally (a ++ b)).sub (h.tally a) =
      some ((h.tally b).withMax (greatest (a ++ b))) := by
  unfold sub
  rw [if_neg (by simp [tally])]
  refine congrArg some (THistogram.ext rfl rfl ?_ ?_ rfl)
  · refine List.ext_getElem (by simp [length_combineBuckets, withMax]) fun i hi hi' => ?_
    dsimp only [withMax] at hi' ⊢
    rw [getElem_buckets_tally, getElem_combineBuckets (by simp) _ (by simpa using hi')
      (by simpa using hi'), getElem_buckets_tally, getElem_buckets_tally, bucketCount_append,
      UInt64.ofNat_add, UInt64.add_comm, UInt64.add_sub_cancel]
  · change UInt64.ofNat (a ++ b).length - UInt64.ofNat a.length = UInt64.ofNat b.length
    rw [List.length_append, UInt64.ofNat_add, UInt64.add_comm, UInt64.add_sub_cancel]

end Tpcc.Stats.THistogram
