import Tpcc.Stats.Percentile

/-! The histogram of an interval: `Sub` of the earlier snapshot leaves the interval's counts, but the
maximum stays that of the whole run, so a percentile that falls into the last bucket may be too
large. -/

namespace Tpcc.Stats.THistogram

/-- No counter falls from the first histogram to the second. -/
def NoUnderflow (prev cur : THistogram) : Prop :=
  List.Forall₂ (· ≤ ·) prev.buckets cur.buckets ∧ prev.totalCount ≤ cur.totalCount

/-- The 64-bit counters of the two intervals can be added. -/
def CountersFit (h : THistogram) (a b : List UInt64) : Prop :=
  (∀ i < h.buckets.length, h.bucketCount a i % 2 ^ 64 + h.bucketCount b i % 2 ^ 64 < 2 ^ 64) ∧
    a.length % 2 ^ 64 + b.length % 2 ^ 64 < 2 ^ 64

/-- The buckets before the last one count as many values as there are. -/
def LastUnused (h : THistogram) (values : List UInt64) : Prop :=
  ∃ i < h.buckets.length - 1,
    UInt64.ofNat values.length ≤ UInt64.ofNat (h.countBefore values (i + 1))

variable {h : THistogram} {a b : List UInt64}

theorem ofNat_le_ofNat_add_iff (x y : Nat) :
    UInt64.ofNat x ≤ UInt64.ofNat (x + y) ↔ x % 2 ^ 64 + y % 2 ^ 64 < 2 ^ 64 := by
  rw [UInt64.le_iff_toNat_le, UInt64.toNat_ofNat', UInt64.toNat_ofNat']
  omega

theorem noUnderflow_iff :
    NoUnderflow (h.tally a) (h.tally (a ++ b)) ↔ h.CountersFit a b := by
  have hbuckets : List.Forall₂ (· ≤ ·) (h.tally a).buckets (h.tally (a ++ b)).buckets ↔
      ∀ i < h.buckets.length, h.bucketCount a i % 2 ^ 64 + h.bucketCount b i % 2 ^ 64 < 2 ^ 64 := by
    simp only [List.forall₂_iff_get, length_buckets_tally, List.get_eq_getElem,
      getElem_buckets_tally, bucketCount_append, ofNat_le_ofNat_add_iff, true_and]
    exact ⟨fun hall i hi => hall i hi hi, fun hall i hi _ => hall i hi⟩
  have htotal : (h.tally a).totalCount ≤ (h.tally (a ++ b)).totalCount ↔
      a.length % 2 ^ 64 + b.length % 2 ^ 64 < 2 ^ 64 := by
    rw [← ofNat_le_ofNat_add_iff, ← List.length_append]
    rfl
  rw [NoUnderflow, CountersFit, hbuckets, htotal]

/-- With fewer than `2 ^ 64` values in all, every counter fits. -/
theorem countersFit_of_length (hlength : a.length + b.length < 2 ^ 64) : h.CountersFit a b := by
  have hle : ∀ (values : List UInt64) i, h.bucketCount values i ≤ values.length := fun _ _ =>
    List.countP_le_length
  constructor
  · intro i _
    have ha := hle a i
    have hb := hle b i
    omega
  · omega

theorem lastUnused_iff (hlast : 1 ≤ h.buckets.length - 1) (hlength : b.length < 2 ^ 64) :
    h.LastUnused b ↔ ∀ v ∈ b, h.getBucketIndex v ≠ h.buckets.length - 1 := by
  have hword : ∀ i, UInt64.ofNat b.length ≤ UInt64.ofNat (h.countBefore b i) ↔
      ∀ v ∈ b, h.getBucketIndex v < i := by
    intro i
    have hle := @countBefore_le h b i
    rw [UInt64.le_iff_toNat_le, UInt64.toNat_ofNat_of_lt' hlength,
      UInt64.toNat_ofNat_of_lt' (Nat.lt_of_le_of_lt hle hlength)]
    rw [countBefore] at hle ⊢
    rw [← Nat.le_antisymm_iff.trans (and_iff_right hle), List.countP_eq_length]
    simp only [decide_eq_true_eq]
  constructor
  · rintro ⟨i, hi, hall⟩ v hv
    have hlt := (hword _).mp hall v hv
    omega
  · intro hall
    refine ⟨h.buckets.length - 1 - 1, by omega, (hword _).mpr fun v hv => ?_⟩
    have hlt := h.getBucketIndex_lt v
    have hne := hall v hv
    omega

/-- The maximum is the bound of the last bucket only. -/
theorem getBucketUpperBound_withMax {maximum : UInt64} {m : Nat} (hm : m < h.buckets.length - 1) :
    (h.withMax maximum).getBucketUpperBound m = h.getBucketUpperBound m := by
  have hlength : (h.withMax maximum).buckets.length = h.buckets.length := rfl
  rw [getBucketUpperBound, getBucketUpperBound, hlength, if_neg (Nat.ne_of_lt hm),
    if_neg (Nat.ne_of_lt hm)]
  rfl

theorem getBucketUpperBound_withMax_last {maximum : UInt64} (hmax : maximum ≠ 0) :
    (h.withMax maximum).getBucketUpperBound (h.buckets.length - 1) = maximum := by
  have hsize := (h.withMax maximum).hdrTill_lt
  have hlength : (h.withMax maximum).buckets.length = h.buckets.length := rfl
  have hpositive : (h.withMax maximum).maxRecordedValue > 0 := UInt64.pos_iff_ne_zero.mpr hmax
  rw [getBucketUpperBound, if_neg (by omega), if_pos (by rw [hlength]), if_pos hpositive]
  rfl

/-- The values in the last bucket are not zero. -/
theorem pos_of_getBucketIndex_last (hpos : 1 ≤ h.hdrTill.toNat) {v : UInt64}
    (hindex : h.getBucketIndex v = h.buckets.length - 1) : 0 < v := by
  have hsize := h.hdrTill_lt
  by_contra hzero
  have hsmall : v < h.hdrTill :=
    UInt64.lt_of_le_of_lt (UInt64.not_lt.mp hzero) (UInt64.lt_iff_toNat_lt.mpr hpos)
  have hsmall' := UInt64.lt_iff_toNat_lt.mp hsmall
  rw [getBucketIndex, if_pos hsmall] at hindex
  omega

theorem greatest_append_eq_iff (hb : b ≠ []) :
    greatest (a ++ b) = greatest b ↔ ∀ v ∈ a, ∃ u ∈ b, v ≤ u := by
  constructor
  · intro heq v hv
    refine ⟨greatest b, greatest_mem hb, ?_⟩
    rw [← heq]
    exact le_greatest (List.mem_append_left b hv)
  · intro hall
    refine UInt64.le_antisymm (greatest_le_iff.mpr fun v hv => ?_)
      (greatest_le_iff.mpr fun v hv => le_greatest (List.mem_append_right a hv))
    rcases List.mem_append.mp hv with hva | hvb
    · obtain ⟨u, hu, hle⟩ := hall v hva
      exact UInt64.le_trans hle (le_greatest hu)
    · exact le_greatest hvb

/-- The interval's counts with another maximum have the interval's percentiles exactly if no
percentile falls into the last bucket or the maximum is the interval's. -/
theorem percentiles_iff (hpos : 1 ≤ h.hdrTill.toNat) :
    (∀ percentile : Rat, 0 ≤ percentile → percentile ≤ 100 →
      ((h.tally b).withMax (greatest (a ++ b))).getValueAtPercentile percentile =
        (h.tally b).getValueAtPercentile percentile) ↔
      h.LastUnused b ∨ ∀ v ∈ a, ∃ u ∈ b, v ≤ u := by
  have hsize := h.hdrTill_lt
  by_cases hzero : UInt64.ofNat b.length = 0
  · refine ⟨fun _ => Or.inl ⟨0, by omega, ?_⟩, fun _ percentile _ _ => ?_⟩
    · rw [hzero]
      exact UInt64.zero_le
    · have htotal : (h.tally b).totalCount = 0 := hzero
      rw [getValueAtPercentile, getValueAtPercentile]
      simp only [withMax, htotal, if_true]
  · have hb : b ≠ [] := by
      rintro rfl
      exact hzero rfl
    constructor
    · intro hall
      refine or_iff_not_imp_left.mpr fun hused => (greatest_append_eq_iff hb).mp ?_
      obtain ⟨m, hm⟩ := exists_stopsAt (h := h) (UInt64.le_refl (UInt64.ofNat b.length))
      have hlast : m = h.buckets.length - 1 := by
        have hlt := hm.lt_length
        by_contra hne
        exact hused ⟨m, by omega, hm.reached⟩
      obtain ⟨v, hv, hindex⟩ := hm.exists_mem (UInt64.pos_iff_ne_zero.mpr hzero)
      rw [hlast] at hindex
      have hmax : ∀ {values}, v ∈ values → greatest values ≠ 0 := fun hmem =>
        UInt64.pos_iff_ne_zero.mp
          (UInt64.lt_of_lt_of_le (pos_of_getBucketIndex_last hpos hindex) (le_greatest hmem))
      rw [← target_hundred] at hm
      have heq := hall 100 (by norm_num) (le_refl _)
      rw [getValueAtPercentile_withMax _ hzero (by norm_num) (le_refl _) hm,
        getValueAtPercentile_tally hzero (by norm_num) (le_refl _) hm, Option.some_inj, hlast,
        ← @length_buckets_tally h b,
        getBucketUpperBound_withMax_last (hmax (List.mem_append_right a hv))] at heq
      exact heq.trans (getBucketUpperBound_withMax_last (h := h.tally b) (hmax hv))
    · rintro (⟨i, hi, hcount⟩ | hdominated) percentile hlow hhigh
      · obtain ⟨m, hm⟩ := exists_stopsAt (h := h) (@target_le b _ hhigh)
        have hle : m ≤ i := by
          by_contra hlt
          exact UInt64.not_le.mpr (hm.notBefore i (Nat.not_le.mp hlt))
            (UInt64.le_trans (target_le hhigh) hcount)
        rw [getValueAtPercentile_withMax _ hzero hlow hhigh hm,
          getValueAtPercentile_tally hzero hlow hhigh hm]
        refine congrArg some (getBucketUpperBound_withMax ?_)
        rw [length_buckets_tally]
        omega
      · rw [(greatest_append_eq_iff hb).mpr hdominated]
        rfl

/-- After `Sub` of the snapshot before the interval, no counter has underflowed and every percentile is
that of the interval's values alone, exactly if the counters can be added and either the last bucket
is not used by the interval or the interval has the maximum.  With fewer than `2 ^ 64` values the
counters can be added, and the last bucket is used by the values in it. -/
theorem sub_eq_fresh_iff {hdrTill maxValue : UInt64} (hnew : new hdrTill maxValue = some h)
    (a b : List UInt64) :
    ∃ prev cur diff fresh, h.recordAll a = some prev ∧ prev.recordAll b = some cur ∧
      cur.sub prev = some diff ∧ h.recordAll b = some fresh ∧
      ((NoUnderflow prev cur ∧ ∀ percentile : Rat, 0 ≤ percentile → percentile ≤ 100 →
          diff.getValueAtPercentile percentile = fresh.getValueAtPercentile percentile) ↔
        h.CountersFit a b ∧ (h.LastUnused b ∨ ∀ v ∈ a, ∃ u ∈ b, v ≤ u)) ∧
      (a.length + b.length < 2 ^ 64 → h.CountersFit a b ∧
        (h.LastUnused b ↔ ∀ v ∈ b, h.getBucketIndex v ≠ h.buckets.length - 1)) := by
  have hpos := (new_some hnew).1
  have hsize := h.hdrTill_lt
  refine ⟨_, _, _, _, recordAll_new hnew a, recordAll_tally a b, sub_tally a b, recordAll_new hnew b,
    ?_, fun hlength => ?_⟩
  · rw [noUnderflow_iff, percentiles_iff hpos]
  · exact ⟨countersFit_of_length hlength, lastUnused_iff (by omega) (by omega)⟩

/-- An interval after an outlier, with smaller values outside the last bucket. -/
theorem sub_eq_fresh_iff_outlier :
    ∃ h, new 2 4 = some h ∧
    ∃ prev cur diff fresh, h.recordAll [9] = some prev ∧ prev.recordAll [1, 3] = some cur ∧
      cur.sub prev = some diff ∧ h.recordAll [1, 3] = some fresh ∧
      ((NoUnderflow prev cur ∧ ∀ percentile : Rat, 0 ≤ percentile → percentile ≤ 100 →
          diff.getValueAtPercentile percentile = fresh.getValueAtPercentile percentile) ↔
        h.CountersFit [9] [1, 3] ∧
          (h.LastUnused [1, 3] ∨ ∀ v ∈ [(9 : UInt64)], ∃ u ∈ [(1 : UInt64), 3], v ≤ u)) ∧
      ([(9 : UInt64)].length + [(1 : UInt64), 3].length < 2 ^ 64 → h.CountersFit [9] [1, 3] ∧
        (h.LastUnused [1, 3] ↔
          ∀ v ∈ [(1 : UInt64), 3], h.getBucketIndex v ≠ h.buckets.length - 1)) :=
  ⟨_, rfl, @sub_eq_fresh_iff _ 2 4 rfl [9] [1, 3]⟩

/-- With an outlier before the interval, the percentiles of an interval with a smaller value in the
last bucket are the outlier. -/
theorem sub_ne_fresh_outlier :
    ∃ h prev cur diff fresh, new 2 4 = some h ∧ h.recordAll [9] = some prev ∧
      prev.recordAll [5] = some cur ∧ cur.sub prev = some diff ∧ h.recordAll [5] = some fresh ∧
      diff.getValueAtPercentile 100 = some 9 ∧ fresh.getValueAtPercentile 100 = some 5 := by
  refine ⟨_, _, _, _, _, rfl, rfl, rfl, rfl, rfl, ?_, ?_⟩
  · decide +kernel
  · decide +kernel

end Tpcc.Stats.THistogram
