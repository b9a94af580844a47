import Mathlib.Algebra.Order.Field.Rat
import Mathlib.Tactic.Linarith
import Tpcc.Lib.Rank
import Tpcc.Stats.Buckets

/-! `GetValueAtPercentile` of a histogram of some values: the bound of the bucket in which the value of
the percentile's rank lies. -/

namespace Tpcc.Stats.THistogram

open Lib

section Target

variable {percentile percentile' : Rat} {n : Nat}

theorem targetCount_le_iff {k : Nat} :
    targetCount percentile n ≤ k ↔ percentile * (n : Rat) / 100 ≤ (k : Rat) := by
  rw [targetCount, Int.toNat_le, Rat.ceil_le_iff]
  norm_cast

theorem targetCount_le (h : percentile ≤ 100) : targetCount percentile n ≤ n := by
  rw [targetCount_le_iff, div_le_iff₀ (by norm_num), mul_comm (n : Rat) 100]
  exact mul_le_mul_of_nonneg_right h (Nat.cast_nonneg n)

theorem targetCount_hundred : targetCount 100 n = n := by
  rw [targetCount, mul_comm, mul_div_assoc, div_self (by norm_num), mul_one]
  exact congrArg Int.toNat (Rat.ceil_intCast n)

theorem targetCount_mono (h : percentile ≤ percentile') :
    targetCount percentile n ≤ targetCount percentile' n := by
  rw [targetCount_le_iff]
  have hself := targetCount_le_iff.mp (Nat.le_refl (targetCount percentile' n))
  refine le_trans ?_ hself
  gcongr

theorem targetCount_pos (h : 0 < percentile) (hn : 1 ≤ n) : 1 ≤ targetCount percentile n := by
  by_contra hzero
  have hle := targetCount_le_iff.mp (Nat.le_of_lt_succ (Nat.not_le.mp hzero))
  have hpos : 0 < percentile * (n : Rat) / 100 :=
    div_pos (mul_pos h (Nat.cast_pos.mpr hn)) (by norm_num)
  exact absurd hle (not_le.mpr (by simpa using hpos))

end Target

section Loop

variable {h g : THistogram} {values : List UInt64}

/-- The number of values in the buckets before `i`. -/
def countBefore (h : THistogram) (values : List UInt64) (i : Nat) : Nat :=
  values.countP fun v => h.getBucketIndex v < i

theorem countBefore_zero : h.countBefore values 0 = 0 := by
  simp [countBefore]

theorem countBefore_succ (i : Nat) :
    h.countBefore values (i + 1) = h.countBefore values i + h.bucketCount values i := by
  induction values with
  | nil => rfl
  | cons v values ih =>
    simp only [countBefore, bucketCount, List.countP_cons, decide_eq_true_eq] at ih ⊢
    split <;> split <;> split <;> omega

theorem countBefore_le (i : Nat) : h.countBefore values i ≤ values.length := List.countP_le_length

theorem countBefore_last : h.countBefore values h.buckets.length = values.length := by
  rw [countBefore, List.countP_eq_length]
  exact fun v _ => decide_eq_true (h.getBucketIndex_lt v)

/-- The first bucket with which the 64-bit count reaches the target. -/
structure StopsAt (h : THistogram) (values : List UInt64) (target : UInt64) (m : Nat) : Prop where
  lt_length : m < h.buckets.length
  reached : target ≤ UInt64.ofNat (h.countBefore values (m + 1))
  notBefore : ∀ i < m, UInt64.ofNat (h.countBefore values (i + 1)) < target

/-- The loop stops, since the count of all the buckets is the total. -/
theorem exists_stopsAt {target : UInt64} (htarget : target ≤ UInt64.ofNat values.length) :
    ∃ m, h.StopsAt values target m := by
  have hsize := h.hdrTill_lt
  have hlast : target ≤ UInt64.ofNat (h.countBefore values (h.buckets.length - 1 + 1)) := by
    rw [Nat.sub_add_cancel (by omega), countBefore_last]
    exact htarget
  have hexists : ∃ m, target ≤ UInt64.ofNat (h.countBefore values (m + 1)) := ⟨_, hlast⟩
  refine ⟨Nat.find hexists, ?_, Nat.find_spec hexists, fun i hi => ?_⟩
  · have hle := Nat.find_min' hexists hlast
    omega
  · exact UInt64.not_le.mp (Nat.find_min hexists hi)

namespace StopsAt

variable {target target' : UInt64} {m m' : Nat}

/-- A greater target is not reached earlier. -/
theorem mono (hm : h.StopsAt values target m) (hm' : h.StopsAt values target' m')
    (hle : target ≤ target') : m ≤ m' := by
  by_contra hlt
  have hbefore := hm.notBefore m' (Nat.not_le.mp hlt)
  exact UInt64.not_le.mpr hbefore (UInt64.le_trans hle hm'.reached)

/-- The bucket holds one of the values. -/
theorem exists_mem (hm : h.StopsAt values target m) (hpos : 0 < target) :
    ∃ v ∈ values, h.getBucketIndex v = m := by
  have hbefore : UInt64.ofNat (h.countBefore values m) < target := by
    cases m with
    | zero =>
      rw [countBefore_zero]
      exact hpos
    | succ i => exact hm.notBefore i (Nat.lt_succ_self i)
  have hcount : 0 < h.bucketCount values m := by
    by_contra hzero
    have hreached := hm.reached
    rw [countBefore_succ, Nat.eq_zero_of_not_pos hzero] at hreached
    exact UInt64.not_le.mpr hbefore hreached
  obtain ⟨v, hv, hindex⟩ := List.countP_pos_iff.mp hcount
  exact ⟨v, hv, of_decide_eq_true hindex⟩

theorem percentileLoop_eq (hm : h.StopsAt values target m) :
    g.percentileLoop target (h.tally values).buckets 0 0 = g.getBucketUpperBound m := by
  have hround : ∀ i ≤ m,
      g.percentileLoop target ((h.tally values).buckets.drop i) i
        (UInt64.ofNat (h.countBefore values i)) =
      if UInt64.ofNat (h.countBefore values (i + 1)) ≥ target then g.getBucketUpperBound i
      else g.percentileLoop target ((h.tally values).buckets.drop (i + 1)) (i + 1)
        (UInt64.ofNat (h.countBefore values (i + 1))) := by
    intro i hi
    rw [List.drop_eq_getElem_cons (by simpa using Nat.lt_of_le_of_lt hi hm.lt_length),
      percentileLoop, getElem_buckets_tally, ← UInt64.ofNat_add, ← countBefore_succ]
  have hloop : ∀ left i, i + left = m →
      g.percentileLoop target ((h.tally values).buckets.drop i) i
        (UInt64.ofNat (h.countBefore values i)) = g.getBucketUpperBound m := by
    intro left
    induction left with
    | zero =>
      rintro i rfl
      rw [hround i (Nat.le_refl _), if_pos hm.reached]
      rfl
    | succ left ih =>
      intro i hi
      rw [hround i (by omega), if_neg (UInt64.not_le.mpr (hm.notBefore i (by omega)))]
      exact ih (i + 1) (by omega)
  have hstart := hloop m 0 (by omega)
  rwa [countBefore_zero] at hstart

end StopsAt

/-- The target of a percentile among some number of values, a 64-bit total. -/
def target (percentile : Rat) (values : List UInt64) : UInt64 :=
  UInt64.ofNat (targetCount percentile (UInt64.ofNat values.length).toNat)

theorem target_le {percentile : Rat} (hhigh : percentile ≤ 100) :
    target percentile values ≤ UInt64.ofNat values.length := by
  have hle := targetCount_le (n := (UInt64.ofNat values.length).toNat) hhigh
  rw [UInt64.le_iff_toNat_le, target,
    UInt64.toNat_ofNat_of_lt' (Nat.lt_of_le_of_lt hle (UInt64.toNat_lt _))]
  exact hle

theorem target_mono {percentile percentile' : Rat} (hle : percentile ≤ percentile')
    (hhigh : percentile' ≤ 100) : target percentile values ≤ target percentile' values := by
  have hlt : ∀ p : Rat, p ≤ 100 →
      targetCount p (UInt64.ofNat values.length).toNat < 2 ^ 64 := fun p hp =>
    Nat.lt_of_le_of_lt (targetCount_le hp) (UInt64.toNat_lt _)
  rw [UInt64.le_iff_toNat_le, target, target, UInt64.toNat_ofNat_of_lt' (hlt _ (le_trans hle hhigh)),
    UInt64.toNat_ofNat_of_lt' (hlt _ hhigh)]
  exact targetCount_mono hle

theorem target_hundred : target 100 values = UInt64.ofNat values.length := by
  rw [target, targetCount_hundred, UInt64.ofNat_toNat]

/-- A percentile of a histogram with the counts of some values, whatever its maximum: the bound of
the bucket in which the target is reached. -/
theorem getValueAtPercentile_withMax (maximum : UInt64) {percentile : Rat} {m : Nat}
    (hne : UInt64.ofNat values.length ≠ 0) (hlow : 0 ≤ percentile) (hhigh : percentile ≤ 100)
    (hm : h.StopsAt values (target percentile values) m) :
    ((h.tally values).withMax maximum).getValueAtPercentile percentile =
      some (((h.tally values).withMax maximum).getBucketUpperBound m) := by
  have hrange : ¬(percentile < 0 ∨ percentile > 100) :=
    not_or.mpr ⟨not_lt.mpr hlow, not_lt.mpr hhigh⟩
  have htotal : ((h.tally values).withMax maximum).totalCount = UInt64.ofNat values.length := rfl
  rw [getValueAtPercentile, if_neg hrange, htotal, if_neg hne]
  exact congrArg some hm.percentileLoop_eq

theorem getValueAtPercentile_tally {percentile : Rat} {m : Nat}
    (hne : UInt64.ofNat values.length ≠ 0) (hlow : 0 ≤ percentile) (hhigh : percentile ≤ 100)
    (hm : h.StopsAt values (target percentile values) m) :
    (h.tally values).getValueAtPercentile percentile =
      some ((h.tally values).getBucketUpperBound m) :=
  getValueAtPercentile_withMax (greatest values) hne hlow hhigh hm

end Loop

section Percentile

variable {h : THistogram} {count : Nat} {values : List UInt64}

theorem ofNat_length_ne_zero (hne : values ≠ []) (hlength : values.length < 2 ^ 64) :
    UInt64.ofNat values.length ≠ 0 := by
  rw [ne_eq, ← UInt64.toNat_inj, UInt64.toNat_ofNat_of_lt' hlength]
  exact fun h0 => hne (List.length_eq_zero_iff.mp h0)

theorem target_eq (percentile : Rat) (hlength : values.length < 2 ^ 64) :
    target percentile values = UInt64.ofNat (targetCount percentile values.length) := by
  rw [target, UInt64.toNat_ofNat_of_lt' hlength]

/-- The value of the target's rank is in the target's bucket. -/
theorem stopsAt_kthSmallest (hd : h.Doubling count) (hlength : values.length < 2 ^ 64) {k : Nat}
    (hpos : 1 ≤ k) (hle : k ≤ values.length) :
    ∃ v ∈ values, Rank.kthSmallest (values.map UInt64.toNat) k = some v.toNat ∧
      h.StopsAt values (UInt64.ofNat k) (h.getBucketIndex v) := by
  obtain ⟨n, hkth, hmem, hbelow, hnotAbove⟩ :=
    @Rank.kthSmallest_spec Nat _ (values.map UInt64.toNat) k hpos (by simpa using hle)
  obtain ⟨v, hv, rfl⟩ := List.mem_map.mp hmem
  have hmono : ∀ a b, a ≤ b → indexOf h.hdrTill.toNat count a ≤ indexOf h.hdrTill.toNat count b :=
    fun _ _ hab => indexOf_mono hab
  obtain ⟨hreached, hnotBefore⟩ := Rank.countP_class hmono hbelow hnotAbove
  have hcount : ∀ i, h.countBefore values (i + 1) =
      (values.map UInt64.toNat).countP (fun u => indexOf h.hdrTill.toNat count u ≤ i) := by
    intro i
    rw [countBefore, List.countP_map]
    refine List.countP_congr fun u _ => ?_
    simp only [Function.comp_apply, decide_eq_true_eq, hd.getBucketIndex_eq, Nat.lt_succ_iff]
  have hword : ∀ i, (UInt64.ofNat (h.countBefore values i)).toNat = h.countBefore values i :=
    fun i => UInt64.toNat_ofNat_of_lt' (Nat.lt_of_le_of_lt (countBefore_le i) hlength)
  have hwordTarget : (UInt64.ofNat k).toNat = k :=
    UInt64.toNat_ofNat_of_lt' (Nat.lt_of_le_of_lt hle hlength)
  refine ⟨v, hv, hkth, h.getBucketIndex_lt v, ?_, fun i hi => ?_⟩
  · rw [UInt64.le_iff_toNat_le, hword, hwordTarget, hcount, hd.getBucketIndex_eq]
    exact hreached
  · rw [hd.getBucketIndex_eq] at hi
    rw [UInt64.lt_iff_toNat_lt, hword, hwordTarget, hcount]
    exact hnotBefore i hi

/-- The bound of a value's bucket. -/
theorem getBucketUpperBound_tally (hd : h.Doubling count) {v : UInt64} (hv : v ∈ values) :
    ∃ r, (h.tally values).getBucketUpperBound (h.getBucketIndex v) = r ∧
      (v.toNat < h.hdrTill.toNat → r.toNat = v.toNat + 1) ∧
      (h.hdrTill.toNat ≤ v.toNat → v.toNat < h.hdrTill.toNat * 2 ^ count →
        ∃! j, h.hdrTill.toNat * 2 ^ j ≤ v.toNat ∧ v.toNat < h.hdrTill.toNat * 2 ^ (j + 1) ∧
          r.toNat = h.hdrTill.toNat * 2 ^ (j + 1)) ∧
      (h.hdrTill.toNat * 2 ^ count ≤ v.toNat → r = greatest values) := by
  have hpos := hd.hdrTill_pos
  refine ⟨_, rfl, ?_, ?_, ?_⟩
  · intro hsmall
    rw [hd.getBucketIndex_eq, indexOf, if_pos hsmall]
    exact getBucketUpperBound_small hsmall
  · intro hlow hhigh
    obtain ⟨hj, hj'⟩ := (log_div_eq_iff hpos hlow).mp rfl
    refine ⟨Nat.log 2 (v.toNat / h.hdrTill.toNat), ⟨hj, hj', ?_⟩, fun k hk => ?_⟩
    · have hlt : Nat.log 2 (v.toNat / h.hdrTill.toNat) < count :=
        (Nat.pow_lt_pow_iff_right (by decide)).mp
          (Nat.lt_of_mul_lt_mul_left (Nat.lt_of_le_of_lt hj hhigh))
      rw [hd.getBucketIndex_eq, indexOf_double hpos hlt hj hj']
      exact hd.tally.getBucketUpperBound_double hlt
    · exact ((log_div_eq_iff hpos hlow).mpr ⟨hk.1, hk.2.1⟩).symm
  · intro hlast
    have hgreatest := UInt64.le_iff_toNat_le.mp (le_greatest hv)
    have hone : h.hdrTill.toNat ≤ h.hdrTill.toNat * 2 ^ count :=
      Nat.le_mul_of_pos_right _ (Nat.two_pow_pos count)
    rw [hd.getBucketIndex_eq, (indexOf_eq_last_iff hpos).mpr hlast]
    exact hd.tally.getBucketUpperBound_last (Nat.le_trans (by omega) hgreatest)

/-- A greater percentile is not below a smaller one. -/
theorem getValueAtPercentile_mono (hd : h.Doubling count) (hne : values ≠ [])
    (hlength : values.length < 2 ^ 64) {percentile percentile' : Rat} (hlow : 0 ≤ percentile)
    (hle : percentile ≤ percentile') (hhigh : percentile' ≤ 100) :
    ∃ r r', (h.tally values).getValueAtPercentile percentile = some r ∧
      (h.tally values).getValueAtPercentile percentile' = some r' ∧ r ≤ r' := by
  obtain ⟨m, hm⟩ := exists_stopsAt (h := h) (target_le (le_trans hle hhigh))
  obtain ⟨m', hm'⟩ := exists_stopsAt (h := h) (target_le hhigh)
  have hnonzero := ofNat_length_ne_zero hne hlength
  refine ⟨_, _, getValueAtPercentile_tally hnonzero hlow (le_trans hle hhigh) hm,
    getValueAtPercentile_tally hnonzero (le_trans hlow hle) hhigh hm', ?_⟩
  have hlt := hm'.lt_length
  rw [hd.length_buckets] at hlt
  refine UInt64.le_iff_toNat_le.mpr (hd.tally.getBucketUpperBound_mono
    (hm.mono hm' (target_mono hle hhigh)) (Nat.le_of_lt_succ hlt) ?_)
  intro hlast
  have hpos := hd.hdrTill_pos
  have hbefore := hm'.notBefore 0 (by
    rw [hlast]
    exact Nat.lt_of_lt_of_le hpos (Nat.le_add_right _ _))
  obtain ⟨v, hv, hindex⟩ := hm'.exists_mem (UInt64.lt_of_le_of_lt UInt64.zero_le hbefore)
  have hindex' : indexOf h.hdrTill.toNat count v.toNat = h.hdrTill.toNat + count := by
    rw [← hd.getBucketIndex_eq, hindex, hlast]
    rfl
  exact Nat.le_trans ((indexOf_eq_last_iff hpos).mp hindex')
    (UInt64.le_iff_toNat_le.mp (le_greatest hv))

/-- Any values can be recorded, and then each percentile is the value of its rank, rounded up to the
end of its bucket, and the maximum if that bucket is the last one. -/
theorem getValueAtPercentile_recordAll {hdrTill maxValue : UInt64} (hpos : 1 ≤ hdrTill.toNat)
    (hle : hdrTill.toNat ≤ maxValue.toNat) (hmax : maxValue.toNat < 2 ^ 63) {values : List UInt64}
    (hne : values ≠ []) (hlength : values.length < 2 ^ 64) :
    ∃ h₀ h T, new hdrTill maxValue = some h₀ ∧ h₀.recordAll values = some h ∧
      IsGreatest (doublings hdrTill.toNat maxValue.toNat) T ∧
      (∀ percentile : Rat, 0 < percentile → percentile ≤ 100 → ∃ v ∈ values, ∃ r,
        Rank.kthSmallest (values.map UInt64.toNat) (targetCount percentile values.length) =
          some v.toNat ∧
        h.getValueAtPercentile percentile = some r ∧
        (v.toNat < hdrTill.toNat → r.toNat = v.toNat + 1) ∧
        (hdrTill.toNat ≤ v.toNat → v.toNat < T →
          ∃! j, hdrTill.toNat * 2 ^ j ≤ v.toNat ∧ v.toNat < hdrTill.toNat * 2 ^ (j + 1) ∧
            r.toNat = hdrTill.toNat * 2 ^ (j + 1)) ∧
        (T ≤ v.toNat → r ∈ values ∧ ∀ u ∈ values, u ≤ r)) ∧
      ∀ percentile percentile' : Rat, 0 ≤ percentile → percentile ≤ percentile' →
        percentile' ≤ 100 → ∃ r r', h.getValueAtPercentile percentile = some r ∧
          h.getValueAtPercentile percentile' = some r' ∧ r ≤ r' := by
  obtain ⟨h₀, count, hnew, rfl, rfl, hd⟩ := new_eq hpos hle hmax
  refine ⟨h₀, h₀.tally values, _, hnew, recordAll_new hnew values, hd.isGreatest_doublings, ?_, ?_⟩
  · intro percentile hlow hhigh
    have htarget := targetCount_pos hlow (List.length_pos_of_ne_nil hne)
    obtain ⟨v, hv, hkth, hm⟩ := stopsAt_kthSmallest hd hlength htarget (targetCount_le hhigh)
    rw [← target_eq percentile hlength] at hm
    obtain ⟨r, hbound, hsmall, hdouble, hlast⟩ := getBucketUpperBound_tally hd hv
    refine ⟨v, hv, r, hkth, ?_, hsmall, hdouble, fun hge => ?_⟩
    · rw [getValueAtPercentile_tally (ofNat_length_ne_zero hne hlength) (le_of_lt hlow)
        hhigh hm, hbound]
    · rw [hlast hge]
      exact ⟨greatest_mem hne, fun u hu => le_greatest hu⟩
  · intro percentile percentile' hlow hle' hhigh
    exact getValueAtPercentile_mono hd hne hlength hlow hle' hhigh

/-- Two values of a histogram with three doubling ranges, one of them in the last bucket. -/
theorem getValueAtPercentile_recordAll_two :
    ∃ h₀ h T, new 2 9 = some h₀ ∧ h₀.recordAll [3, 70] = some h ∧
      IsGreatest (doublings 2 9) T ∧
      (∀ percentile : Rat, 0 < percentile → percentile ≤ 100 → ∃ v ∈ [(3 : UInt64), 70], ∃ r,
        Rank.kthSmallest [3, 70] (targetCount percentile 2) = some v.toNat ∧
        h.getValueAtPercentile percentile = some r ∧
        (v.toNat < 2 → r.toNat = v.toNat + 1) ∧
        (2 ≤ v.toNat → v.toNat < T → ∃! j, 2 * 2 ^ j ≤ v.toNat ∧ v.toNat < 2 * 2 ^ (j + 1) ∧
          r.toNat = 2 * 2 ^ (j + 1)) ∧
        (T ≤ v.toNat → r ∈ [(3 : UInt64), 70] ∧ ∀ u ∈ [(3 : UInt64), 70], u ≤ r)) ∧
      ∀ percentile percentile' : Rat, 0 ≤ percentile → percentile ≤ percentile' →
        percentile' ≤ 100 → ∃ r r', h.getValueAtPercentile percentile = some r ∧
          h.getValueAtPercentile percentile' = some r' ∧ r ≤ r' :=
  @getValueAtPercentile_recordAll 2 9 (by decide) (by decide) (by decide) [3, 70] (by decide)
    (by decide)

end Percentile

end Tpcc.Stats.THistogram
