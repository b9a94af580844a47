import Mathlib.Data.Nat.Log
import Mathlib.Order.Bounds.Basic
import Mathlib.Tactic.Ring
import Tpcc.Stats.Tally

/-! The buckets of a histogram whose range does not overflow: one bucket for each value below
`hdrTill`, buckets whose width doubles up to `maxValue`, and the last one.  The three loops over the
doubling buckets agree. -/

namespace Tpcc.Stats.THistogram

/-- The buckets that `new` makes, with `count` doubling ones. -/
structure Doubling (h : THistogram) (count : Nat) : Prop where
  hdrTill_pos : 1 ≤ h.hdrTill.toNat
  length_buckets : h.buckets.length = h.hdrTill.toNat + count + 1
  le_maxValue : h.hdrTill.toNat * 2 ^ count ≤ h.maxValue.toNat
  maxValue_lt_next : h.maxValue.toNat < h.hdrTill.toNat * 2 ^ (count + 1)
  maxValue_lt : h.maxValue.toNat < 2 ^ 63

/-- The bucket of a value. -/
def indexOf (hdrTill count v : Nat) : Nat :=
  if v < hdrTill then v else hdrTill + min (Nat.log 2 (v / hdrTill)) count

/-- The ranges that end at or before `maxValue`. -/
def doublings (hdrTill maxValue : Nat) : Set Nat :=
  { t | t ≤ maxValue ∧ ∃ k, t = hdrTill * 2 ^ k }

theorem double_mul (s k : Nat) : 2 * s * 2 ^ k = s * 2 ^ (k + 1) := by
  ring

section Loops

variable {word : UInt64} {s : Nat}

theorem toNat_add_self (hword : word.toNat = s) (hs : s < 2 ^ 63) :
    (word + word).toNat = 2 * s := by
  rw [UInt64.toNat_add, hword]
  omega

theorem toNat_mul_two (hword : word.toNat = s) (hs : s < 2 ^ 63) : (word * 2).toNat = 2 * s := by
  rw [UInt64.toNat_mul, hword, show (2 : UInt64).toNat = 2 from rfl]
  omega

/-- The number of doublings from `s` on that stay in the range. -/
theorem exponentialBucketCount_eq {maxValue : UInt64} (hmax : maxValue.toNat < 2 ^ 63) {fuel : Nat}
    {range : UInt64} (hrange : range.toNat = 2 * s) (hs : s ≤ maxValue.toNat)
    (hfuel : maxValue.toNat < s * 2 ^ fuel) :
    ∃ count, exponentialBucketCount maxValue fuel range = some count ∧
      s * 2 ^ count ≤ maxValue.toNat ∧ maxValue.toNat < s * 2 ^ (count + 1) := by
  induction fuel generalizing s range with
  | zero => omega
  | succ fuel ih =>
    rw [exponentialBucketCount]
    split
    · next hle =>
      rw [UInt64.le_iff_toNat_le, hrange] at hle
      obtain ⟨count, hcount, hlow, hhigh⟩ := ih (toNat_mul_two hrange (by omega)) hle
        (by rwa [double_mul])
      refine ⟨count + 1, by rw [hcount]; rfl, ?_, ?_⟩
      · rwa [double_mul] at hlow
      · rwa [double_mul] at hhigh
    · next hlt =>
      rw [UInt64.le_iff_toNat_le, hrange] at hlt
      refine ⟨0, rfl, by simpa using hs, ?_⟩
      omega

/-- The loop over the doubling buckets that are left finds the one that holds the value. -/
theorem bucketLoop_eq {value : UInt64} {last left index : Nat} {start : UInt64}
    (hstart : start.toNat = s) (hpos : 1 ≤ s) (hrange : s * 2 ^ left < 2 ^ 63)
    (hvalue : s ≤ value.toNat) (hlast : last = index + left) :
    bucketLoop value last left start start index = index + min (Nat.log 2 (value.toNat / s)) left := by
  induction left generalizing s start index with
  | zero => rw [bucketLoop, hlast, Nat.min_zero]
  | succ left ih =>
    have hs : s < 2 ^ 63 :=
      Nat.lt_of_le_of_lt (Nat.le_mul_of_pos_right s (Nat.two_pow_pos (left + 1))) hrange
    rw [bucketLoop]
    split
    · next hlt =>
      rw [UInt64.lt_iff_toNat_lt, toNat_add_self hstart hs] at hlt
      have hlog : Nat.log 2 (value.toNat / s) = 0 :=
        Nat.log_of_lt ((Nat.div_lt_iff_lt_mul hpos).mpr hlt)
      rw [hlog, Nat.zero_min, Nat.add_zero]
    · next hge =>
      rw [UInt64.lt_iff_toNat_lt, toNat_add_self hstart hs, Nat.not_lt] at hge
      have hsame : start * 2 = start + start := by
        rw [← UInt64.toNat_inj, toNat_mul_two hstart hs, toNat_add_self hstart hs]
      have hlog : Nat.log 2 (value.toNat / s) = Nat.log 2 (value.toNat / (2 * s)) + 1 := by
        rw [Nat.log_of_one_lt_of_le (by decide) ((Nat.le_div_iff_mul_le hpos).mpr hge),
          Nat.div_div_eq_div_mul, Nat.mul_comm s 2]
      rw [hsame, ih (toNat_add_self hstart hs) (by omega) (by rwa [double_mul]) hge (by omega), hlog]
      omega

theorem upperBoundLoop_eq {rounds : Nat} {start : UInt64} (hstart : start.toNat = s)
    (hrange : s * 2 ^ rounds < 2 ^ 63) :
    (upperBoundLoop rounds start start).toNat = s * 2 ^ (rounds + 1) := by
  induction rounds generalizing s start with
  | zero =>
    rw [upperBoundLoop, toNat_add_self hstart (by simpa using hrange)]
    omega
  | succ rounds ih =>
    have hs : s < 2 ^ 63 :=
      Nat.lt_of_le_of_lt (Nat.le_mul_of_pos_right s (Nat.two_pow_pos (rounds + 1))) hrange
    have hsame : start * 2 = start + start := by
      rw [← UInt64.toNat_inj, toNat_mul_two hstart hs, toNat_add_self hstart hs]
    rw [upperBoundLoop, hsame, ih (toNat_add_self hstart hs) (by rwa [double_mul]), double_mul]

end Loops

/-- The constructor ends, with empty buckets. -/
theorem new_eq {hdrTill maxValue : UInt64} (hpos : 1 ≤ hdrTill.toNat)
    (hle : hdrTill.toNat ≤ maxValue.toNat) (hmax : maxValue.toNat < 2 ^ 63) :
    ∃ h count, new hdrTill maxValue = some h ∧ h.hdrTill = hdrTill ∧ h.maxValue = maxValue ∧
      h.Doubling count := by
  have hvalid : ¬(hdrTill = 0 ∨ maxValue = 0 ∨ hdrTill > maxValue) := by
    simp only [gt_iff_lt, UInt64.lt_iff_toNat_lt, ← UInt64.toNat_inj, UInt64.toNat_zero]
    omega
  have hfuel : maxValue.toNat < hdrTill.toNat * 2 ^ 65 := by omega
  obtain ⟨count, hcount, hlow, hhigh⟩ :=
    exponentialBucketCount_eq hmax (toNat_mul_two rfl (by omega)) hle hfuel
  rw [new, if_neg hvalid, hcount]
  refine ⟨_, count, rfl, rfl, rfl, ?_⟩
  exact ⟨hpos, List.length_replicate, hlow, hhigh, hmax⟩

/-- A new histogram has a bucket for each value below `hdrTill`, which is not 0, and has recorded
nothing. -/
theorem new_some {hdrTill maxValue : UInt64} {h : THistogram}
    (hnew : new hdrTill maxValue = some h) : 1 ≤ h.hdrTill.toNat ∧ h = h.tally [] := by
  unfold new at hnew
  split at hnew
  · cases hnew
  · next hvalid =>
    obtain ⟨count, -, rfl⟩ := Option.map_eq_some_iff.mp hnew
    have hne : hdrTill ≠ 0 := fun hzero => hvalid (Or.inl hzero)
    refine ⟨UInt64.lt_iff_toNat_lt.mp (UInt64.pos_iff_ne_zero.mpr hne), ?_⟩
    rw [← reset_eq_tally]
    simp [reset]

/-- Values recorded in a new histogram. -/
theorem recordAll_new {hdrTill maxValue : UInt64} {h : THistogram}
    (hnew : new hdrTill maxValue = some h) (values : List UInt64) :
    h.recordAll values = some (h.tally values) := by
  conv_lhs => rw [(new_some hnew).2]
  exact recordAll_tally [] values

theorem getBucketUpperBound_small {h : THistogram} {i : Nat} (hi : i < h.hdrTill.toNat) :
    (h.getBucketUpperBound i).toNat = i + 1 := by
  rw [getBucketUpperBound, if_pos hi]
  exact UInt64.toNat_ofNat_of_lt' (Nat.lt_of_le_of_lt hi h.hdrTill.toNat_lt)

namespace Doubling

variable {h : THistogram} {count : Nat} (hd : h.Doubling count) {values : List UInt64}
include hd

theorem range_lt {j : Nat} (hj : j ≤ count) : h.hdrTill.toNat * 2 ^ j < 2 ^ 63 := by
  have hmono : h.hdrTill.toNat * 2 ^ j ≤ h.hdrTill.toNat * 2 ^ count :=
    Nat.mul_le_mul_left _ (Nat.pow_le_pow_right (by decide) hj)
  have hle := hd.le_maxValue
  have hmax := hd.maxValue_lt
  omega

theorem getBucketIndex_eq (v : UInt64) :
    h.getBucketIndex v = indexOf h.hdrTill.toNat count v.toNat := by
  rw [getBucketIndex, indexOf]
  simp only [UInt64.lt_iff_toNat_lt]
  split
  · rfl
  · next hv =>
    have hlength := hd.length_buckets
    have hleft : h.buckets.length - 1 - h.hdrTill.toNat = count := by omega
    rw [hleft]
    exact bucketLoop_eq rfl hd.hdrTill_pos (hd.range_lt (Nat.le_refl count)) (Nat.not_lt.mp hv)
      (by omega)

theorem isGreatest_doublings :
    IsGreatest (doublings h.hdrTill.toNat h.maxValue.toNat) (h.hdrTill.toNat * 2 ^ count) := by
  refine ⟨⟨hd.le_maxValue, count, rfl⟩, ?_⟩
  rintro t ⟨hle, k, rfl⟩
  refine Nat.mul_le_mul_left _ (Nat.pow_le_pow_right (by decide) ?_)
  by_contra hk
  have hnext : h.hdrTill.toNat * 2 ^ (count + 1) ≤ h.hdrTill.toNat * 2 ^ k :=
    Nat.mul_le_mul_left _ (Nat.pow_le_pow_right (by decide) (Nat.not_le.mp hk))
  have hmax := hd.maxValue_lt_next
  omega

theorem tally : (h.tally values).Doubling count :=
  ⟨hd.hdrTill_pos, length_buckets_tally.trans hd.length_buckets, hd.le_maxValue, hd.maxValue_lt_next,
    hd.maxValue_lt⟩

theorem getBucketUpperBound_double {j : Nat} (hj : j < count) :
    (h.getBucketUpperBound (h.hdrTill.toNat + j)).toNat = h.hdrTill.toNat * 2 ^ (j + 1) := by
  have hlength := hd.length_buckets
  rw [getBucketUpperBound, if_neg (by omega), if_neg (by omega), Nat.add_sub_cancel_left]
  exact upperBoundLoop_eq rfl (hd.range_lt (Nat.le_of_lt hj))

theorem getBucketUpperBound_last (hpos : 1 ≤ h.maxRecordedValue.toNat) :
    h.getBucketUpperBound (h.hdrTill.toNat + count) = h.maxRecordedValue := by
  have hlength := hd.length_buckets
  rw [getBucketUpperBound, if_neg (by omega), if_pos (by omega), if_pos]
  exact UInt64.lt_iff_toNat_lt.mpr hpos

/-- The bounds follow the buckets, if the maximum is in the last bucket when that one is asked for. -/
theorem getBucketUpperBound_mono {m m' : Nat} (hle : m ≤ m') (hm' : m' ≤ h.hdrTill.toNat + count)
    (hlast : m' = h.hdrTill.toNat + count →
      h.hdrTill.toNat * 2 ^ count ≤ h.maxRecordedValue.toNat) :
    (h.getBucketUpperBound m).toNat ≤ (h.getBucketUpperBound m').toNat := by
  have hpower : ∀ j k, j ≤ k → h.hdrTill.toNat * 2 ^ j ≤ h.hdrTill.toNat * 2 ^ k := fun _ _ hjk =>
    Nat.mul_le_mul_left _ (Nat.pow_le_pow_right (by decide) hjk)
  have hpos := hd.hdrTill_pos
  have hcases : ∀ i ≤ h.hdrTill.toNat + count, i < h.hdrTill.toNat ∨
      (∃ j < count, i = h.hdrTill.toNat + j) ∨ i = h.hdrTill.toNat + count := by
    intro i hi
    rcases Nat.lt_or_ge i h.hdrTill.toNat with hsmall | hlarge
    · exact Or.inl hsmall
    · rcases Nat.lt_or_eq_of_le hi with hlt | heq
      · exact Or.inr (Or.inl ⟨i - h.hdrTill.toNat, by omega, by omega⟩)
      · exact Or.inr (Or.inr heq)
  rcases hcases m' hm' with hsmall' | ⟨j', hj', rfl⟩ | rfl
  · rw [getBucketUpperBound_small hsmall', getBucketUpperBound_small (Nat.lt_of_le_of_lt hle hsmall')]
    omega
  · rw [hd.getBucketUpperBound_double hj']
    rcases Nat.lt_or_ge m h.hdrTill.toNat with hsmall | hlarge
    · have hone := hpower 0 (j' + 1) (Nat.zero_le _)
      rw [getBucketUpperBound_small hsmall]
      omega
    · obtain ⟨j, rfl⟩ := Nat.exists_eq_add_of_le hlarge
      rw [hd.getBucketUpperBound_double (by omega)]
      exact hpower _ _ (by omega)
  · have hmax := hlast rfl
    have hone := hpower 0 count (Nat.zero_le _)
    rw [hd.getBucketUpperBound_last (by omega)]
    rcases hcases m hle with hsmall | ⟨j, hj, rfl⟩ | rfl
    · rw [getBucketUpperBound_small hsmall]
      omega
    · rw [hd.getBucketUpperBound_double hj]
      exact Nat.le_trans (hpower _ _ hj) hmax
    · rw [hd.getBucketUpperBound_last (by omega)]

end Doubling

section Index

variable {hdrTill count : Nat}

theorem indexOf_mono {u v : Nat} (huv : u ≤ v) :
    indexOf hdrTill count u ≤ indexOf hdrTill count v := by
  have hlog : Nat.log 2 (u / hdrTill) ≤ Nat.log 2 (v / hdrTill) :=
    Nat.log_mono_right (Nat.div_le_div_right huv)
  unfold indexOf
  split <;> split <;> omega

theorem log_div_eq_iff (hpos : 1 ≤ hdrTill) {v j : Nat} (hv : hdrTill ≤ v) :
    Nat.log 2 (v / hdrTill) = j ↔ hdrTill * 2 ^ j ≤ v ∧ v < hdrTill * 2 ^ (j + 1) := by
  have hdiv : v / hdrTill ≠ 0 := by
    rw [ne_eq, Nat.div_eq_zero_iff]
    omega
  rw [Nat.log_eq_iff (Or.inr ⟨by decide, hdiv⟩), Nat.le_div_iff_mul_le hpos,
    Nat.div_lt_iff_lt_mul hpos, Nat.mul_comm, Nat.mul_comm (2 ^ (j + 1))]

theorem indexOf_double {v j : Nat} (hpos : 1 ≤ hdrTill) (hj : j < count)
    (hlow : hdrTill * 2 ^ j ≤ v) (hhigh : v < hdrTill * 2 ^ (j + 1)) :
    indexOf hdrTill count v = hdrTill + j := by
  have hge : hdrTill ≤ v :=
    Nat.le_trans (Nat.le_mul_of_pos_right hdrTill (Nat.two_pow_pos j)) hlow
  rw [indexOf, if_neg (Nat.not_lt.mpr hge), (log_div_eq_iff hpos hge).mpr ⟨hlow, hhigh⟩,
    Nat.min_eq_left (Nat.le_of_lt hj)]

theorem indexOf_eq_last_iff (hpos : 1 ≤ hdrTill) {v : Nat} :
    indexOf hdrTill count v = hdrTill + count ↔ hdrTill * 2 ^ count ≤ v := by
  have hone : hdrTill ≤ hdrTill * 2 ^ count := Nat.le_mul_of_pos_right hdrTill (Nat.two_pow_pos count)
  unfold indexOf
  split
  · next hlt => omega
  · next hge =>
    have hlog : count ≤ Nat.log 2 (v / hdrTill) ↔ hdrTill * 2 ^ count ≤ v := by
      rw [Nat.le_log_iff_pow_le (by decide) (by
        have hdiv := (Nat.le_div_iff_mul_le (k := hdrTill) (x := 1) (y := v) hpos).mpr (by omega)
        omega), Nat.le_div_iff_mul_le hpos, Nat.mul_comm]
    omega

end Index

end Tpcc.Stats.THistogram
