import Mathlib.Data.Set.Card
import Mathlib.Order.Interval.Finset.Nat
import Tpcc.Stats.Buckets

/-! When `GetExponentialBucketCount` ends, and with what count.  Its range doubles modulo `2^64`, so
a doubling from `2^63` on that is not above `maxValue` is followed by a smaller one. -/

namespace Tpcc.Stats.THistogram

variable {maxValue range hdrTill : UInt64} {count : Nat}

theorem toNat_double_mul_pow (i : Nat) :
    (range * 2).toNat * 2 ^ i % 2 ^ 64 = range.toNat * 2 ^ (i + 1) % 2 ^ 64 := by
  rw [UInt64.toNat_mul, show (2 : UInt64).toNat = 2 from rfl, Nat.mod_mul_mod, pow_succ']
  congr 1
  ring

/-- The loop ends at the first of its ranges that is above `maxValue`. -/
theorem exponentialBucketCount_eq_some {fuel : Nat} :
    exponentialBucketCount maxValue fuel range = some count ↔
      (∀ i < count, range.toNat * 2 ^ i % 2 ^ 64 ≤ maxValue.toNat) ∧
        maxValue.toNat < range.toNat * 2 ^ count % 2 ^ 64 ∧ count < fuel := by
  induction fuel generalizing range count with
  | zero => simp [exponentialBucketCount]
  | succ fuel ih =>
    have hrange : range.toNat * 2 ^ 0 % 2 ^ 64 = range.toNat := by
      rw [pow_zero, Nat.mul_one, Nat.mod_eq_of_lt range.toNat_lt]
    rw [exponentialBucketCount]
    split
    · next hle =>
      rw [UInt64.le_iff_toNat_le] at hle
      cases count with
      | zero =>
        simp only [Option.map_eq_some_iff, hrange]
        constructor
        · rintro ⟨_, _, hzero⟩
          omega
        · rintro ⟨-, hlt, -⟩
          omega
      | succ count =>
        have hmap : (exponentialBucketCount maxValue fuel (range * 2)).map (· + 1) =
            some (count + 1) ↔ exponentialBucketCount maxValue fuel (range * 2) = some count := by
          simp
        rw [hmap, ih, Nat.forall_lt_succ_left, hrange]
        simp only [toNat_double_mul_pow, hle, true_and, Nat.add_lt_add_iff_right]
    · next hgt =>
      rw [UInt64.le_iff_toNat_le, Nat.not_le] at hgt
      cases count with
      | zero => simp [hgt]
      | succ count =>
        rw [Nat.forall_lt_succ_left, hrange]
        constructor
        · rintro ⟨⟩
        · rintro ⟨⟨hle, -⟩, -⟩
          omega

/-- The loop has not run more than 64 rounds when it ends, so the bound in `new` is none. -/
theorem exponentialBucketCount_ends :
    (∃ fuel, exponentialBucketCount maxValue fuel range = some count) ↔
      exponentialBucketCount maxValue 65 range = some count := by
  refine ⟨fun ⟨fuel, h⟩ => ?_, fun h => ⟨65, h⟩⟩
  rw [exponentialBucketCount_eq_some] at h ⊢
  refine ⟨h.1, h.2.1, ?_⟩
  by_contra hlong
  have hdvd : 2 ^ 64 ∣ range.toNat * 2 ^ count :=
    Dvd.dvd.mul_left (Nat.pow_dvd_pow 2 (by omega)) _
  have hzero := Nat.mod_eq_zero_of_dvd hdvd
  omega

/-- The numbers of doublings of `hdrTill` that are not above `maxValue`. -/
def doublingCounts (hdrTill maxValue : UInt64) : Set Nat :=
  { k | 1 ≤ k ∧ hdrTill.toNat * 2 ^ k ≤ maxValue.toNat }

/-- No doubling of `hdrTill` up to `maxValue` is one that the next doubling loses. -/
def NoOverflow (hdrTill maxValue : UInt64) : Prop :=
  ∀ k, hdrTill.toNat * 2 ^ k ≤ maxValue.toNat → hdrTill.toNat * 2 ^ k < 2 ^ 63

theorem doublingCounts_eq {K : Nat} (hlow : hdrTill.toNat * 2 ^ K ≤ maxValue.toNat)
    (hhigh : maxValue.toNat < hdrTill.toNat * 2 ^ (K + 1)) :
    doublingCounts hdrTill maxValue = Finset.Icc 1 K := by
  ext k
  simp only [doublingCounts, Set.mem_ofPred_eq, Finset.coe_Icc, Set.mem_Icc, and_congr_right_iff]
  intro _
  constructor
  · intro hk
    by_contra hlt
    have hmono := Nat.mul_le_mul_left hdrTill.toNat
      (Nat.pow_le_pow_right (n := 2) (by decide) (show K + 1 ≤ k by omega))
    omega
  · intro hk
    exact (Nat.mul_le_mul_left _ (Nat.pow_le_pow_right (by decide) hk)).trans hlow

theorem ncard_doublingCounts {K : Nat} (hlow : hdrTill.toNat * 2 ^ K ≤ maxValue.toNat)
    (hhigh : maxValue.toNat < hdrTill.toNat * 2 ^ (K + 1)) :
    (doublingCounts hdrTill maxValue).ncard = K := by
  rw [doublingCounts_eq hlow hhigh, Set.ncard_coe_finset]
  simp

theorem exists_doublings (hpos : 1 ≤ hdrTill.toNat) (hle : hdrTill.toNat ≤ maxValue.toNat) :
    ∃ K, hdrTill.toNat * 2 ^ K ≤ maxValue.toNat ∧
      maxValue.toNat < hdrTill.toNat * 2 ^ (K + 1) := by
  refine ⟨Nat.log 2 (maxValue.toNat / hdrTill.toNat), ?_, ?_⟩
  · rw [Nat.mul_comm, ← Nat.le_div_iff_mul_le hpos]
    exact Nat.pow_log_le_self 2 (Nat.div_pos hle hpos).ne'
  · rw [Nat.mul_comm, ← Nat.div_lt_iff_lt_mul hpos]
    exact Nat.lt_pow_succ_log_self (by decide) _

/-- The loop ends having counted the doublings of `hdrTill` up to `maxValue` if and only if none of
them, nor `hdrTill` itself, reaches `2^63`. -/
theorem exponentialBucketCount_iff (hpos : 1 ≤ hdrTill.toNat)
    (hle : hdrTill.toNat ≤ maxValue.toNat) :
    (∃ fuel count, exponentialBucketCount maxValue fuel (hdrTill * 2) = some count ∧
      count = (doublingCounts hdrTill maxValue).ncard) ↔ NoOverflow hdrTill maxValue := by
  obtain ⟨K, hlow, hhigh⟩ := exists_doublings hpos hle
  have hmax := maxValue.toNat_lt
  have hmono : ∀ {i j : Nat}, i ≤ j → hdrTill.toNat * 2 ^ i ≤ hdrTill.toNat * 2 ^ j :=
    fun hij => Nat.mul_le_mul_left _ (Nat.pow_le_pow_right (by decide) hij)
  rw [ncard_doublingCounts hlow hhigh]
  simp only [exponentialBucketCount_eq_some, toNat_double_mul_pow]
  constructor
  · rintro ⟨fuel, count, ⟨-, hend, -⟩, rfl⟩ k hk
    -- the range after the last doubling has not wrapped, as it would be below that doubling
    have hkK : k ≤ count := by
      by_contra hlt
      have := hmono (show count + 1 ≤ k by omega)
      omega
    have hlast := hmono hkK
    by_contra hbig
    rw [pow_succ, ← Nat.mul_assoc] at hend
    omega
  · intro hno
    have hlast := hno K hlow
    have hnext : hdrTill.toNat * 2 ^ (K + 1) < 2 ^ 64 := by
      rw [pow_succ, ← Nat.mul_assoc]
      omega
    refine ⟨K + 1, K, ⟨fun i hi => ?_, ?_, Nat.lt_succ_self K⟩, rfl⟩
    · exact (Nat.mod_le _ _).trans ((hmono (show i + 1 ≤ K by omega)).trans hlow)
    · rwa [Nat.mod_eq_of_lt hnext]

theorem exponentialBucketCount_iff_four :
    1 ≤ (4 : UInt64).toNat ∧ (4 : UInt64).toNat ≤ (17 : UInt64).toNat ∧
      ∃ fuel count, exponentialBucketCount 17 fuel (4 * 2) = some count ∧
        count = (doublingCounts 4 17).ncard :=
  ⟨by decide, by decide, (exponentialBucketCount_iff (by decide) (by decide)).mpr
    fun _ hk => hk.trans_lt (by decide)⟩

/-- With `hdrTill` 1 and `maxValue` `2^63` the range becomes 0, and the loop goes on for ever. -/
theorem exponentialBucketCount_stuck :
    ¬∀ hdrTill maxValue : UInt64, 1 ≤ hdrTill.toNat → hdrTill.toNat ≤ maxValue.toNat →
      ∃ fuel count, exponentialBucketCount maxValue fuel (hdrTill * 2) = some count ∧
        count = (doublingCounts hdrTill maxValue).ncard := by
  intro hall
  obtain ⟨fuel, count, hcount, -⟩ := hall 1 9223372036854775808 (by decide) (by decide)
  have hnone : exponentialBucketCount 9223372036854775808 65 (1 * 2) = none := by decide
  rw [exponentialBucketCount_ends.mp ⟨fuel, hcount⟩] at hnone
  cases hnone

end Tpcc.Stats.THistogram
