import Mathlib.Algebra.Group.Nat.Defs
import Mathlib.Data.Nat.Log

/-! Unbounded counters kept in 64-bit words: differences and masks of wrapped words are those of the
counters. -/

namespace Tpcc.Lib

theorem word_succ (n : Nat) : UInt64.ofNat n + 1 = UInt64.ofNat (n + 1) := by
  rw [UInt64.ofNat_add]
  rfl

/-- The difference of two wrapped counters whose distance fits a word. -/
theorem word_sub_toNat {a b : Nat} (hle : b ≤ a) (hfit : a < b + 2 ^ 64) :
    (UInt64.ofNat a - UInt64.ofNat b).toNat = a - b := by
  have hsum : UInt64.ofNat a = UInt64.ofNat (a - b) + UInt64.ofNat b := by
    rw [← UInt64.ofNat_add]
    congr 1
    omega
  rw [hsum, UInt64.add_sub_cancel]
  exact UInt64.toNat_ofNat_of_lt' (by simp only [UInt64.size]; omega)

theorem word_sub_eq_iff {a b : Nat} {c : UInt64} (hle : b ≤ a) (hfit : a < b + 2 ^ 64) :
    UInt64.ofNat a - UInt64.ofNat b = c ↔ a = b + c.toNat := by
  rw [← UInt64.toNat_inj, word_sub_toNat hle hfit]
  omega

theorem word_eq_iff {a b : Nat} (hle : b ≤ a) (hfit : a < b + 2 ^ 64) :
    UInt64.ofNat b = UInt64.ofNat a ↔ a = b := by
  constructor
  · intro h
    have hdiff := word_sub_toNat hle hfit
    rw [h] at hdiff
    simp only [UInt64.sub_self, UInt64.toNat_zero] at hdiff
    omega
  · rintro rfl
    rfl

/-- Masking a wrapped counter with a power of two less one reduces the counter modulo the power. -/
theorem word_and_mask {n k : Nat} {cap : UInt64} (hcap : cap.toNat = 2 ^ k) :
    (UInt64.ofNat n &&& (cap - 1)).toNat = n % cap.toNat := by
  have hk : k < 64 := by
    have hlt := cap.toNat_lt
    rw [hcap] at hlt
    exact (Nat.pow_lt_pow_iff_right (by omega)).1 hlt
  have hone : (cap - 1).toNat = 2 ^ k - 1 := by
    rw [UInt64.toNat_sub_of_le _ _ (by
      rw [UInt64.le_iff_toNat_le, hcap]
      exact Nat.one_le_two_pow), hcap]
    rfl
  rw [UInt64.toNat_and, hone, Nat.and_two_pow_sub_one_eq_mod, hcap, UInt64.toNat_ofNat']
  exact Nat.mod_mod_of_dvd n (Nat.pow_dvd_pow 2 (Nat.le_of_lt hk))

end Tpcc.Lib
