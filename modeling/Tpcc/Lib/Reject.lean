import Mathlib.Data.Finset.Card
import Mathlib.Order.Interval.Finset.Nat

/-! Multiply and reject: a uniform word `x` below `size` becomes the quotient of `x * range` by
`size`, and the words with the smallest remainders are drawn again, so that every quotient is left
with the same number of words. -/

namespace Tpcc.Lib.Reject

variable {size range k : Nat}

/-- A machine's `(0 - range) % range` is the remainder of the number of words. -/
theorem sub_mod_range (hle : range ≤ size) : (size - range) % range = size % range := by
  rw [← Nat.add_mod_right, Nat.sub_add_cancel hle]

/-- The multiples of `range` in an interval whose length is a multiple of it. -/
theorem filter_mul_eq_Ico (hpos : 0 < range) {start count : Nat}
    (hend : start + count * range ≤ size * range) :
    (Finset.range size).filter (fun x => start ≤ x * range ∧ x * range < start + count * range) =
      Finset.Ico ((start + range - 1) / range) ((start + range - 1) / range + count) := by
  have hfirst : ∀ x, start ≤ x * range ↔ (start + range - 1) / range ≤ x := by
    intro x
    rw [Nat.div_le_iff_le_mul_add_pred hpos, Nat.mul_comm range x]
    omega
  have hlast : ∀ x, x * range < start + count * range ↔ x < (start + range - 1) / range + count := by
    intro x
    rcases Nat.lt_or_ge x count with hx | hx
    · have hmul : x * range < count * range := (Nat.mul_lt_mul_right hpos).mpr hx
      exact iff_of_true (Nat.lt_add_left _ hmul) (Nat.lt_add_left _ hx)
    · obtain ⟨y, rfl⟩ := Nat.exists_eq_add_of_le' hx
      have hy := hfirst y
      rw [Nat.add_mul]
      omega
  ext x
  rw [Finset.mem_filter, Finset.mem_range, Finset.mem_Ico, hfirst, hlast]
  refine ⟨fun h => h.2, fun h => ⟨?_, h⟩⟩
  exact Nat.lt_of_mul_lt_mul_right (Nat.lt_of_lt_of_le ((hlast x).mpr h.2) hend)

/-- Every quotient is the result of the same number of accepted words. -/
theorem card_accepted (hpos : 0 < range) (hk : k < range) :
    ((Finset.range size).filter fun x =>
      size % range ≤ x * range % size ∧ x * range / size = k).card = size / range := by
  rcases Nat.eq_zero_or_pos size with rfl | hsize
  · simp
  have hsplit : size / range * range + size % range = size := Nat.div_add_mod' size range
  have hnext : (k + 1) * size ≤ range * size := Nat.mul_le_mul_right size hk
  have hend : k * size + size % range + size / range * range = (k + 1) * size := by
    rw [Nat.succ_mul]
    omega
  have hiff : ∀ x, (size % range ≤ x * range % size ∧ x * range / size = k) ↔
      k * size + size % range ≤ x * range ∧
        x * range < k * size + size % range + size / range * range := by
    intro x
    have hdiv := Nat.div_add_mod' (x * range) size
    have hmod := Nat.mod_lt (x * range) hsize
    rw [hend]
    constructor
    · rintro ⟨hle, rfl⟩
      rw [Nat.succ_mul]
      omega
    · rintro ⟨hlow, hhigh⟩
      have hq : x * range / size = k :=
        Nat.div_eq_of_lt_le (Nat.le_of_add_right_le hlow) hhigh
      rw [hq] at hdiv
      exact ⟨by omega, hq⟩
  rw [Finset.filter_congr fun x _ => hiff x, filter_mul_eq_Ico hpos (by
    rw [hend, Nat.mul_comm size range]
    exact hnext), Nat.card_Ico, Nat.add_sub_cancel_left]

/-- A result is below the range. -/
theorem quotient_lt (hpos : 0 < range) {x : Nat} (hx : x < size) : x * range / size < range :=
  Nat.div_lt_of_lt_mul ((Nat.mul_lt_mul_right hpos).mpr hx)

end Tpcc.Lib.Reject
