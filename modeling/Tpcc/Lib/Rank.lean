import Mathlib.Data.List.Basic
import Mathlib.Order.Lattice

/-! The `k`-th smallest of some values, and the class it is in when the values are put into classes
that follow their order. -/

namespace Tpcc.Lib.Rank

variable {α : Type} [LinearOrder α] {values : List α} {k : Nat}

/-- The `k`-th smallest value, counted from 1. -/
def kthSmallest (values : List α) (k : Nat) : Option α := (values.mergeSort (· ≤ ·))[k - 1]?

/-- In a sorted list, at most `i` values are below the one at `i`, and more than `i` are not above
it. -/
theorem countP_sorted {sorted : List α} (hsorted : sorted.Pairwise (· ≤ ·)) {i : Nat}
    (hi : i < sorted.length) :
    sorted.countP (· < sorted[i]) ≤ i ∧ i + 1 ≤ sorted.countP (· ≤ sorted[i]) := by
  rw [List.pairwise_iff_getElem] at hsorted
  have hmono : ∀ j k (hj : j < sorted.length) (hk : k < sorted.length), j ≤ k →
      sorted[j] ≤ sorted[k] := by
    intro j k hj hk hjk
    rcases Nat.lt_or_eq_of_le hjk with hlt | rfl
    · exact hsorted j k hj hk hlt
    · exact le_rfl
  constructor
  · have hsplit : sorted.countP (· < sorted[i]) =
        (sorted.take i).countP (· < sorted[i]) + (sorted.drop i).countP (· < sorted[i]) := by
      rw [← List.countP_append, List.take_append_drop]
    have hrest : (sorted.drop i).countP (· < sorted[i]) = 0 := by
      refine List.countP_eq_zero.mpr fun a ha => ?_
      obtain ⟨j, hj, rfl⟩ := List.getElem_of_mem ha
      rw [List.getElem_drop, decide_eq_true_eq, not_lt]
      exact hmono i (i + j) hi _ (Nat.le_add_right i j)
    have hfirst : (sorted.take i).countP (· < sorted[i]) ≤ i :=
      Nat.le_trans List.countP_le_length (List.length_take_le i sorted)
    omega
  · have hfirst : (sorted.take (i + 1)).countP (· ≤ sorted[i]) = (sorted.take (i + 1)).length := by
      refine List.countP_eq_length.mpr fun a ha => ?_
      obtain ⟨j, hj, rfl⟩ := List.getElem_of_mem ha
      rw [List.length_take] at hj
      rw [List.getElem_take, decide_eq_true_eq]
      exact hmono j i (by omega) hi (by omega)
    have hle := (List.take_sublist (i + 1) sorted).countP_le (p := (· ≤ sorted[i]))
    rw [hfirst, List.length_take] at hle
    omega

/-- Less than `k` values are below the `k`-th smallest, and at least `k` are not above it. -/
theorem kthSmallest_spec (hpos : 1 ≤ k) (hle : k ≤ values.length) :
    ∃ v, kthSmallest values k = some v ∧ v ∈ values ∧ values.countP (· < v) < k ∧
      k ≤ values.countP (· ≤ v) := by
  have hperm := List.mergeSort_perm values (· ≤ ·)
  have hsorted : (values.mergeSort (· ≤ ·)).Pairwise (· ≤ ·) := by
    have hpairwise := @List.pairwise_mergeSort α (fun a b => decide (a ≤ b))
      (by simpa using fun a b c => le_trans) (by simpa using le_total) values
    simpa using hpairwise
  have hi : k - 1 < (values.mergeSort (· ≤ ·)).length := by
    rw [hperm.length_eq]
    omega
  obtain ⟨hbelow, hnotAbove⟩ := countP_sorted hsorted hi
  refine ⟨_, List.getElem?_eq_getElem hi, hperm.mem_iff.mp (List.getElem_mem hi), ?_, ?_⟩
  · rw [← hperm.countP_eq]
    omega
  · rw [← hperm.countP_eq]
    omega

/-- When the values are put into classes that follow their order, the values up to the class of the
`k`-th smallest are at least `k`, and those before it less. -/
theorem countP_class {index : α → Nat} (hmono : ∀ u v, u ≤ v → index u ≤ index v) {v : α}
    (hbelow : values.countP (· < v) < k) (hnotAbove : k ≤ values.countP (· ≤ v)) :
    k ≤ values.countP (fun u => index u ≤ index v) ∧
      ∀ i < index v, values.countP (fun u => index u ≤ i) < k := by
  constructor
  · refine Nat.le_trans hnotAbove (List.countP_mono_left fun u _ hu => ?_)
    exact decide_eq_true (hmono u v (of_decide_eq_true hu))
  · intro i hi
    refine Nat.lt_of_le_of_lt (List.countP_mono_left fun u _ hu => ?_) hbelow
    refine decide_eq_true (lt_of_not_ge fun hvu => ?_)
    have hindex := hmono v u hvu
    have hle := of_decide_eq_true hu
    omega

end Tpcc.Lib.Rank
