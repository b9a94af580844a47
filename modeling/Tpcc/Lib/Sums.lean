import Mathlib.Algebra.BigOperators.Group.Finset.Basic
import Mathlib.Algebra.Order.BigOperators.Group.Finset
import Mathlib.Algebra.BigOperators.Fin
import Mathlib.Data.Fintype.BigOperators

/-! Sums over the indices below `n` of which a step changes one term, and counts in lists over a
finite type. -/

namespace Tpcc.Lib

open Finset

/-- Two sums that differ in the term at `t` only. -/
theorem sum_range_step {n t : Nat} (ht : t < n) {f g : Nat → Nat} (h : ∀ i, i ≠ t → g i = f i) :
    ∑ i ∈ range n, g i + f t = ∑ i ∈ range n, f i + g t := by
  have hmem : t ∈ range n := mem_range.2 ht
  rw [← add_sum_erase _ g hmem, ← add_sum_erase _ f hmem]
  have hrest : ∑ i ∈ (range n).erase t, g i = ∑ i ∈ (range n).erase t, f i :=
    sum_congr rfl fun i hi => h i (ne_of_mem_erase hi)
  omega

theorem sum_range_congr {n : Nat} {f g : Nat → Nat} (h : ∀ i, g i = f i) :
    ∑ i ∈ range n, g i = ∑ i ∈ range n, f i := sum_congr rfl fun i _ => h i

/-- A term is at most the sum. -/
theorem le_sum_range {n t : Nat} (ht : t < n) (f : Nat → Nat) : f t ≤ ∑ i ∈ range n, f i :=
  single_le_sum (fun _ _ => Nat.zero_le _) (mem_range.2 ht)

/-- A sum of terms at most one is at most the number of terms. -/
theorem sum_range_le {n : Nat} {f : Nat → Nat} (h : ∀ i, f i ≤ 1) :
    ∑ i ∈ range n, f i ≤ n := by
  calc ∑ i ∈ range n, f i ≤ ∑ _i ∈ range n, 1 := sum_le_sum fun i _ => h i
    _ = n := by simp

/-- Where no element occurs more than once more often in `l` than in `l'`, the lengths differ by at
most the number of elements. -/
theorem length_le_of_count_le {α : Type} [Fintype α] [DecidableEq α] {l l' : List α}
    (h : ∀ a, l.count a ≤ l'.count a + 1) : l.length ≤ l'.length + Fintype.card α := by
  have hlength : ∀ m : List α, ∑ a, m.count a = m.length := by
    intro m
    have := Multiset.sum_count_eq_card (s := univ) (m := (m : Multiset α)) fun a _ => mem_univ a
    simpa using this
  calc l.length = ∑ a, l.count a := (hlength l).symm
    _ ≤ ∑ a, (l'.count a + 1) := sum_le_sum fun a _ => h a
    _ = l'.length + Fintype.card α := by
      rw [sum_add_distrib, hlength, sum_const, card_univ]
      simp

/-- Where every element of a list without duplicates occurs less often in `l` than in `l'`, and no
element more often, the lengths differ by at least the length of that list. -/
theorem length_add_le_of_count_lt {α : Type} [DecidableEq α] {held l l' : List α}
    (hnodup : held.Nodup) (hheld : ∀ a ∈ held, l.count a < l'.count a)
    (hall : ∀ a, l.count a ≤ l'.count a) : held.length + l.length ≤ l'.length := by
  rw [← List.length_append]
  refine (List.subperm_iff_count.2 fun a => ?_).length_le
  rw [List.count_append]
  by_cases ha : a ∈ held
  · have hone := List.count_eq_one_of_mem hnodup ha
    have hlt := hheld a ha
    omega
  · have hzero := List.count_eq_zero.2 ha
    have hle := hall a
    omega

end Tpcc.Lib
