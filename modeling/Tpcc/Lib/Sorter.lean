import Mathlib.Order.MinMax
import Mathlib.Order.BoundedOrder.Basic
import Mathlib.Data.List.Basic

/-! Sorting by a key whose algorithm fixes no order among equal keys, and the least and greatest
keys of a list. -/

namespace Tpcc.Lib

variable {α τ : Type}

/-- A sorting routine for the key `key`: it permutes its input into an order that is sorted by
key.  Elements with equal keys may come out in any order. -/
structure Sorter [LE τ] (key : α → τ) where
  run : List α → List α
  perm : ∀ l, (run l).Perm l
  sorted : ∀ l, (run l).Pairwise fun a b => key a ≤ key b

/-- Merge sort, which keeps equal keys in their order, is such a routine. -/
def Sorter.mergeSort [LinearOrder τ] (key : α → τ) : Sorter key where
  run l := l.mergeSort fun a b => decide (key a ≤ key b)
  perm l := List.mergeSort_perm l _
  sorted l := by
    have hsorted : (l.mergeSort fun a b => decide (key a ≤ key b)).Pairwise
        fun a b => decide (key a ≤ key b) = true :=
      List.pairwise_mergeSort (fun a b c => by simpa using le_trans)
        (fun a b => by simpa using le_total (key a) (key b)) l
    simpa using hsorted

/-- The least key of a list, the top element for the empty list. -/
def leastKey [Min τ] [Top τ] (key : α → τ) (l : List α) : τ :=
  l.foldr (fun a t => min (key a) t) ⊤

/-- The greatest key of a list, the bottom element for the empty list. -/
def greatestKey [Max τ] [Bot τ] (key : α → τ) (l : List α) : τ :=
  l.foldr (fun a t => max (key a) t) ⊥

section Keys

variable [LinearOrder τ] [BoundedOrder τ] {key : α → τ} {l l' : List α} {t : τ}

@[simp] theorem leastKey_nil : leastKey key ([] : List α) = ⊤ := rfl

@[simp] theorem greatestKey_nil : greatestKey key ([] : List α) = ⊥ := rfl

@[simp] theorem le_leastKey : t ≤ leastKey key l ↔ ∀ a ∈ l, t ≤ key a := by
  induction l with
  | nil => simp
  | cons a l ih =>
    simp only [leastKey, List.foldr_cons, le_min_iff, List.forall_mem_cons]
    exact and_congr_right fun _ => ih

@[simp] theorem greatestKey_le : greatestKey key l ≤ t ↔ ∀ a ∈ l, key a ≤ t := by
  induction l with
  | nil => simp
  | cons a l ih =>
    simp only [greatestKey, List.foldr_cons, max_le_iff, List.forall_mem_cons]
    exact and_congr_right fun _ => ih

theorem leastKey_le {a : α} (h : a ∈ l) : leastKey key l ≤ key a :=
  le_leastKey.mp le_rfl a h

theorem le_greatestKey {a : α} (h : a ∈ l) : key a ≤ greatestKey key l :=
  greatestKey_le.mp le_rfl a h

theorem leastKey_congr (h : ∀ a, a ∈ l ↔ a ∈ l') : leastKey key l = leastKey key l' :=
  le_antisymm (le_leastKey.mpr fun a ha => leastKey_le ((h a).mpr ha))
    (le_leastKey.mpr fun a ha => leastKey_le ((h a).mp ha))

theorem greatestKey_congr (h : ∀ a, a ∈ l ↔ a ∈ l') : greatestKey key l = greatestKey key l' :=
  le_antisymm (greatestKey_le.mpr fun a ha => le_greatestKey ((h a).mp ha))
    (greatestKey_le.mpr fun a ha => le_greatestKey ((h a).mpr ha))

theorem leastKey_cons (a : α) : leastKey key (a :: l) = min (key a) (leastKey key l) := rfl

theorem greatestKey_cons (a : α) :
    greatestKey key (a :: l) = max (key a) (greatestKey key l) := rfl

/-- Some element of a nonempty list has the greatest key. -/
theorem exists_key_eq_greatestKey (h : l ≠ []) : ∃ a ∈ l, key a = greatestKey key l := by
  induction l with
  | nil => exact absurd rfl h
  | cons a l ih =>
    rw [greatestKey_cons]
    rcases le_total (greatestKey key l) (key a) with hle | hle
    · exact ⟨a, List.mem_cons_self, (max_eq_left hle).symm⟩
    · cases l with
      | nil =>
        refine ⟨a, List.mem_cons_self, ?_⟩
        rw [greatestKey_nil, max_eq_left bot_le]
      | cons b l =>
        obtain ⟨c, hc, he⟩ := ih (List.cons_ne_nil b l)
        exact ⟨c, List.mem_cons_of_mem _ hc, by rw [max_eq_right hle, he]⟩

end Keys

end Tpcc.Lib
