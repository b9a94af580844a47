import Mathlib.Data.Int.ConditionallyCompleteOrder
import Mathlib.Data.Int.SuccPred
import Mathlib.Data.Int.Interval
import Mathlib.Data.Finset.Prod

/-! Keys without duplicates that fill a finite grid: their number and the bounds of their columns say
that they are the grid. -/

namespace Tpcc.Lib.Grid

/-- A column of the keys with the bounds of its values. -/
structure Column (κ : Type) where
  value : κ → Int
  low : Int
  high : Int

variable {κ : Type} {keys : List κ} {grid : Finset κ}

/-- The least and the greatest value of the column are its bounds. -/
def Column.Tight (c : Column κ) (keys : List κ) : Prop :=
  (keys.map c.value).min? = some c.low ∧ (keys.map c.value).max? = some c.high

/-- The keys of the grid are those within the bounds, and two of its keys have all the bounds. -/
structure Spans (columns : List (Column κ)) (grid : Finset κ) : Prop where
  mem : ∀ k, k ∈ grid ↔ ∀ c ∈ columns, c.low ≤ c.value k ∧ c.value k ≤ c.high
  low : ∃ k ∈ grid, ∀ c ∈ columns, c.value k = c.low
  high : ∃ k ∈ grid, ∀ c ∈ columns, c.value k = c.high

theorem Column.Tight.bounds {c : Column κ} (h : c.Tight keys) {k : κ} (hk : k ∈ keys) :
    c.low ≤ c.value k ∧ c.value k ≤ c.high :=
  ⟨(List.min?_eq_some_iff.mp h.1).2 _ (List.mem_map_of_mem hk),
    (List.max?_eq_some_iff.mp h.2).2 _ (List.mem_map_of_mem hk)⟩

variable [DecidableEq κ]

/-- Different keys are the grid when they lie in it and are as many. -/
theorem toFinset_eq_iff (hnodup : keys.Nodup) :
    keys.toFinset = grid ↔ keys.length = grid.card ∧ ∀ k ∈ keys, k ∈ grid := by
  have hcard := List.toFinset_card_of_nodup hnodup
  constructor
  · rintro rfl
    exact ⟨hcard.symm, fun k hk => List.mem_toFinset.mpr hk⟩
  · rintro ⟨hlength, hmem⟩
    refine Finset.eq_of_subset_of_card_le (fun k hk => hmem k (List.mem_toFinset.mp hk)) ?_
    rw [hcard, hlength]

variable {columns : List (Column κ)}

/-- A column of the grid has its bounds. -/
theorem Spans.tight (hspans : Spans columns grid) (hkeys : keys.toFinset = grid) {c : Column κ}
    (hc : c ∈ columns) : c.Tight keys := by
  have hbounds : ∀ v ∈ keys.map c.value, c.low ≤ v ∧ v ≤ c.high := by
    intro v hv
    obtain ⟨k, hk, rfl⟩ := List.mem_map.mp hv
    exact (hspans.mem k).mp (hkeys ▸ List.mem_toFinset.mpr hk) c hc
  have hvalue : ∀ k ∈ grid, c.value k ∈ keys.map c.value := by
    intro k hk
    rw [← hkeys] at hk
    exact List.mem_map_of_mem (List.mem_toFinset.mp hk)
  obtain ⟨first, hfirst, hlow⟩ := hspans.low
  obtain ⟨last, hlast, hhigh⟩ := hspans.high
  refine ⟨List.min?_eq_some_iff.mpr ⟨?_, fun v hv => (hbounds v hv).1⟩,
    List.max?_eq_some_iff.mpr ⟨?_, fun v hv => (hbounds v hv).2⟩⟩
  · rw [← hlow c hc]
    exact hvalue first hfirst
  · rw [← hhigh c hc]
    exact hvalue last hlast

/-- Different keys are the grid if and only if their number and the bounds of their columns are those
of the grid. -/
theorem Spans.keys_iff (hspans : Spans columns grid) (hnodup : keys.Nodup) :
    (keys.length = grid.card ∧ ∀ c ∈ columns, c.Tight keys) ↔ keys.toFinset = grid := by
  constructor
  · rintro ⟨hlength, htight⟩
    refine (toFinset_eq_iff hnodup).mpr ⟨hlength, fun k hk => (hspans.mem k).mpr fun c hc => ?_⟩
    exact (htight c hc).bounds hk
  · intro hkeys
    exact ⟨((toFinset_eq_iff hnodup).mp hkeys).1, fun c hc => hspans.tight hkeys hc⟩

section Products

variable {low high low' high' low'' high'' : Int}

theorem spans_Icc (h : low ≤ high) : Spans [⟨id, low, high⟩] (Finset.Icc low high) where
  mem k := by simp
  low := ⟨low, by simp [h], by simp⟩
  high := ⟨high, by simp [h], by simp⟩

theorem spans_prod (h : low ≤ high) (h' : low' ≤ high') :
    Spans [⟨Prod.fst, low, high⟩, ⟨Prod.snd, low', high'⟩]
      (Finset.Icc low high ×ˢ Finset.Icc low' high') where
  mem k := by simp
  low := ⟨(low, low'), by simp [h, h'], by simp⟩
  high := ⟨(high, high'), by simp [h, h'], by simp⟩

theorem spans_prod₃ (h : low ≤ high) (h' : low' ≤ high') (h'' : low'' ≤ high'') :
    Spans [⟨Prod.fst, low, high⟩, ⟨fun k => k.2.1, low', high'⟩, ⟨fun k => k.2.2, low'', high''⟩]
      (Finset.Icc low high ×ˢ Finset.Icc low' high' ×ˢ Finset.Icc low'' high'') where
  mem k := by simp
  low := ⟨(low, low', low''), by simp [h, h', h''], by simp⟩
  high := ⟨(high, high', high''), by simp [h, h', h''], by simp⟩

theorem keys_Icc_iff {keys : List Int} (h : low ≤ high) (hnodup : keys.Nodup) :
    (keys.length = (Finset.Icc low high).card ∧ keys.min? = some low ∧ keys.max? = some high) ↔
      keys.toFinset = Finset.Icc low high := by
  rw [← (spans_Icc h).keys_iff hnodup]
  simp [Column.Tight]

theorem keys_prod_iff {keys : List (Int × Int)} (h : low ≤ high) (h' : low' ≤ high')
    (hnodup : keys.Nodup) :
    (keys.length = (Finset.Icc low high ×ˢ Finset.Icc low' high').card ∧
      ((keys.map Prod.fst).min? = some low ∧ (keys.map Prod.fst).max? = some high) ∧
      (keys.map Prod.snd).min? = some low' ∧ (keys.map Prod.snd).max? = some high') ↔
      keys.toFinset = Finset.Icc low high ×ˢ Finset.Icc low' high' := by
  rw [← (spans_prod h h').keys_iff hnodup]
  simp [Column.Tight]

theorem keys_prod₃_iff {keys : List (Int × Int × Int)} (h : low ≤ high) (h' : low' ≤ high')
    (h'' : low'' ≤ high'') (hnodup : keys.Nodup) :
    (keys.length = (Finset.Icc low high ×ˢ Finset.Icc low' high' ×ˢ Finset.Icc low'' high'').card ∧
      ((keys.map Prod.fst).min? = some low ∧ (keys.map Prod.fst).max? = some high) ∧
      ((keys.map fun k => k.2.1).min? = some low' ∧ (keys.map fun k => k.2.1).max? = some high') ∧
      (keys.map fun k => k.2.2).min? = some low'' ∧ (keys.map fun k => k.2.2).max? = some high'') ↔
      keys.toFinset = Finset.Icc low high ×ˢ Finset.Icc low' high' ×ˢ Finset.Icc low'' high'' := by
  rw [← (spans_prod₃ h h' h'').keys_iff hnodup]
  simp [Column.Tight]

end Products

end Tpcc.Lib.Grid
