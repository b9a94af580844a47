import Mathlib.Algebra.BigOperators.Intervals
import Mathlib.Algebra.Order.BigOperators.Group.Finset
import Mathlib.Algebra.Order.Field.Basic
import Mathlib.Algebra.Order.Field.Rat
import Mathlib.Tactic.Linarith

/-! The displayed load of a queue thread.  The thread adds to `ExecutingTime` and then to `TotalTime`,
and `Collect` reads them in the same order, each in a step of its own.  Times are exact fractions. -/

namespace Tpcc.Stats

open Finset

/-- The times that the iterations of `RunThread` measure. -/
structure Times (α : Type) where
  executing : Nat → α
  total : Nat → α

/-- A step of the thread at the end of an iteration, or of `Collect`. -/
inductive Move
  | addExecuting
  | addTotal
  | readExecuting
  | readTotal
  deriving DecidableEq

/-- What `Collect` has read. -/
structure Snapshot (α : Type) where
  executingTime : α
  totalTime : α
  deriving DecidableEq

/-- The two counters, with the thread's iteration, whether it has made the first of its two updates,
what a `Collect` has read first, and the snapshots in order. -/
structure LoadState (α : Type) where
  executingTime : α
  totalTime : α
  iteration : Nat
  halfway : Bool
  collecting : Option α
  snapshots : List (Snapshot α)
  deriving DecidableEq

namespace LoadState

variable {α : Type} [Zero α] [Add α]

def start : LoadState α := ⟨0, 0, 0, false, none, []⟩

def step (times : Times α) (s : LoadState α) : Move → Option (LoadState α)
  | .addExecuting =>
    if s.halfway then none
    else
      some { s with
        executingTime := s.executingTime + times.executing s.iteration
        halfway := true }
  | .addTotal =>
    if s.halfway then
      some { s with
        totalTime := s.totalTime + times.total s.iteration
        iteration := s.iteration + 1
        halfway := false }
    else none
  | .readExecuting =>
    match s.collecting with
    | none => some { s with collecting := some s.executingTime }
    | some _ => none
  | .readTotal =>
    match s.collecting with
    | none => none
    | some executingTime =>
      some { s with
        collecting := none
        snapshots := s.snapshots ++ [⟨executingTime, s.totalTime⟩] }

/-- The state after the steps of a schedule. -/
def run (times : Times α) (schedule : List Move) : Option (LoadState α) :=
  schedule.foldlM (step times) start

end LoadState

/-- `Load` as `CalculateDerivative` computes it. -/
def load (prev cur : Snapshot Rat) : Rat :=
  let executingTime := cur.executingTime - prev.executingTime
  let totalTime := cur.totalTime - prev.totalTime
  if totalTime ≠ 0 then executingTime / totalTime else 0

def barWidth : Int := 10

/-- `static_cast<int>(load * barWidth)`. -/
def filledBars (load : Rat) : Int :=
  let bars := load * barWidth
  if 0 ≤ bars then bars.floor else bars.ceil

/-- A load that can be displayed. -/
structure Fraction (load : Rat) : Prop where
  nonneg : 0 ≤ load
  le_one : load ≤ 1
  filled : 0 ≤ filledBars load
  blank : 0 ≤ barWidth - filledBars load

/-- Execution is a part of each iteration. -/
structure Times.Valid (times : Times Rat) : Prop where
  nonneg : ∀ i, 0 ≤ times.executing i
  le : ∀ i, times.executing i ≤ times.total i

/-- Every time is 1, so that the counters count iterations. -/
def counting : Times Nat := ⟨fun _ => 1, fun _ => 1⟩

/-- Of the iterations behind two snapshots: those whose execution was added in between, if any, had
their total added in between too, or no total was. -/
def Aligned (prev cur : Snapshot Nat) : Prop :=
  prev.executingTime = cur.executingTime ∨ prev.totalTime = cur.totalTime ∨
    prev.totalTime ≤ prev.executingTime ∧ cur.executingTime ≤ cur.totalTime

section Counters

variable {times : Times Rat}

/-- The times of so many iterations. -/
def Snapshot.weigh (times : Times Rat) (c : Snapshot Nat) : Snapshot Rat :=
  ⟨∑ i ∈ range c.executingTime, times.executing i, ∑ i ∈ range c.totalTime, times.total i⟩

def LoadState.weigh (times : Times Rat) (s : LoadState Nat) : LoadState Rat where
  executingTime := ∑ i ∈ range s.executingTime, times.executing i
  totalTime := ∑ i ∈ range s.totalTime, times.total i
  iteration := s.iteration
  halfway := s.halfway
  collecting := s.collecting.map fun n => ∑ i ∈ range n, times.executing i
  snapshots := s.snapshots.map (.weigh times)

/-- The counters count, and go up from snapshot to snapshot. -/
structure Counts (s : LoadState Nat) : Prop where
  executing : s.executingTime = s.iteration + s.halfway.toNat
  total : s.totalTime = s.iteration
  collecting : ∀ n ∈ s.collecting, n ≤ s.executingTime
  sorted : s.snapshots.Pairwise fun prev cur =>
    prev.executingTime ≤ cur.executingTime ∧ prev.totalTime ≤ cur.totalTime
  last : ∀ c ∈ s.snapshots, c.executingTime ≤ s.collecting.getD s.executingTime ∧
    c.totalTime ≤ s.totalTime

theorem counts_start : Counts .start where
  executing := rfl
  total := rfl
  collecting := by simp [LoadState.start]
  sorted := .nil
  last := by simp [LoadState.start]

theorem Counts.step {s s' : LoadState Nat} (h : Counts s) {m : Move}
    (hstep : s.step counting m = some s') : Counts s' := by
  obtain ⟨hexecuting, htotal, hcollecting, hsorted, hlast⟩ := h
  cases m with
  | addExecuting =>
    simp only [LoadState.step] at hstep
    split at hstep
    · cases hstep
    · next hhalf =>
      cases hstep
      rw [Bool.not_eq_true] at hhalf
      refine ⟨by simp [hexecuting, hhalf, counting], htotal,
        fun n hn => (hcollecting n hn).trans (Nat.le_add_right _ _), hsorted, fun c hc => ?_⟩
      refine ⟨(hlast c hc).1.trans ?_, (hlast c hc).2⟩
      cases s.collecting with
      | none => exact Nat.le_add_right _ _
      | some n => exact Nat.le_refl n
  | addTotal =>
    simp only [LoadState.step] at hstep
    split at hstep
    · next hhalf =>
      cases hstep
      exact ⟨by simp [hexecuting, hhalf], by simp [htotal, counting], hcollecting, hsorted,
        fun c hc => ⟨(hlast c hc).1, (hlast c hc).2.trans (Nat.le_add_right _ _)⟩⟩
    · cases hstep
  | readExecuting =>
    simp only [LoadState.step] at hstep
    split at hstep
    · next hnone =>
      cases hstep
      rw [hnone] at hlast
      exact ⟨hexecuting, htotal, by simp, hsorted, hlast⟩
    · cases hstep
  | readTotal =>
    simp only [LoadState.step] at hstep
    split at hstep
    · cases hstep
    · next n hsome =>
      cases hstep
      rw [hsome] at hlast
      have hn : n ≤ s.executingTime := hcollecting n (by simp [hsome])
      refine ⟨hexecuting, htotal, by simp, ?_, fun c hc => ?_⟩
      · simp only [List.pairwise_append, List.mem_singleton, forall_eq]
        exact ⟨hsorted, List.pairwise_singleton _ _, hlast⟩
      · rcases List.mem_append.1 hc with hc | hc
        · exact ⟨(hlast c hc).1.trans hn, (hlast c hc).2⟩
        · rw [List.mem_singleton.1 hc]
          exact ⟨hn, Nat.le_refl _⟩

/-- The counters of a run are the times of the iterations that the counting run has counted. -/
theorem step_weigh {s : LoadState Nat} (h : Counts s) (m : Move) :
    (s.weigh times).step times m = (s.step counting m).map (.weigh times) := by
  cases m with
  | addExecuting =>
    by_cases hhalf : s.halfway = true
    · simp [LoadState.step, LoadState.weigh, hhalf]
    · have hcount : s.executingTime = s.iteration := by simpa [hhalf] using h.executing
      simp [LoadState.step, LoadState.weigh, hhalf, counting, sum_range_succ, hcount]
  | addTotal =>
    by_cases hhalf : s.halfway = true
    · simp [LoadState.step, LoadState.weigh, hhalf, counting, sum_range_succ, h.total]
    · simp [LoadState.step, LoadState.weigh, hhalf]
  | readExecuting =>
    simp only [LoadState.step, LoadState.weigh]
    cases s.collecting <;> simp [LoadState.weigh]
  | readTotal =>
    simp only [LoadState.step, LoadState.weigh]
    cases s.collecting <;> simp [LoadState.weigh, Snapshot.weigh]

theorem foldlM_weigh {s : LoadState Nat} (h : Counts s) (schedule : List Move) :
    schedule.foldlM (LoadState.step times) (s.weigh times) =
      (schedule.foldlM (LoadState.step counting) s).map (.weigh times) := by
  induction schedule generalizing s with
  | nil => rfl
  | cons m schedule ih =>
    rw [List.foldlM_cons, List.foldlM_cons, step_weigh h]
    cases hstep : s.step counting m with
    | none => rfl
    | some s' => exact ih (h.step hstep)

theorem counts_foldlM {s s' : LoadState Nat} (h : Counts s) {schedule : List Move}
    (hrun : schedule.foldlM (LoadState.step counting) s = some s') : Counts s' := by
  induction schedule generalizing s with
  | nil =>
    cases hrun
    exact h
  | cons m schedule ih =>
    rw [List.foldlM_cons] at hrun
    obtain ⟨next, hstep, hrest⟩ := Option.bind_eq_some_iff.1 hrun
    exact ih (h.step hstep) hrest

theorem run_weigh (schedule : List Move) :
    LoadState.run times schedule = (LoadState.run counting schedule).map (.weigh times) := by
  have hstart : (LoadState.start : LoadState Rat) = LoadState.start.weigh times := by
    simp [LoadState.start, LoadState.weigh]
  rw [LoadState.run, hstart]
  exact foldlM_weigh counts_start schedule

end Counters

section Fractions

theorem Fraction.of_le {x : Rat} (hnonneg : 0 ≤ x) (hle : x ≤ 1) : Fraction x := by
  have hbars : 0 ≤ x * barWidth := mul_nonneg hnonneg (by decide)
  have hfilled : filledBars x = (x * barWidth).floor := if_pos hbars
  refine ⟨hnonneg, hle, ?_, ?_⟩
  · rw [hfilled, Rat.le_floor_iff]
    exact hbars
  · have hfloor : (x * barWidth).floor ≤ (barWidth : Rat).floor := by
      refine Rat.floor_monotone ?_
      nlinarith [show (0 : Rat) ≤ barWidth by decide]
    rw [Rat.floor_intCast] at hfloor
    rw [hfilled]
    omega

variable {times : Times Rat} {prev cur : Snapshot Nat}

theorem load_weigh (hexecuting : prev.executingTime ≤ cur.executingTime)
    (htotal : prev.totalTime ≤ cur.totalTime) :
    load (prev.weigh times) (cur.weigh times) =
      if ∑ i ∈ Ico prev.totalTime cur.totalTime, times.total i ≠ 0 then
        (∑ i ∈ Ico prev.executingTime cur.executingTime, times.executing i) /
          ∑ i ∈ Ico prev.totalTime cur.totalTime, times.total i
      else 0 := by
  rw [sum_Ico_eq_sub _ hexecuting, sum_Ico_eq_sub _ htotal]
  rfl

/-- The execution of iterations whose totals count is at most those totals. -/
theorem Aligned.fraction (h : Aligned prev cur) (hvalid : times.Valid)
    (hexecuting : prev.executingTime ≤ cur.executingTime)
    (htotal : prev.totalTime ≤ cur.totalTime) :
    Fraction (load (prev.weigh times) (cur.weigh times)) := by
  have hzero : Fraction 0 := .of_le (by decide) (by decide)
  rw [load_weigh hexecuting htotal]
  split
  · next hne =>
    rcases h with hsame | hsame | ⟨hfirst, hlast⟩
    · rw [hsame, Ico_self, sum_empty, zero_div]
      exact hzero
    · exact absurd (by rw [hsame, Ico_self, sum_empty]) hne
    · have hpos : 0 ≤ ∑ i ∈ Ico prev.totalTime cur.totalTime, times.total i :=
        sum_nonneg fun i _ => (hvalid.nonneg i).trans (hvalid.le i)
      have hle : ∑ i ∈ Ico prev.executingTime cur.executingTime, times.executing i ≤
          ∑ i ∈ Ico prev.totalTime cur.totalTime, times.total i :=
        (sum_le_sum fun i _ => hvalid.le i).trans
          (sum_le_sum_of_subset_of_nonneg (Ico_subset_Ico hfirst hlast)
            fun i _ _ => (hvalid.nonneg i).trans (hvalid.le i))
      refine .of_le (div_nonneg (sum_nonneg fun i _ => hvalid.nonneg i) hpos) ?_
      exact (div_le_one (lt_of_le_of_ne hpos (Ne.symm hne))).2 hle
  · exact hzero

/-- Iteration `i` takes 2, all of it executing, and iteration `j` takes 1. -/
def unbalanced (i j : Nat) : Times Rat where
  executing k := if k = i then 2 else 0
  total k := if k = i then 2 else if k = j then 1 else 0

theorem unbalanced_valid (i j : Nat) : (unbalanced i j).Valid where
  nonneg k := by
    simp only [unbalanced]
    split <;> norm_num
  le k := by
    simp only [unbalanced]
    split
    · exact le_refl _
    · split <;> norm_num

/-- An iteration of which only the execution was added in between can make the load 2. -/
theorem aligned_of_fraction (hexecuting : prev.executingTime ≤ cur.executingTime)
    (htotal : prev.totalTime ≤ cur.totalTime)
    (h : ∀ times : Times Rat, times.Valid →
      Fraction (load (prev.weigh times) (cur.weigh times))) : Aligned prev cur := by
  by_contra hnot
  simp only [Aligned, not_or, not_and_or, not_le] at hnot
  obtain ⟨hsomeExecuting, hsomeTotal, hmisses⟩ := hnot
  -- an iteration in the first interval and not in the second
  obtain ⟨i, hi, hi'⟩ : ∃ i ∈ Ico prev.executingTime cur.executingTime,
      i ∉ Ico prev.totalTime cur.totalTime := by
    rcases hmisses with hfirst | hlast
    · exact ⟨prev.executingTime, by simp; omega, by simp; omega⟩
    · refine ⟨cur.executingTime - 1, by simp; omega, by simp; omega⟩
  have hj : prev.totalTime ∈ Ico prev.totalTime cur.totalTime := by simp; omega
  have hfraction := h (unbalanced i prev.totalTime) (unbalanced_valid i prev.totalTime)
  have htwo : ∑ k ∈ Ico prev.executingTime cur.executingTime,
      (unbalanced i prev.totalTime).executing k = 2 := by
    simp only [unbalanced, sum_ite_eq', if_pos hi]
  have hone : ∑ k ∈ Ico prev.totalTime cur.totalTime,
      (unbalanced i prev.totalTime).total k = 1 := by
    have hsame : ∀ k ∈ Ico prev.totalTime cur.totalTime,
        (unbalanced i prev.totalTime).total k = if k = prev.totalTime then 1 else 0 := by
      intro k hk
      have hne : k ≠ i := fun heq => hi' (heq ▸ hk)
      simp only [unbalanced, if_neg hne]
    rw [sum_congr rfl hsame, sum_ite_eq', if_pos hj]
  rw [load_weigh hexecuting htotal, htwo, hone, if_pos one_ne_zero, div_one] at hfraction
  exact absurd hfraction.le_one (by decide)

end Fractions

/-- The load of two successive snapshots is a fraction, whatever the times, if and only if no
iteration between them has only its execution added there. -/
theorem load_fraction_iff (schedule : List Move) :
    (∀ times : Times Rat, times.Valid → ∀ s, LoadState.run times schedule = some s →
      ∀ prev cur, [prev, cur] <:+: s.snapshots → Fraction (load prev cur)) ↔
    ∀ s, LoadState.run counting schedule = some s →
      ∀ prev cur, [prev, cur] <:+: s.snapshots → Aligned prev cur := by
  have hsorted : ∀ s, LoadState.run counting schedule = some s →
      ∀ prev cur, [prev, cur] <:+: s.snapshots →
        prev.executingTime ≤ cur.executingTime ∧ prev.totalTime ≤ cur.totalTime := by
    intro s hrun prev cur hpair
    have hpairwise := (counts_foldlM counts_start hrun).sorted.sublist hpair.sublist
    exact List.rel_of_pairwise_cons hpairwise List.mem_cons_self
  constructor
  · intro h s hrun prev cur hpair
    obtain ⟨hexecuting, htotal⟩ := hsorted s hrun prev cur hpair
    refine aligned_of_fraction hexecuting htotal fun times hvalid => ?_
    exact h times hvalid (s.weigh times) (by rw [run_weigh, hrun]; rfl) _ _ (hpair.map _)
  · intro h times hvalid s' hrun' prev' cur' hpair'
    rw [run_weigh, Option.map_eq_some_iff] at hrun'
    obtain ⟨s, hrun, rfl⟩ := hrun'
    obtain ⟨pair, hpair, heq⟩ := List.infix_map_iff.1 hpair'
    obtain ⟨prev, rest, rfl, rfl, hrest⟩ := List.map_eq_cons_iff.1 heq.symm
    obtain ⟨cur, rfl, rfl⟩ := List.map_eq_singleton_iff.1 hrest
    obtain ⟨hexecuting, htotal⟩ := hsorted s hrun prev cur hpair
    exact (h s hrun prev cur hpair).fraction hvalid hexecuting htotal

/-- A second without a task, and then a task of ten seconds. -/
def longTask : Times Rat where
  executing i := if i = 0 then 0 else 10
  total i := if i = 0 then 1 else 10

theorem longTask_valid : longTask.Valid where
  nonneg i := by
    simp only [longTask]
    split <;> norm_num
  le i := by
    simp only [longTask]
    split <;> norm_num

/-- A `Collect` between the two updates of the second iteration: the load is 10, and the bar would
have `-90` blanks. -/
theorem load_exceeds_one :
    ¬∀ (times : Times Rat) (schedule : List Move), times.Valid →
      ∀ s, LoadState.run times schedule = some s →
        ∀ prev cur, [prev, cur] <:+: s.snapshots → Fraction (load prev cur) := by
  intro hall
  have hrun : LoadState.run longTask [.readExecuting, .readTotal, .addExecuting, .addTotal,
      .addExecuting, .readExecuting, .readTotal] =
        some ⟨10, 1, 1, true, none, [⟨0, 0⟩, ⟨10, 1⟩]⟩ := by decide +kernel
  have hload : load ⟨0, 0⟩ ⟨10, 1⟩ = 10 := by decide +kernel
  have hfraction := hall longTask _ longTask_valid _ hrun ⟨0, 0⟩ ⟨10, 1⟩ (List.infix_refl _)
  have hle := hfraction.le_one
  rw [hload] at hle
  exact absurd hle (by decide)

end Tpcc.Stats
