import Tpcc.TimerQueue.Peek

/-! The sleeping tasks of a thread and the ready queue that `ProcessSleepingTasks` moves them to.  The
loop tests the deadline that it peeks and moves the task that it pops, which is due no later: no task
is woken early. -/

namespace Tpcc.TimerQueue

open Lib TBinnedTimerQueue

variable {α : Type}

/-- The part of `TPerThreadContext` that sleeping concerns.  The times of the ready tasks are left
out. -/
structure TSleepContext (α : Type) where
  sleepingTasks : TBinnedTimerQueue TTimePoint α
  readyTasksInternal : List α

namespace TSleepContext

/-- `AsyncSleep` at time `now`, unless the deadline is not representable. -/
def asyncSleep (now : TTimePoint) (delay : Int) (handle : α) (c : TSleepContext α) :
    Option (TSleepContext α) :=
  (now.addMicroseconds delay).map fun deadline =>
    { c with sleepingTasks := c.sleepingTasks.add deadline handle }

/-- `TryPush` on the ready queue. -/
def tryPush (capacity : Nat) (handle : α) (c : TSleepContext α) : Option (TSleepContext α) :=
  if c.readyTasksInternal.length < capacity then
    some { c with readyTasksInternal := c.readyTasksInternal ++ [handle] }
  else none

/-- The loop of `ProcessSleepingTasks` from iteration `i` on, with the items that it pops.
`wakeupAll` is what each iteration reads of the flag, and `none` a read out of range or an
exception, also that of a full ready queue. -/
def processSleepingTasksFrom (std : Sorter (TItem.deadline (τ := TTimePoint) (α := α)))
    (capacity : Nat) (now : TTimePoint) (wakeupAll : Nat → Bool) :
    Nat → Nat → TSleepContext α → Option (List (TItem TTimePoint α) × TSleepContext α)
  | 0, _, c => some ([], c)
  | fuel + 1, i, c =>
    if c.sleepingTasks.empty then some ([], c)
    else
      match c.sleepingTasks.getNextDeadline with
      | none => none
      | some deadline =>
        if deadline ≤ now ∨ wakeupAll i = true then
          match c.sleepingTasks.popFront std with
          | .error _ => none
          | .ok (item, q) =>
            match tryPush capacity item.value { c with sleepingTasks := q } with
            | none => none
            | some c' =>
              (processSleepingTasksFrom std capacity now wakeupAll fuel (i + 1) c').map
                fun result => (item :: result.1, result.2)
        else some ([], c)

/-- Every iteration takes one item away, so the size bounds their number. -/
def processSleepingTasks (std : Sorter (TItem.deadline (τ := TTimePoint) (α := α))) (capacity : Nat)
    (now : TTimePoint) (wakeupAll : Nat → Bool) (c : TSleepContext α) :
    Option (List (TItem TTimePoint α) × TSleepContext α) :=
  c.processSleepingTasksFrom std capacity now wakeupAll c.sleepingTasks.size 0

end TSleepContext

open TSleepContext

/-- A call of `AsyncSleep`. -/
structure SleepCall (α : Type) where
  start : TTimePoint
  delay : Int
  handle : α

/-- What the call adds to the timer queue. -/
def SleepCall.item? (call : SleepCall α) : Option (TItem TTimePoint α) :=
  (call.start.addMicroseconds call.delay).map fun deadline => ⟨deadline, call.handle⟩

/-- The contexts that `AsyncSleep` and `ProcessSleepingTasks` reach, with the calls so far and the
items moved so far.  The clock may give any times, and the ready queue changes in any way in
between. -/
inductive Reach (std : Sorter (TItem.deadline (τ := TTimePoint) (α := α)))
    (bucketCount bucketSoftLimit capacity : Nat) :
    TSleepContext α → List (SleepCall α) → List (TItem TTimePoint α) → Prop
  | new {q : TBinnedTimerQueue TTimePoint α}
      (h : TBinnedTimerQueue.new bucketCount bucketSoftLimit = .ok q) :
      Reach std bucketCount bucketSoftLimit capacity ⟨q, []⟩ [] []
  | asyncSleep {c c' : TSleepContext α} {calls : List (SleepCall α)}
      {moved : List (TItem TTimePoint α)} (now : TTimePoint) (delay : Int) (handle : α)
      (reach : Reach std bucketCount bucketSoftLimit capacity c calls moved)
      (h : c.asyncSleep now delay handle = some c') :
      Reach std bucketCount bucketSoftLimit capacity c' (calls ++ [⟨now, delay, handle⟩]) moved
  | processSleepingTasks {c c' : TSleepContext α} {calls : List (SleepCall α)}
      {moved items : List (TItem TTimePoint α)} (now : TTimePoint) (wakeupAll : Nat → Bool)
      (reach : Reach std bucketCount bucketSoftLimit capacity c calls moved)
      (h : c.processSleepingTasks std capacity now wakeupAll = some (items, c')) :
      Reach std bucketCount bucketSoftLimit capacity c' calls (moved ++ items)
  | others {c : TSleepContext α} {calls : List (SleepCall α)} {moved : List (TItem TTimePoint α)}
      (readyTasksInternal : List α) (hroom : readyTasksInternal.length ≤ capacity)
      (reach : Reach std bucketCount bucketSoftLimit capacity c calls moved) :
      Reach std bucketCount bucketSoftLimit capacity { c with readyTasksInternal } calls moved

section Process

variable {std : Sorter (TItem.deadline (τ := TTimePoint) (α := α))} {capacity : Nat}
  {now : TTimePoint} {wakeupAll : Nat → Bool} {fuel i : Nat} {ready : List α}
  {q q' : TBinnedTimerQueue TTimePoint α} {deadline : TTimePoint}

/-- An iteration that wakes a task. -/
theorem sleepLoop_pop {item : TItem TTimePoint α} (hsize : q.size ≠ 0)
    (hpeek : q.getNextDeadline = some deadline) (hdue : deadline ≤ now ∨ wakeupAll i = true)
    (hpop : q.popFront std = .ok (item, q')) :
    TSleepContext.processSleepingTasksFrom std capacity now wakeupAll (fuel + 1) i ⟨q, ready⟩ =
      if ready.length < capacity then
        (TSleepContext.processSleepingTasksFrom std capacity now wakeupAll fuel (i + 1)
          ⟨q', ready ++ [item.value]⟩).map fun r => (item :: r.1, r.2)
      else none := by
  by_cases hroom : ready.length < capacity
  · simp [TSleepContext.processSleepingTasksFrom, TBinnedTimerQueue.empty, hsize, hpeek, hdue, hpop,
      tryPush, hroom]
  · simp [TSleepContext.processSleepingTasksFrom, TBinnedTimerQueue.empty, hsize, hpeek, hdue, hpop,
      tryPush, hroom]

/-- An iteration that ends the loop with tasks asleep. -/
theorem sleepLoop_stop (hpeek : q.getNextDeadline = some deadline)
    (hdue : ¬(deadline ≤ now ∨ wakeupAll i = true)) :
    TSleepContext.processSleepingTasksFrom std capacity now wakeupAll (fuel + 1) i ⟨q, ready⟩ =
      some ([], ⟨q, ready⟩) := by
  simp [TSleepContext.processSleepingTasksFrom, hpeek, hdue]

theorem asyncSleep_eq {c c' : TSleepContext α} {now : TTimePoint} {delay : Int} {handle : α}
    (h : c.asyncSleep now delay handle = some c') :
    ∃ deadline, now.addMicroseconds delay = some deadline ∧
      c' = { c with sleepingTasks := c.sleepingTasks.add deadline handle } := by
  obtain ⟨deadline, hdeadline, rfl⟩ := Option.map_eq_some_iff.mp h
  exact ⟨deadline, hdeadline, rfl⟩

/-- Without the ready queue this is the loop over the timer queue alone. -/
theorem sleepLoop_sleepingTasks {c c' : TSleepContext α} {items : List (TItem TTimePoint α)}
    (h : c.processSleepingTasksFrom std capacity now wakeupAll fuel i = some (items, c')) :
    c.sleepingTasks.processSleepingTasksFrom std now wakeupAll fuel i =
      some (items.map TItem.value, c'.sleepingTasks) := by
  induction fuel generalizing c i items with
  | zero =>
    obtain ⟨rfl, rfl⟩ := Prod.mk.inj (Option.some.inj h)
    rfl
  | succ fuel ih =>
    rw [TSleepContext.processSleepingTasksFrom] at h
    rw [TBinnedTimerQueue.processSleepingTasksFrom]
    by_cases hempty : c.sleepingTasks.empty = true
    · rw [if_pos hempty] at h ⊢
      obtain ⟨rfl, rfl⟩ := Prod.mk.inj (Option.some.inj h)
      rfl
    · rw [if_neg hempty] at h ⊢
      cases hpeek : c.sleepingTasks.getNextDeadline with
      | none =>
        rw [hpeek] at h
        cases h
      | some deadline =>
        simp only [hpeek] at h ⊢
        by_cases hdue : deadline ≤ now ∨ wakeupAll i = true
        · rw [if_pos hdue] at h ⊢
          cases hpop : c.sleepingTasks.popFront std with
          | error e =>
            rw [hpop] at h
            cases h
          | ok popped =>
            obtain ⟨item, q'⟩ := popped
            simp only [hpop, tryPush] at h ⊢
            split at h
            · cases h
            · next c'' hpush =>
              split at hpush
              · obtain rfl := Option.some.inj hpush
                obtain ⟨result, hrest, hresult⟩ := Option.map_eq_some_iff.mp h
                obtain ⟨rfl, rfl⟩ := Prod.mk.inj hresult
                have hqueue := ih hrest
                dsimp only at hqueue
                rw [hqueue]
                rfl
              · cases hpush
        · rw [if_neg hdue] at h ⊢
          obtain ⟨rfl, rfl⟩ := Prod.mk.inj (Option.some.inj h)
          rfl

end Process

section Reach

variable [DecidableEq α] {std : Sorter (TItem.deadline (τ := TTimePoint) (α := α))}
  {bucketCount bucketSoftLimit capacity : Nat} {q : TBinnedTimerQueue TTimePoint α}
  {pending : Multiset (TItem TTimePoint α)}

/-- The loop takes items from the pending ones in the order of their deadlines, each of them due or
with the flag set, and pushes their handles as long as there is room. -/
theorem Run.sleepLoop (run : Run std bucketCount bucketSoftLimit q pending) (now : TTimePoint)
    (wakeupAll : Nat → Bool) (i : Nat) :
    ∃ (items : List (TItem TTimePoint α)) (q' : _) (asleep : _),
      Run std bucketCount bucketSoftLimit q' asleep ∧ pending = ↑items + asleep ∧
      items.Pairwise (fun x y => x.deadline ≤ y.deadline) ∧
      ((∀ k, wakeupAll k = false) → ∀ item ∈ items, item.deadline ≤ now) ∧
      ((∀ k, wakeupAll k = true) → asleep = 0) ∧
      ∀ ready : List α, ready.length ≤ capacity →
        TSleepContext.processSleepingTasksFrom std capacity now wakeupAll q.size i ⟨q, ready⟩ =
        if ready.length + items.length ≤ capacity then
          some (items, ⟨q', ready ++ items.map TItem.value⟩)
        else none := by
  induction hfuel : q.size generalizing q pending i with
  | zero =>
    have hnone : pending = 0 := Multiset.card_eq_zero.mp (run.size_eq.symm.trans hfuel)
    refine ⟨[], q, pending, run, by simp, List.Pairwise.nil, by simp, fun _ => hnone, ?_⟩
    intro ready hready
    simp [TSleepContext.processSleepingTasksFrom, hready]
  | succ fuel ih =>
    have hne : pending ≠ 0 := by
      rintro rfl
      have := run.size_eq
      simp [hfuel] at this
    have hsize : q.size ≠ 0 := by omega
    obtain ⟨item, q', deadline, hpop, hmem, hleast, run', hsize', hpeek, hle, -⟩ := run.peek hne
    by_cases hdue : deadline ≤ now ∨ wakeupAll i = true
    · obtain ⟨items, q'', asleep, run'', hsplit, hsorted, hearly, hall, hloop⟩ :=
        ih run' (i + 1) (by omega)
      have hpending : pending = ((item :: items : List _) : Multiset _) + asleep := by
        rw [← Multiset.cons_coe, Multiset.cons_add, ← hsplit, Multiset.cons_erase hmem]
      refine ⟨item :: items, q'', asleep, run'', hpending, ?_, ?_, hall, ?_⟩
      · refine List.pairwise_cons.mpr ⟨fun other hother => hleast other ?_, hsorted⟩
        rw [hpending]
        exact Multiset.mem_add.mpr (.inl (List.mem_cons_of_mem item hother))
      · intro hunset other hother
        rcases List.mem_cons.mp hother with rfl | hother
        · refine le_trans hle (hdue.resolve_right ?_)
          simp [hunset i]
        · exact hearly hunset other hother
      · intro ready hready
        rw [sleepLoop_pop hsize hpeek hdue hpop]
        by_cases hroom : ready.length < capacity
        · have hcount : (ready ++ [item.value]).length + items.length ≤ capacity ↔
              ready.length + (item :: items).length ≤ capacity := by
            simp only [List.length_append, List.length_cons, List.length_nil]
            omega
          have hpushed : (ready ++ [item.value]).length ≤ capacity := by
            rw [List.length_append]
            exact hroom
          rw [if_pos hroom, hloop _ hpushed]
          simp only [hcount]
          split
          · simp
          · rfl
        · rw [if_neg hroom, if_neg]
          simp only [List.length_cons]
          omega
    · refine ⟨[], q, pending, run, by simp, List.Pairwise.nil, by simp, ?_, ?_⟩
      · intro hset
        exact absurd (.inr (hset i)) hdue
      · intro ready hready
        rw [sleepLoop_stop hpeek hdue]
        simp [hready]

variable {c : TSleepContext α} {calls : List (SleepCall α)} {moved : List (TItem TTimePoint α)}

/-- Every call's item has been moved once or is pending. -/
theorem Reach.run (reach : Reach std bucketCount bucketSoftLimit capacity c calls moved) :
    ∃ pending, Run std bucketCount bucketSoftLimit c.sleepingTasks pending ∧
      c.readyTasksInternal.length ≤ capacity ∧
      (↑(calls.filterMap SleepCall.item?) : Multiset (TItem TTimePoint α)) = ↑moved + pending := by
  induction reach with
  | new h => exact ⟨0, .new h, Nat.zero_le _, rfl⟩
  | @asyncSleep c c' calls moved now delay handle _ h ih =>
    obtain ⟨pending, run, hroom, hcalls⟩ := ih
    obtain ⟨deadline, hdeadline, rfl⟩ := asyncSleep_eq h
    refine ⟨_, run.add now delay handle hdeadline, hroom, ?_⟩
    have hitem : [(⟨now, delay, handle⟩ : SleepCall α)].filterMap SleepCall.item? =
        [⟨deadline, handle⟩] := by
      simp [SleepCall.item?, hdeadline]
    rw [List.filterMap_append, hitem, ← Multiset.coe_add, hcalls, Multiset.add_cons, Multiset.add_comm,
      Multiset.coe_singleton, Multiset.singleton_add]
  | @processSleepingTasks c c' calls moved items now wakeupAll _ h ih =>
    obtain ⟨pending, run, hroom, hcalls⟩ := ih
    obtain ⟨items', q', asleep, run', hsplit, -, -, -, hloop⟩ := run.sleepLoop now wakeupAll 0
    have hprocess := h.symm.trans (hloop c.readyTasksInternal hroom)
    split at hprocess
    · next hfits =>
      obtain ⟨rfl, rfl⟩ := Prod.mk.inj (Option.some.inj hprocess)
      refine ⟨asleep, run', ?_, ?_⟩
      · simpa using hfits
      · rw [hcalls, hsplit, ← Multiset.coe_add, Multiset.add_assoc]
    · cases hprocess
  | others readyTasksInternal hroom _ ih =>
    obtain ⟨pending, run, -, hcalls⟩ := ih
    exact ⟨pending, run, hroom, hcalls⟩

/-- From every context that is reached, `ProcessSleepingTasks` moves tasks to the ready queue in the
order of their deadlines, each once, and keeps the others asleep.  While the flag is not set, the
deadline of each of them is over, so that it slept at least as long as its call asked for; with the
flag set none stays asleep. -/
theorem processSleepingTasks_not_early
    (reach : Reach std bucketCount bucketSoftLimit capacity c calls moved) (now : TTimePoint)
    (wakeupAll : Nat → Bool) :
    ∃ (items : List (TItem TTimePoint α)) (q' : _) (pending asleep : _),
      Run std bucketCount bucketSoftLimit c.sleepingTasks pending ∧
      Run std bucketCount bucketSoftLimit q' asleep ∧ pending = ↑items + asleep ∧
      ↑(calls.filterMap SleepCall.item?) = ↑moved + pending ∧
      (c.readyTasksInternal.length + items.length ≤ capacity →
        c.processSleepingTasks std capacity now wakeupAll =
          some (items, ⟨q', c.readyTasksInternal ++ items.map TItem.value⟩)) ∧
      items.Pairwise (fun x y => x.deadline ≤ y.deadline) ∧
      ((∀ k, wakeupAll k = false) → ∀ item ∈ items, item.deadline ≤ now ∧
        ∃ call ∈ calls, call.handle = item.value ∧
          call.start.count + 1000 * call.delay ≤ now.count) ∧
      ((∀ k, wakeupAll k = true) → asleep = 0) := by
  obtain ⟨pending, run, hroom, hcalls⟩ := reach.run
  obtain ⟨items, q', asleep, run', hsplit, hsorted, hdue, hall, hloop⟩ :=
    run.sleepLoop now wakeupAll 0
  refine ⟨items, q', pending, asleep, run, run', hsplit, hcalls, fun hfits => ?_, hsorted,
    fun hunset item hitem => ⟨hdue hunset item hitem, ?_⟩, hall⟩
  · exact (hloop c.readyTasksInternal hroom).trans (if_pos hfits)
  · have hmem : item ∈ (↑(calls.filterMap SleepCall.item?) : Multiset (TItem TTimePoint α)) := by
      rw [hcalls, hsplit]
      exact Multiset.mem_add.mpr (.inr (Multiset.mem_add.mpr (.inl hitem)))
    obtain ⟨call, hcall, hadded⟩ := List.mem_filterMap.mp (Multiset.mem_coe.mp hmem)
    obtain ⟨deadline, hdeadline, rfl⟩ := Option.map_eq_some_iff.mp hadded
    refine ⟨call, hcall, rfl, ?_⟩
    rw [← TTimePoint.count_addMicroseconds hdeadline]
    exact hdue hunset _ hitem

/-- Two tasks, of which the second one is due first, and time for one of them. -/
theorem processSleepingTasks_not_early_two :
    ∃ (c : TSleepContext Nat) (calls : List (SleepCall Nat)) (items : List (TItem TTimePoint Nat)),
      Reach (.mergeSort TItem.deadline) 2 1 4 c calls [] ∧ calls.length = 2 ∧
        items.Pairwise (fun x y => x.deadline ≤ y.deadline) ∧
        ∀ item ∈ items, item.deadline ≤ (⟨3000, by decide, by decide⟩ : TTimePoint) := by
  have epoch : Reach (.mergeSort TItem.deadline) 2 1 4 _ [] [] := .new (α := Nat) rfl
  have first := epoch.asyncSleep ⟨0, by decide, by decide⟩ 7 1 rfl
  have second := first.asyncSleep ⟨1000, by decide, by decide⟩ 2 2 rfl
  obtain ⟨items, q', pending, asleep, -, -, -, -, -, hsorted, hdue, -⟩ :=
    processSleepingTasks_not_early second ⟨3000, by decide, by decide⟩ fun _ => false
  exact ⟨_, _, items, second, rfl, hsorted, fun item hitem => (hdue (fun _ => rfl) item hitem).1⟩

end Reach

end Tpcc.TimerQueue
