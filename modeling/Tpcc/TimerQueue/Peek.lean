import Tpcc.TimerQueue.Refinement

/-! `GetNextDeadline` against `PopFront`: when the peek shows the deadline that the pop returns, and
what `ProcessSleepingTasks` leaves asleep. -/

namespace Tpcc.TimerQueue

open Lib

section

variable {τ α : Type} [LinearOrder τ] [BoundedOrder τ]

/-- Whether the first item of a bucket is due no later than the others. -/
def TBucket.firstLeast (b : TBucket τ α) : Bool :=
  match b.items with
  | [] => true
  | first :: others => others.all fun item => decide (first.deadline ≤ item.deadline)

namespace TBinnedTimerQueue

/-- Whether an item of the current bucket is left, or the first item of the next bucket is due no
later than the others of that bucket. -/
def peeksLeast (q : TBinnedTimerQueue τ α) : Bool :=
  decide (q.currentCursor < (q.bucket q.currentBucket).size) ||
    (q.bucket ((q.currentBucket + 1) % q.bucketCount)).firstLeast

/-- Whether the first item of every bucket but the current one is due no later than the others of
its bucket. -/
def laterLeast (q : TBinnedTimerQueue τ α) : Bool :=
  (q.buckets.rotate q.currentBucket).tail.all TBucket.firstLeast

/-- The loop of `ProcessSleepingTasks` from iteration `i` on, with the handles that it wakes.
`wakeupAll` is what each iteration reads of the flag, and `none` a read out of range or an
exception. -/
def processSleepingTasksFrom (std : Sorter (TItem.deadline (τ := τ) (α := α))) (now : τ)
    (wakeupAll : Nat → Bool) : Nat → Nat → TBinnedTimerQueue τ α →
    Option (List α × TBinnedTimerQueue τ α)
  | 0, _, q => some ([], q)
  | fuel + 1, i, q =>
    if q.empty then some ([], q)
    else
      match q.getNextDeadline with
      | none => none
      | some deadline =>
        if deadline ≤ now ∨ wakeupAll i = true then
          match q.popFront std with
          | .error _ => none
          | .ok (item, q') =>
            (processSleepingTasksFrom std now wakeupAll fuel (i + 1) q').map fun (woken, q'') =>
              (item.value :: woken, q'')
        else some ([], q)

/-- Every iteration takes one item away, so the size bounds their number. -/
def processSleepingTasks (std : Sorter (TItem.deadline (τ := τ) (α := α))) (now : τ)
    (wakeupAll : Nat → Bool) (q : TBinnedTimerQueue τ α) : Option (List α × TBinnedTimerQueue τ α) :=
  q.processSleepingTasksFrom std now wakeupAll q.size 0

end TBinnedTimerQueue

open TBinnedTimerQueue

section Peek

variable {q : TBinnedTimerQueue τ α} {cur : TBucket τ α} {rest : List (TBucket τ α)}

theorem Holds.bucket_after {b : TBucket τ α} (h : Holds q cur (b :: rest)) :
    q.bucket ((q.currentBucket + 1) % q.bucketCount) = b := by
  have hsplit : cur :: b :: rest = [cur] ++ b :: rest := rfl
  have hb := h.bucket_at hsplit
  rwa [List.length_singleton, Nat.add_comm] at hb

/-- With an item behind the cursor both the peek and the pop take that item. -/
theorem Holds.getNextDeadline_current (h : Holds q cur rest) {item : TItem τ α}
    (hitem : cur.items[q.currentCursor]? = some item) :
    q.getNextDeadline = some item.deadline ∧ q.peeksLeast = true := by
  have hlt : q.currentCursor < cur.items.length := (List.getElem?_eq_some_iff.mp hitem).1
  have hsize : q.size ≠ 0 := by
    rw [h.size, pendingOf, List.length_append, List.length_drop]
    omega
  constructor
  · simp [getNextDeadline, hsize, h.bucket_current, hitem]
  · simp [peeksLeast, h.bucket_current, TBucket.size, hlt]

/-- With a current bucket that is used up the peek shows the first item of the next one. -/
theorem Holds.getNextDeadline_after {b : TBucket τ α} (h : Holds q cur (b :: rest))
    (hused : cur.items.length ≤ q.currentCursor) {first : TItem τ α} {others : List (TItem τ α)}
    (hitems : b.items = first :: others) :
    q.getNextDeadline = some first.deadline ∧
      (q.peeksLeast = true ↔ ∀ item ∈ others, first.deadline ≤ item.deadline) := by
  have hsize : q.size ≠ 0 := by
    rw [h.size, pendingOf, List.length_append, List.flatMap_cons, hitems]
    simp
  have hnone : cur.items[q.currentCursor]? = none := List.getElem?_eq_none_iff.mpr hused
  constructor
  · simp [getNextDeadline, hsize, h.bucket_current, hnone, h.bucket_after, hitems]
  · simp [peeksLeast, TBucket.firstLeast, h.bucket_current, h.bucket_after, hitems, TBucket.size,
      hused]

/-- The peek shows the deadline of the item that the pop returns exactly when it looks at an item
that is due first. -/
theorem Holds.peek_iff (h : Holds q cur rest) (std : Sorter (TItem.deadline (τ := τ) (α := α)))
    {item : TItem τ α} {q' : TBinnedTimerQueue τ α} (hpop : q.popFront std = .ok (item, q')) :
    q.getNextDeadline = some item.deadline ↔ q.peeksLeast = true := by
  have hsize := popFront_size_ne hpop
  cases hcurrent : cur.items[q.currentCursor]? with
  | some current =>
    obtain ⟨hpop', -⟩ := h.popFront_current std hcurrent
    obtain ⟨rfl, -⟩ := popFront_unique hpop hpop'
    obtain ⟨hpeek, hleast⟩ := h.getNextDeadline_current hcurrent
    exact iff_of_true hpeek hleast
  | none =>
    have hused := List.getElem?_eq_none_iff.mp hcurrent
    cases rest with
    | nil => exact absurd rfl h.several
    | cons b rest =>
      obtain ⟨first, others, hitems⟩ :=
        List.exists_cons_of_ne_nil (h.next_ne_nil hused hsize)
      obtain ⟨hpeek, hleast⟩ := h.getNextDeadline_after hused hitems
      obtain ⟨item', q'', cur', rest', hpop', -, hperm, hmin⟩ := h.popFront std hsize
      obtain ⟨rfl, -⟩ := popFront_unique hpop hpop'
      have hpending : pendingOf q.currentCursor cur (b :: rest) =
          first :: others ++ rest.flatMap TBucket.items := by
        rw [pendingOf, List.drop_of_length_le hused, List.flatMap_cons, hitems]
        rfl
      have hitem : item ∈ first :: others ++ rest.flatMap TBucket.items := by
        rw [← hpending]
        exact hperm.mem_iff.mpr List.mem_cons_self
      rw [hpending] at hmin
      rw [hpeek, hleast, Option.some_inj]
      constructor
      · intro heq other hother
        rw [heq]
        exact hmin other (by simp [hother])
      · intro hall
        refine le_antisymm ?_ (hmin first (by simp))
        rcases List.mem_append.mp hitem with hitem | hitem
        · rcases List.mem_cons.mp hitem with rfl | hitem
          · exact le_rfl
          · exact hall item hitem
        · obtain ⟨c, hc, hitem⟩ := List.mem_flatMap.mp hitem
          have hordered := List.pairwise_cons.mp (List.pairwise_cons.mp h.ordered).2
          exact hordered.1 c hc first (by simp [hitems]) item hitem

/-- The peek shows the deadline of a pending item. -/
theorem Holds.exists_getNextDeadline (h : Holds q cur rest) (hsize : q.size ≠ 0) :
    ∃ first ∈ pendingOf q.currentCursor cur rest, q.getNextDeadline = some first.deadline := by
  cases hcurrent : cur.items[q.currentCursor]? with
  | some current =>
    refine ⟨current, ?_, (h.getNextDeadline_current hcurrent).1⟩
    refine List.mem_append_left _ (List.mem_of_getElem? (i := 0) ?_)
    rw [List.getElem?_drop, Nat.add_zero, hcurrent]
  | none =>
    have hused := List.getElem?_eq_none_iff.mp hcurrent
    cases rest with
    | nil => exact absurd rfl h.several
    | cons b rest =>
      obtain ⟨first, others, hitems⟩ :=
        List.exists_cons_of_ne_nil (h.next_ne_nil hused hsize)
      refine ⟨first, ?_, (h.getNextDeadline_after hused hitems).1⟩
      refine List.mem_append_right _ (List.mem_flatMap.mpr ⟨b, List.mem_cons_self, ?_⟩)
      rw [hitems]
      exact List.mem_cons_self

end Peek

/-- The queues that are reached from `q` by `PopFront` alone. -/
inductive Drains (std : Sorter (TItem.deadline (τ := τ) (α := α))) (q : TBinnedTimerQueue τ α) :
    TBinnedTimerQueue τ α → Prop
  | refl : Drains std q q
  | popFront {s s' : TBinnedTimerQueue τ α} {item : TItem τ α} (drains : Drains std q s)
      (h : s.popFront std = .ok (item, s')) : Drains std q s'

theorem Drains.head {std : Sorter (TItem.deadline (τ := τ) (α := α))}
    {q q' s : TBinnedTimerQueue τ α} {item : TItem τ α} (h : q.popFront std = .ok (item, q'))
    (drains : Drains std q' s) : Drains std q s := by
  induction drains with
  | refl => exact .popFront .refl h
  | popFront _ hlast ih => exact ih.popFront hlast

/-- A queue from which something can be popped ends the draining, or the draining begins with that
pop. -/
theorem Drains.cases_head {std : Sorter (TItem.deadline (τ := τ) (α := α))}
    {q s : TBinnedTimerQueue τ α} (drains : Drains std q s) :
    s = q ∨ ∃ item q', q.popFront std = .ok (item, q') ∧ Drains std q' s := by
  induction drains with
  | refl => exact .inl rfl
  | popFront _ hlast ih =>
    rcases ih with rfl | ⟨item, q', hpop, hrest⟩
    · exact .inr ⟨_, _, hlast, .refl⟩
    · exact .inr ⟨item, q', hpop, hrest.popFront hlast⟩

/-- A property of all queues that draining passes through is one of the first of them and of those
after the first pop. -/
theorem drains_forall_iff {std : Sorter (TItem.deadline (τ := τ) (α := α))}
    {q q' : TBinnedTimerQueue τ α} {item : TItem τ α} (h : q.popFront std = .ok (item, q'))
    {P : TBinnedTimerQueue τ α → Prop} :
    (∀ s, Drains std q s → P s) ↔ P q ∧ ∀ s, Drains std q' s → P s := by
  refine ⟨fun hall => ⟨hall q .refl, fun s hs => hall s (.head h hs)⟩, fun hall s hs => ?_⟩
  rcases hs.cases_head with rfl | ⟨item', q'', hpop, hrest⟩
  · exact hall.1
  · obtain ⟨rfl, rfl⟩ := popFront_unique h hpop
    exact hall.2 s hrest

/-- The peeks on the way are right exactly when every later bucket holds the item that is due first
in front: a pop sorts the bucket that it moves to and leaves the ones behind it as they are. -/
theorem Holds.drains_iff {q : TBinnedTimerQueue τ α} {cur : TBucket τ α}
    {rest : List (TBucket τ α)} (h : Holds q cur rest)
    (std : Sorter (TItem.deadline (τ := τ) (α := α))) :
    (∀ s, Drains std q s → s.size ≠ 0 → s.peeksLeast = true) ↔
      rest.all TBucket.firstLeast = true := by
  induction hfuel : q.size generalizing q cur rest with
  | zero =>
    have hempty := h.pending_eq_nil hfuel
    refine iff_of_true (fun s hs hsize => ?_) (List.all_eq_true.mpr fun b hb => ?_)
    · rcases hs.cases_head with rfl | ⟨item, q', hpop, -⟩
      · exact absurd hfuel hsize
      · exact absurd hfuel (popFront_size_ne hpop)
    · have hnil := List.flatMap_eq_nil_iff.mp (List.append_eq_nil_iff.mp hempty).2 b hb
      simp [TBucket.firstLeast, hnil]
  | succ fuel ih =>
    have hsize : q.size ≠ 0 := by omega
    cases hitem : cur.items[q.currentCursor]? with
    | some item =>
      obtain ⟨hpop, hholds, -, -⟩ := h.popFront_current std hitem
      have hpeek := (h.getNextDeadline_current hitem).2
      have hless : q.size - 1 = fuel := by omega
      rw [drains_forall_iff hpop, ih hholds hless]
      exact and_iff_right fun _ => hpeek
    | none =>
      have hused := List.getElem?_eq_none_iff.mp hitem
      cases rest with
      | nil => exact absurd rfl h.several
      | cons b rest =>
        obtain ⟨item, q', hpop, hholds, hless, -, -⟩ := h.popFront_next std hused hsize
        have hpeek : q.peeksLeast = b.firstLeast := by
          simp [peeksLeast, h.bucket_current, h.bucket_after, TBucket.size, hused]
        have hclear : (TBucket.clear : TBucket τ α).firstLeast = true := rfl
        rw [drains_forall_iff hpop, ih hholds (by omega), hpeek, List.all_append, List.all_cons,
          List.all_cons, hclear, List.all_nil, Bool.and_true, Bool.and_true, Bool.and_eq_true]
        exact and_congr_left fun _ => ⟨fun hb => hb hsize, fun hb _ => hb⟩

theorem Holds.laterLeast_eq {q : TBinnedTimerQueue τ α} {cur : TBucket τ α}
    {rest : List (TBucket τ α)} (h : Holds q cur rest) :
    q.laterLeast = rest.all TBucket.firstLeast := by
  rw [laterLeast, h.ring, List.tail_cons]

/-- An iteration of `ProcessSleepingTasks` that wakes a task. -/
theorem processSleepingTasksFrom_pop {std : Sorter (TItem.deadline (τ := τ) (α := α))} {now : τ}
    {wakeupAll : Nat → Bool} {fuel i : Nat} {q q' : TBinnedTimerQueue τ α} {deadline : τ}
    {item : TItem τ α} (hsize : q.size ≠ 0) (hpeek : q.getNextDeadline = some deadline)
    (hdue : deadline ≤ now ∨ wakeupAll i = true) (hpop : q.popFront std = .ok (item, q')) :
    q.processSleepingTasksFrom std now wakeupAll (fuel + 1) i =
      (q'.processSleepingTasksFrom std now wakeupAll fuel (i + 1)).map fun (woken, q'') =>
        (item.value :: woken, q'') := by
  simp [processSleepingTasksFrom, TBinnedTimerQueue.empty, hsize, hpeek, hdue, hpop]

/-- An iteration that ends the loop with tasks asleep. -/
theorem processSleepingTasksFrom_stop {std : Sorter (TItem.deadline (τ := τ) (α := α))} {now : τ}
    {wakeupAll : Nat → Bool} {fuel i : Nat} {q : TBinnedTimerQueue τ α} {deadline : τ}
    (hpeek : q.getNextDeadline = some deadline)
    (hdue : ¬(deadline ≤ now ∨ wakeupAll i = true)) :
    q.processSleepingTasksFrom std now wakeupAll (fuel + 1) i = some ([], q) := by
  simp [processSleepingTasksFrom, hpeek, hdue]

end

section Run

variable {α : Type} [DecidableEq α] {std : Sorter (TItem.deadline (τ := TTimePoint) (α := α))}
  {bucketCount bucketSoftLimit : Nat} {q : TBinnedTimerQueue TTimePoint α}
  {pending : Multiset (TItem TTimePoint α)}

/-- In a reachable queue with pending items the pop returns one that is due first, and the peek
shows a pending item's deadline, which is the right one exactly when the peek looks at an item that
is due first. -/
theorem Run.peek (run : Run std bucketCount bucketSoftLimit q pending) (hne : pending ≠ 0) :
    ∃ item q' deadline, q.popFront std = .ok (item, q') ∧ item ∈ pending ∧
      (∀ other ∈ pending, item.deadline ≤ other.deadline) ∧
      Run std bucketCount bucketSoftLimit q' (pending.erase item) ∧
      q.size = q'.size + 1 ∧ q.getNextDeadline = some deadline ∧ item.deadline ≤ deadline ∧
      (deadline = item.deadline ↔ q.peeksLeast = true) := by
  obtain ⟨cur, rest, hholds, rfl⟩ := run.holds
  have hsize : q.size ≠ 0 := fun he => hne (by rw [hholds.pending_eq_nil he]; rfl)
  obtain ⟨item, q', cur', rest', hpop, hholds', hperm, hleast⟩ := hholds.popFront std hsize
  obtain ⟨deadline, hpeek, hle⟩ : ∃ deadline, q.getNextDeadline = some deadline ∧
      item.deadline ≤ deadline := by
    obtain ⟨first, hfirst, hpeek⟩ := hholds.exists_getNextDeadline hsize
    exact ⟨first.deadline, hpeek, hleast first hfirst⟩
  have hiff := hholds.peek_iff std hpop
  rw [hpeek, Option.some_inj] at hiff
  refine ⟨item, q', deadline, hpop, ?_, hleast, run.popFront hpop, ?_, hpeek, hle, hiff⟩
  · exact Multiset.mem_coe.mpr (hperm.mem_iff.mpr List.mem_cons_self)
  · rw [hholds.size, hholds'.size, hperm.length_eq]
    rfl

/-- A queue determines its pending items. -/
theorem Run.pending_unique {pending' : Multiset (TItem TTimePoint α)}
    (run : Run std bucketCount bucketSoftLimit q pending)
    (run' : Run std bucketCount bucketSoftLimit q pending') : pending = pending' := by
  obtain ⟨cur, rest, hholds, rfl⟩ := run.holds
  obtain ⟨cur', rest', hholds', rfl⟩ := run'.holds
  obtain ⟨rfl, rfl⟩ := List.cons.inj (hholds.ring.symm.trans hholds'.ring)
  rfl

theorem Run.size_eq (run : Run std bucketCount bucketSoftLimit q pending) :
    q.size = pending.card := by
  obtain ⟨cur, rest, hholds, rfl⟩ := run.holds
  exact hholds.size

theorem Run.drains {s : TBinnedTimerQueue TTimePoint α}
    (run : Run std bucketCount bucketSoftLimit q pending) (drains : Drains std q s) :
    ∃ pending' ≤ pending, Run std bucketCount bucketSoftLimit s pending' := by
  induction drains with
  | refl => exact ⟨pending, le_rfl, run⟩
  | popFront _ hlast ih =>
    obtain ⟨pending', hle, run'⟩ := ih
    exact ⟨_, (Multiset.erase_le _ _).trans hle, run'.popFront hlast⟩

/-- Where every peek on the way is right, the loop leaves no task asleep that is due. -/
theorem Run.process_sound (run : Run std bucketCount bucketSoftLimit q pending)
    (hpeeks : ∀ s, Drains std q s → s.size ≠ 0 → s.peeksLeast = true) (now : TTimePoint)
    (wakeupAll : Nat → Bool) (i : Nat) :
    ∃ woken q' asleep, q.processSleepingTasksFrom std now wakeupAll q.size i = some (woken, q') ∧
      Run std bucketCount bucketSoftLimit q' asleep ∧ ∀ item ∈ asleep, now < item.deadline := by
  induction hfuel : q.size generalizing q pending i with
  | zero =>
    have hnone : pending = 0 := Multiset.card_eq_zero.mp (run.size_eq.symm.trans hfuel)
    exact ⟨[], q, pending, rfl, run, by simp [hnone]⟩
  | succ fuel ih =>
    have hne : pending ≠ 0 := by
      rintro rfl
      have := run.size_eq
      simp [hfuel] at this
    have hsize : q.size ≠ 0 := by omega
    obtain ⟨item, q', deadline, hpop, hmem, hleast, run', hsize', hpeek, -, hiff⟩ := run.peek hne
    by_cases hdue : deadline ≤ now ∨ wakeupAll i = true
    · obtain ⟨woken, q'', asleep, hloop, hrun, hlate⟩ :=
        ih run' (fun s hs => hpeeks s (.head hpop hs)) (i + 1) (by omega)
      refine ⟨item.value :: woken, q'', asleep, ?_, hrun, hlate⟩
      rw [processSleepingTasksFrom_pop hsize hpeek hdue hpop, hloop]
      rfl
    · refine ⟨[], q, pending, processSleepingTasksFrom_stop hpeek hdue, run, ?_⟩
      intro other hother
      have hexact := hiff.mpr (hpeeks q .refl hsize)
      rw [hexact] at hdue
      exact lt_of_lt_of_le (not_le.mp fun hle => hdue (.inl hle)) (hleast other hother)

/-- Where a peek on the way is wrong, the loop stops before a task that is due, if it is called when
the first task that the peek does not show is due. -/
theorem Run.process_stuck {s : TBinnedTimerQueue TTimePoint α}
    {left : Multiset (TItem TTimePoint α)} {due : TItem TTimePoint α}
    (run : Run std bucketCount bucketSoftLimit q pending) (drains : Drains std q s)
    (hrun : Run std bucketCount bucketSoftLimit s left) (hdue : due ∈ left)
    (hpeek : ∀ deadline, s.getNextDeadline = some deadline → due.deadline < deadline) (i : Nat) :
    ∃ woken q' asleep, q.processSleepingTasksFrom std due.deadline (fun _ => false) q.size i =
        some (woken, q') ∧
      Run std bucketCount bucketSoftLimit q' asleep ∧
      ∃ item ∈ asleep, item.deadline ≤ due.deadline := by
  have hmem : due ∈ pending := by
    obtain ⟨left', hle, hrun'⟩ := run.drains drains
    rw [hrun.pending_unique hrun'] at hdue
    exact Multiset.mem_of_le hle hdue
  have hne : pending ≠ 0 := by
    rintro rfl
    exact Multiset.notMem_zero _ hmem
  induction hfuel : q.size generalizing q pending i with
  | zero => exact absurd (Multiset.card_eq_zero.mp (run.size_eq.symm.trans hfuel)) hne
  | succ fuel ih =>
    have hsize : q.size ≠ 0 := by omega
    obtain ⟨item, q', deadline, hpop, -, hleast, run', hsize', hshown, -, -⟩ := run.peek hne
    by_cases hearly : deadline ≤ due.deadline
    · rcases drains.cases_head with rfl | ⟨item', q'', hpop', hrest⟩
      · exact absurd hearly (not_le.mpr (hpeek deadline hshown))
      · obtain ⟨rfl, rfl⟩ := popFront_unique hpop hpop'
        have hmem' : due ∈ pending.erase item := by
          obtain ⟨left', hle, hrun'⟩ := run'.drains hrest
          rw [hrun.pending_unique hrun'] at hdue
          exact Multiset.mem_of_le hle hdue
        have hne' : pending.erase item ≠ 0 := by
          intro he
          rw [he] at hmem'
          exact Multiset.notMem_zero _ hmem'
        obtain ⟨woken, last, asleep, hloop, hlast, hasleep⟩ :=
          ih run' hrest (i + 1) hmem' hne' (by omega)
        refine ⟨item.value :: woken, last, asleep, ?_, hlast, hasleep⟩
        rw [processSleepingTasksFrom_pop hsize hshown (.inl hearly) hpop, hloop]
        rfl
    · exact ⟨[], q, pending, processSleepingTasksFrom_stop hshown (by simpa using hearly), run, due,
        hmem, le_rfl⟩

/-- The peek shows the deadline of the item that the next pop returns, which is due first. -/
def PeekExact (std : Sorter (TItem.deadline (τ := TTimePoint) (α := α)))
    (q : TBinnedTimerQueue TTimePoint α) (pending : Multiset (TItem TTimePoint α)) : Prop :=
  ∃ item q', q.popFront std = .ok (item, q') ∧ item ∈ pending ∧
    (∀ other ∈ pending, item.deadline ≤ other.deadline) ∧
    q.getNextDeadline = some item.deadline

/-- For every time, `ProcessSleepingTasks` leaves no task asleep that is due. -/
def WakesDue (std : Sorter (TItem.deadline (τ := TTimePoint) (α := α)))
    (bucketCount bucketSoftLimit : Nat) (q : TBinnedTimerQueue TTimePoint α) : Prop :=
  ∀ now wakeupAll, ∃ woken q' asleep,
    q.processSleepingTasks std now wakeupAll = some (woken, q') ∧
      Run std bucketCount bucketSoftLimit q' asleep ∧ ∀ item ∈ asleep, now < item.deadline

/-- `ProcessSleepingTasks` leaves no due task asleep, whatever the time, exactly when every peek on
the way is right. -/
theorem Run.wakesDue_iff (run : Run std bucketCount bucketSoftLimit q pending) :
    WakesDue std bucketCount bucketSoftLimit q ↔
      ∀ s, Drains std q s → s.size ≠ 0 → s.peeksLeast = true := by
  refine ⟨fun hwakes s hdrains hsize => ?_, fun hpeeks now wakeupAll =>
    run.process_sound hpeeks now wakeupAll 0⟩
  obtain ⟨left, -, hleft⟩ := run.drains hdrains
  have hne : left ≠ 0 := by
    rintro rfl
    exact hsize hleft.size_eq
  obtain ⟨item, q', deadline, -, hmem, -, -, -, hpeek, hle, hiff⟩ := hleft.peek hne
  by_contra hwrong
  have hlt : item.deadline < deadline := by
    refine lt_of_le_of_ne hle fun heq => hwrong (hiff.mp heq.symm)
  obtain ⟨woken, last, asleep, hloop, hlast, late, hlate, hdue⟩ :=
    run.process_stuck hdrains hleft hmem (fun d hd => by
      rw [hpeek, Option.some_inj] at hd
      exact hd ▸ hlt) 0
  obtain ⟨woken', last', asleep', hloop', hlast', hnone⟩ := hwakes item.deadline fun _ => false
  obtain ⟨-, rfl⟩ := Prod.mk.inj (Option.some.inj (hloop.symm.trans hloop'))
  rw [hlast.pending_unique hlast'] at hlate
  exact absurd hdue (not_le.mpr (hnone late hlate))

/-- In every reachable queue with pending items the peek is exact if and only if an item of the
current bucket is left or the first item of the next bucket is due no later than the others of that
bucket; and `ProcessSleepingTasks` leaves no due task asleep, whatever the time, if and only if this
is so in every queue that it can pass through, that is, if and only if the first item of every
bucket behind the current one is due no later than the others of its bucket. -/
theorem run_peek_exact_iff (run : Run std bucketCount bucketSoftLimit q pending) :
    (pending ≠ 0 → (PeekExact std q pending ↔ q.peeksLeast = true)) ∧
      (WakesDue std bucketCount bucketSoftLimit q ↔
        ∀ s, Drains std q s → s.size ≠ 0 → s.peeksLeast = true) ∧
      (WakesDue std bucketCount bucketSoftLimit q ↔ q.laterLeast = true) := by
  have hdrains := run.wakesDue_iff
  obtain ⟨cur, rest, hholds, -⟩ := run.holds
  refine ⟨fun hne => ?_, hdrains, by rw [hdrains, hholds.drains_iff std, hholds.laterLeast_eq]⟩
  obtain ⟨item, q', deadline, hpop, hmem, hleast, -, -, hpeek, -, hiff⟩ := run.peek hne
  rw [← hiff]
  constructor
  · rintro ⟨item', q'', hpop', -, -, hpeek'⟩
    obtain ⟨rfl, -⟩ := popFront_unique hpop hpop'
    exact Option.some.inj (hpeek.symm.trans hpeek')
  · rintro rfl
    exact ⟨item, q', hpop, hmem, hleast, hpeek⟩

/-- Two buckets with soft limit 1 and deadlines 1000, 3000 and 2000: after the first pop the next
bucket holds 3000 before 2000. -/
theorem peek_misses_later_added :
    ∃ (q : TBinnedTimerQueue TTimePoint Nat) (pending : Multiset (TItem TTimePoint Nat)),
      Run (.mergeSort TItem.deadline) 2 1 q pending ∧ pending ≠ 0 ∧
        ¬PeekExact (.mergeSort TItem.deadline) q pending ∧
        ∃ woken q' asleep, q.processSleepingTasks (.mergeSort TItem.deadline)
            ⟨2000, by decide, by decide⟩ (fun _ => false) = some (woken, q') ∧
          Run (.mergeSort TItem.deadline) 2 1 q' asleep ∧
          ∃ item ∈ asleep, item.deadline ≤ (⟨2000, by decide, by decide⟩ : TTimePoint) := by
  have epoch : Run (.mergeSort TItem.deadline) 2 1 _ 0 := .new (α := Nat) rfl
  have first := epoch.add ⟨0, by decide, by decide⟩ 1 1 rfl
  have second := first.add ⟨0, by decide, by decide⟩ 3 2 rfl
  have third := second.add ⟨0, by decide, by decide⟩ 2 3 rfl
  have popped : Run _ 2 1 _ (Multiset.erase _ ⟨⟨1000, by decide, by decide⟩, 1⟩) :=
    third.popFront rfl
  refine ⟨_, _, popped, by decide, ?_, [], _, _, rfl, popped, ⟨⟨2000, by decide, by decide⟩, 3⟩,
    by decide, le_rfl⟩
  rintro ⟨item, q', -, -, hleast, hpeek⟩
  have hle := hleast ⟨⟨2000, by decide, by decide⟩, 3⟩ (by decide)
  have hshown : item.deadline = ⟨3000, by decide, by decide⟩ := Option.some.inj hpeek.symm
  rw [hshown] at hle
  exact absurd hle (by decide)

/-- A queue whose next bucket holds its first item in front. -/
theorem run_peek_exact_iff_in_order :
    ∃ (q : TBinnedTimerQueue TTimePoint Nat) (pending : Multiset (TItem TTimePoint Nat)),
      Run (.mergeSort TItem.deadline) 2 1 q pending ∧ pending ≠ 0 ∧
        PeekExact (.mergeSort TItem.deadline) q pending ∧
        WakesDue (.mergeSort TItem.deadline) 2 1 q := by
  have epoch : Run (.mergeSort TItem.deadline) 2 1 _ 0 := .new (α := Nat) rfl
  have first := epoch.add ⟨0, by decide, by decide⟩ 1 1 rfl
  have second := first.add ⟨0, by decide, by decide⟩ 2 2 rfl
  have popped : Run _ 2 1 _ (Multiset.erase _ ⟨⟨1000, by decide, by decide⟩, 1⟩) :=
    second.popFront rfl
  obtain ⟨hpeek, -, hwakes⟩ := run_peek_exact_iff popped
  exact ⟨_, _, popped, by decide, (hpeek (by decide)).mpr (by decide), hwakes.mpr (by decide)⟩

end Run

end Tpcc.TimerQueue
