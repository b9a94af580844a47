import Tpcc.Clock
import Tpcc.TimerQueue.Invariant

/-! The timer wheel refines a priority queue: after every run of `Add` and `PopFront` the wheel
passes its own `Validate`, holds exactly the items that were added and not yet popped, and pops one
that is due first. -/

namespace Tpcc.TimerQueue

open Lib

section

variable {τ α : Type} [LinearOrder τ] [BoundedOrder τ]

omit [BoundedOrder τ] in
theorem zip_tail_ordered {items : List (TItem τ α)} (h : Chronological items) :
    ((items.zip items.tail).all fun p => !decide (p.2.deadline < p.1.deadline)) = true := by
  induction items with
  | nil => rfl
  | cons x items ih =>
    cases items with
    | nil => rfl
    | cons y items =>
      obtain ⟨hx, hrest⟩ := List.pairwise_cons.mp h
      have hxy := not_lt.mpr (hx y List.mem_cons_self)
      simpa [hxy] using ih hrest

namespace Holds

variable {q : TBinnedTimerQueue τ α} {cur : TBucket τ α} {rest : List (TBucket τ α)}

theorem currentSorted (h : Holds q cur rest) : q.currentSorted = true := by
  rw [TBinnedTimerQueue.currentSorted, h.bucket_current]
  exact zip_tail_ordered h.sorted

theorem boundsExact (h : Holds q cur rest) :
    q.buckets.all TBinnedTimerQueue.boundsExact = true := by
  refine List.all_eq_true.mpr fun b hb => ?_
  have hexact := h.exact b (by rw [← h.ring]; exact List.mem_rotate.mpr hb)
  simp [TBinnedTimerQueue.boundsExact, ← hexact.min, ← hexact.max]

theorem neighboursOrdered (h : Holds q cur rest) : q.neighboursOrdered = true := by
  refine List.all_eq_true.mpr fun offset hoffset => ?_
  have hlt : offset + 1 < (cur :: rest).length := by
    have := List.mem_range.mp hoffset
    have := h.length
    simp only [List.length_cons]
    omega
  obtain ⟨pre, a, b, post, hsplit, rfl⟩ : ∃ pre a b post,
      cur :: rest = pre ++ a :: b :: post ∧ pre.length = offset := by
    refine ⟨(cur :: rest).take offset, (cur :: rest)[offset], (cur :: rest)[offset + 1],
      (cur :: rest).drop (offset + 2), ?_, by simp at hlt ⊢; omega⟩
    rw [← List.drop_eq_getElem_cons, ← List.drop_eq_getElem_cons, List.take_append_drop]
  have hordered := (List.pairwise_append.mp (hsplit ▸ h.ordered)).2.1
  have hab := (List.pairwise_cons.mp hordered).1 b List.mem_cons_self
  have ha : a.Exact := h.exact a (by rw [hsplit]; simp)
  have hb : b.Exact := h.exact b (by rw [hsplit]; simp)
  have hle : a.maxDeadline ≤ b.minDeadline := by
    rw [ha.max, hb.min, greatestKey_le]
    exact fun x hx => le_leastKey.mpr fun y hy => hab x hx y hy
  simp only [Nat.add_comm q.currentBucket, h.bucket_at hsplit, (h.bucket_next hsplit).2, hle,
    decide_true, Bool.or_true]

/-- The buckets in their physical order, the current one without the items before the cursor. -/
theorem computedSize_eq (h : Holds q cur rest) :
    q.computedSize = ((q.buckets.set q.currentBucket
      { cur with items := cur.items.drop q.currentCursor }).map TBucket.size).sum := by
  unfold TBinnedTimerQueue.computedSize
  congr 1
  refine List.ext_getElem (by simp [TBinnedTimerQueue.bucketCount]) fun i hi hi' => ?_
  simp only [List.getElem_map, List.getElem_range, List.getElem_set]
  by_cases he : q.currentBucket = i
  · subst he
    simp [h.bucket_current, TBucket.size]
  · have hlt : i < q.buckets.length := by simpa using hi'
    simp only [he, Ne.symm he, if_false]
    rw [TBinnedTimerQueue.bucket, List.getD_eq_getElem?_getD, List.getElem?_eq_getElem hlt]
    rfl

theorem computedSize (h : Holds q cur rest) : q.computedSize = q.size := by
  have hsplit : cur :: rest = [] ++ cur :: rest := rfl
  have hring := h.set_at hsplit { cur with items := cur.items.drop q.currentCursor }
  rw [List.length_nil, Nat.zero_add, Nat.mod_eq_of_lt h.current] at hring
  rw [h.computedSize_eq, ← ((List.rotate_perm _ q.currentBucket).map TBucket.size).sum_nat, hring,
    h.size, pendingOf, List.length_append, List.length_flatMap]
  rfl

theorem validate (h : Holds q cur rest) : q.validate = true := by
  simp [TBinnedTimerQueue.validate, h.currentSorted, h.boundsExact, h.neighboursOrdered,
    h.computedSize]

end Holds

theorem Holds.pending_eq_nil {q : TBinnedTimerQueue τ α} {cur : TBucket τ α}
    {rest : List (TBucket τ α)} (h : Holds q cur rest) (hsize : q.size = 0) :
    pendingOf q.currentCursor cur rest = [] :=
  List.length_eq_zero_iff.mp (h.size.symm.trans hsize)

/-- A queue whose current bucket has all its items before the cursor and whose other buckets are
empty has nothing pending and satisfies the invariant. -/
theorem Holds.of_drained {q : TBinnedTimerQueue τ α} {cur : TBucket τ α}
    {rest : List (TBucket τ α)} (hring : q.buckets.rotate q.currentBucket = cur :: rest)
    (hcurrent : q.currentBucket < q.bucketCount) (hseveral : rest ≠ [])
    (hlimit : 0 < q.bucketSoftLimit) (hcursor : q.currentCursor = cur.items.length)
    (hexact : cur.Exact) (hrest : ∀ b ∈ rest, b.Exact ∧ b.items = []) (hsize : q.size = 0) :
    Holds q cur rest ∧ pendingOf q.currentCursor cur rest = [] := by
  have hdrop : cur.items.drop q.currentCursor = [] := List.drop_eq_nil_of_le hcursor.ge
  have hpending : pendingOf q.currentCursor cur rest = [] := by
    rw [pendingOf, hdrop, List.nil_append]
    exact List.flatMap_eq_nil_iff.mpr fun b hb => (hrest b hb).2
  have hpairs : ∀ R : TBucket τ α → TBucket τ α → Prop, (∀ a, ∀ b ∈ rest, R a b) →
      (cur :: rest).Pairwise R := fun R hR =>
    List.pairwise_cons.mpr ⟨hR cur, List.pairwise_of_forall_mem_list fun a _ => hR a⟩
  refine ⟨⟨hring, hcurrent, hseveral, hlimit, fun b hb => ?_, fun b hb _ => ?_, hcursor.le, ?_,
    hpairs _ fun _ b hb _ => (hrest b hb).2, hpairs _ fun _ b hb x _ y hy => ?_, ?_⟩, hpending⟩
  · rcases List.mem_cons.mp hb with rfl | hb
    · exact hexact
    · exact (hrest b hb).1
  · rw [(hrest b hb).2]
    exact List.Pairwise.nil
  · rw [hdrop]
    exact List.Pairwise.nil
  · rw [(hrest b hb).2] at hy
    cases hy
  · rw [hsize, hpending]
    rfl

/-- The constructor succeeds for all parameters and gives an empty queue that satisfies the
invariant. -/
theorem new_holds (bucketCount bucketSoftLimit : Nat) :
    ∃ q : TBinnedTimerQueue τ α, TBinnedTimerQueue.new bucketCount bucketSoftLimit = .ok q ∧
      ∃ rest, Holds q .clear rest ∧ pendingOf q.currentCursor .clear rest = [] := by
  refine ⟨⟨List.replicate (max 2 bucketCount) .clear, max 1 bucketSoftLimit, 0, 0, 0⟩, ?_,
    List.replicate (max 2 bucketCount - 1) .clear, ?_⟩
  · simp [TBinnedTimerQueue.new, TBinnedTimerQueue.resize, TBinnedTimerQueue.blank]
  · have hcount : max 2 bucketCount = max 2 bucketCount - 1 + 1 := by omega
    refine Holds.of_drained ?_ ?_ ?_ ?_ rfl TBucket.exact_clear (fun b hb => ?_) rfl
    · rw [List.rotate_zero, ← List.replicate_succ, ← hcount]
    · simp [TBinnedTimerQueue.bucketCount]
    · simp
      omega
    · exact Nat.lt_of_lt_of_le Nat.zero_lt_one (Nat.le_max_left ..)
    · obtain rfl := (List.mem_replicate.mp hb).2
      exact ⟨TBucket.exact_clear, rfl⟩

end

/-- The queues that a run reaches, with the items that were added and not yet popped.  The run
starts with the constructor; each `Add` gives a clock reading and a delay whose sum the clock can
represent, and `std` is the `std::sort` that the library provides. -/
inductive Run {α : Type} [DecidableEq α] (std : Sorter (TItem.deadline (τ := TTimePoint) (α := α)))
    (bucketCount bucketSoftLimit : Nat) :
    TBinnedTimerQueue TTimePoint α → Multiset (TItem TTimePoint α) → Prop
  | new {q : TBinnedTimerQueue TTimePoint α}
      (h : TBinnedTimerQueue.new bucketCount bucketSoftLimit = .ok q) :
      Run std bucketCount bucketSoftLimit q 0
  | add {q : TBinnedTimerQueue TTimePoint α} {pending : Multiset (TItem TTimePoint α)}
      {deadline : TTimePoint} (now : TTimePoint) (delay : Int) (value : α)
      (run : Run std bucketCount bucketSoftLimit q pending)
      (h : now.addMicroseconds delay = some deadline) :
      Run std bucketCount bucketSoftLimit (q.add deadline value) (⟨deadline, value⟩ ::ₘ pending)
  | popFront {q q' : TBinnedTimerQueue TTimePoint α} {pending : Multiset (TItem TTimePoint α)}
      {item : TItem TTimePoint α} (run : Run std bucketCount bucketSoftLimit q pending)
      (h : q.popFront std = .ok (item, q')) :
      Run std bucketCount bucketSoftLimit q' (pending.erase item)

section Run

variable {α : Type} [DecidableEq α] {std : Sorter (TItem.deadline (τ := TTimePoint) (α := α))}
  {bucketCount bucketSoftLimit : Nat} {q : TBinnedTimerQueue TTimePoint α}
  {pending : Multiset (TItem TTimePoint α)}

/-- Along every run the invariant holds, and the pending items are those of the run. -/
theorem Run.holds (run : Run std bucketCount bucketSoftLimit q pending) :
    ∃ cur rest, Holds q cur rest ∧ (pendingOf q.currentCursor cur rest : Multiset _) = pending := by
  induction run with
  | new h =>
    obtain ⟨q', hnew, rest, hholds, hpending⟩ :=
      new_holds (τ := TTimePoint) (α := α) bucketCount bucketSoftLimit
    obtain rfl : q' = _ := Except.ok.inj (hnew.symm.trans h)
    exact ⟨_, rest, hholds, by rw [hpending]; rfl⟩
  | @add q pending deadline now delay value _ _ ih =>
    obtain ⟨cur, rest, hholds, rfl⟩ := ih
    obtain ⟨cur', rest', hholds', hperm⟩ := hholds.add deadline value
    exact ⟨cur', rest', hholds', Multiset.coe_eq_coe.mpr hperm⟩
  | @popFront q q' pending item _ h ih =>
    obtain ⟨cur, rest, hholds, rfl⟩ := ih
    obtain ⟨item', q'', cur', rest', hpop, hholds', hperm, -⟩ :=
      hholds.popFront std (popFront_size_ne h)
    obtain ⟨rfl, rfl⟩ := popFront_unique hpop h
    refine ⟨cur', rest', hholds', ?_⟩
    rw [Multiset.coe_eq_coe.mpr hperm, ← Multiset.cons_coe, Multiset.erase_cons_head]

/-- For all parameters of the constructor and every run: the queue validates, `Size()` is the
number of pending items, and when there are any, `PopFront` succeeds, returns a pending item that
is due no later than any other, and takes exactly that item away. -/
theorem run_refines_priority_queue (run : Run std bucketCount bucketSoftLimit q pending) :
    q.validate = true ∧ q.size = pending.card ∧
      (pending ≠ 0 → ∃ item q', q.popFront std = .ok (item, q') ∧ item ∈ pending ∧
        (∀ other ∈ pending, item.deadline ≤ other.deadline) ∧
        Run std bucketCount bucketSoftLimit q' (pending.erase item) ∧
        q'.size + 1 = q.size) := by
  obtain ⟨cur, rest, hholds, rfl⟩ := run.holds
  refine ⟨hholds.validate, hholds.size, fun hne => ?_⟩
  have hsize : q.size ≠ 0 := fun he => hne (by rw [hholds.pending_eq_nil he]; rfl)
  obtain ⟨item, q', cur', rest', hpop, hholds', hperm, hleast⟩ := hholds.popFront std hsize
  refine ⟨item, q', hpop, ?_, hleast, run.popFront hpop, ?_⟩
  · exact Multiset.mem_coe.mpr (hperm.mem_iff.mpr List.mem_cons_self)
  · rw [hholds.size, hholds'.size, hperm.length_eq]
    rfl

/-- Two items due at the same time, added behind a later one, and one pop. -/
theorem run_refines_priority_queue_pop :
    ∃ (q : TBinnedTimerQueue TTimePoint Nat) (pending : Multiset (TItem TTimePoint Nat)),
      Run (.mergeSort TItem.deadline) 2 1 q pending ∧ pending.card = 3 ∧ q.validate = true ∧
        ∃ item q', q.popFront (.mergeSort TItem.deadline) = .ok (item, q') ∧
          ∀ other ∈ pending, item.deadline ≤ other.deadline := by
  have epoch : Run (.mergeSort TItem.deadline) 2 1 _ 0 := .new (α := Nat) rfl
  have first := epoch.add ⟨0, by decide, by decide⟩ 7 1 rfl
  have second := first.add ⟨0, by decide, by decide⟩ 2 2 rfl
  have third := second.add ⟨1000, by decide, by decide⟩ 1 3 rfl
  obtain ⟨hvalid, -, hpop⟩ := run_refines_priority_queue third
  obtain ⟨item, q', hok, -, hleast, -⟩ := hpop (Multiset.cons_ne_zero)
  exact ⟨_, _, third, rfl, hvalid, item, q', hok, hleast⟩

end Run

end Tpcc.TimerQueue
