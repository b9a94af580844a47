import Tpcc.TimerQueue.Model
import Tpcc.Lib.Ring
import Mathlib.Data.Multiset.AddSub

/-! The invariant of the timer wheel: from the current bucket on, the buckets with items form a run,
each bucket's items are no later than those of the buckets after it, and the current bucket is
sorted behind the cursor.  `add` and `popFront` keep it. -/

namespace Tpcc.TimerQueue

open Lib

variable {τ α : Type} [LinearOrder τ]

/-- Items in the order of their deadlines. -/
abbrev Chronological (items : List (TItem τ α)) : Prop :=
  items.Pairwise fun x y => x.deadline ≤ y.deadline

namespace TBucket

/-- A set flag `isSorted` tells the truth. -/
def FlagSound (b : TBucket τ α) : Prop := b.isSorted = true → Chronological b.items

/-- Every item of `a` is due no later than every item of `b`. -/
def Before (a b : TBucket τ α) : Prop :=
  ∀ x ∈ a.items, ∀ y ∈ b.items, x.deadline ≤ y.deadline

theorem addBack_perm (b : TBucket τ α) (item : TItem τ α) :
    (b.addBack item).items.Perm (item :: b.items) :=
  List.perm_append_singleton item b.items

theorem FlagSound.addBack {b : TBucket τ α} (h : b.FlagSound) (item : TItem τ α) :
    (b.addBack item).FlagSound := by
  intro hflag
  have hkeep : b.isSorted = true ∧ ∀ x ∈ b.items.getLast?, x.deadline ≤ item.deadline := by
    simp only [TBucket.addBack] at hflag
    cases hlast : b.items.getLast? with
    | none => rw [hlast] at hflag; exact ⟨hflag, by simp⟩
    | some last =>
      rw [hlast] at hflag
      by_cases hlt : item.deadline < last.deadline
      · simp [hlt] at hflag
      · simp only [hlt, if_false] at hflag
        exact ⟨hflag, by simpa using not_lt.mp hlt⟩
  show Chronological (b.items ++ [item])
  have hsorted : Chronological b.items := h hkeep.1
  refine List.pairwise_append.mpr ⟨hsorted, List.pairwise_singleton _ _, ?_⟩
  intro x hx y hy
  obtain rfl : y = item := by simpa using hy
  obtain ⟨front, last, he⟩ := List.eq_nil_or_concat b.items |>.resolve_left
    (List.ne_nil_of_mem hx)
  have hle : last.deadline ≤ y.deadline := hkeep.2 last (by simp [he])
  rw [he, List.concat_eq_append] at hx hsorted
  rcases List.mem_append.mp hx with hx | hx
  · exact le_trans ((List.pairwise_append.mp hsorted).2.2 x hx last (by simp)) hle
  · obtain rfl : x = last := by simpa using hx
    exact hle

theorem sort_perm (std : Sorter (TItem.deadline (τ := τ) (α := α))) (b : TBucket τ α) :
    (b.sort std).items.Perm b.items := by
  unfold sort
  split
  · rfl
  · exact std.perm b.items

theorem FlagSound.sort_chronological {std : Sorter (TItem.deadline (τ := τ) (α := α))}
    {b : TBucket τ α} (h : b.FlagSound) : Chronological (b.sort std).items := by
  unfold TBucket.sort
  split
  · exact h ‹_›
  · exact std.sorted b.items

/-- `std::upper_bound` finds a place for an item in a sorted range. -/
theorem chronological_insert {range : List (TItem τ α)} (h : Chronological range)
    (item : TItem τ α) : Chronological (range.insertIdx (upperBound range item) item) := by
  induction range with
  | nil => simp [upperBound, Chronological]
  | cons x range ih =>
    obtain ⟨hx, hrange⟩ := List.pairwise_cons.mp h
    by_cases hlt : item.deadline < x.deadline
    · simp only [upperBound, List.takeWhile_cons, hlt, decide_true, Bool.not_true,
        Bool.false_eq_true, if_false, List.length_nil, List.insertIdx_zero]
      refine List.pairwise_cons.mpr ⟨fun y hy => ?_, h⟩
      rcases List.mem_cons.mp hy with rfl | hy
      · exact hlt.le
      · exact hlt.le.trans (hx y hy)
    · have hub : upperBound (x :: range) item = upperBound range item + 1 := by
        simp [upperBound, hlt]
      rw [hub, List.insertIdx_succ_cons]
      refine List.pairwise_cons.mpr ⟨fun y hy => ?_, ih hrange⟩
      rcases List.eq_or_mem_of_mem_insertIdx hy with rfl | hy
      · exact not_lt.mp hlt
      · exact hx y hy

theorem upperBound_le (range : List (TItem τ α)) (item : TItem τ α) :
    upperBound range item ≤ range.length := (List.takeWhile_sublist _).length_le

end TBucket

omit [LinearOrder τ] in
theorem insertIdx_drop {items : List (TItem τ α)} {pos : Nat} (hpos : pos ≤ items.length)
    (k : Nat) (item : TItem τ α) :
    (items.insertIdx (pos + k) item).drop pos = (items.drop pos).insertIdx k item := by
  induction pos generalizing items with
  | zero => simp
  | succ pos ih =>
    cases items with
    | nil => simp at hpos
    | cons x items =>
      rw [show pos + 1 + k = pos + k + 1 by omega, List.insertIdx_succ_cons]
      simpa using ih (by simpa using hpos)

variable [BoundedOrder τ]

namespace TBucket

/-- The recorded bounds are the least and the greatest deadline. -/
structure Exact (b : TBucket τ α) : Prop where
  min : b.minDeadline = leastKey TItem.deadline b.items
  max : b.maxDeadline = greatestKey TItem.deadline b.items

theorem exact_clear : (clear : TBucket τ α).Exact := ⟨rfl, rfl⟩

/-- Putting one more item anywhere into a bucket and widening the bounds keeps them exact. -/
theorem Exact.of_perm_cons {b b' : TBucket τ α} {item : TItem τ α} (h : b.Exact)
    (hitems : b'.items.Perm (item :: b.items))
    (hmin : b'.minDeadline = Min.min b.minDeadline item.deadline)
    (hmax : b'.maxDeadline = Max.max b.maxDeadline item.deadline) : b'.Exact where
  min := by
    rw [hmin, h.min, leastKey_congr fun a => hitems.mem_iff, leastKey_cons, min_comm]
  max := by
    rw [hmax, h.max, greatestKey_congr fun a => hitems.mem_iff, greatestKey_cons, max_comm]

theorem Exact.addBack {b : TBucket τ α} (h : b.Exact) (item : TItem τ α) :
    (b.addBack item).Exact :=
  h.of_perm_cons (b.addBack_perm item) rfl rfl

theorem Exact.sort {std : Sorter (TItem.deadline (τ := τ) (α := α))} {b : TBucket τ α}
    (h : b.Exact) : (b.sort std).Exact := by
  have hmem := fun a => (sort_perm std b).mem_iff (a := a)
  have hmin : (b.sort std).minDeadline = b.minDeadline := by unfold TBucket.sort; split <;> rfl
  have hmax : (b.sort std).maxDeadline = b.maxDeadline := by unfold TBucket.sort; split <;> rfl
  exact ⟨by rw [hmin, h.min, leastKey_congr hmem], by rw [hmax, h.max, greatestKey_congr hmem]⟩

theorem Exact.items_ne_nil {b : TBucket τ α} (h : b.Exact) {t : τ} (ht : b.minDeadline < t) :
    b.items ≠ [] := by
  intro he
  rw [h.min, he, leastKey_nil] at ht
  exact not_top_lt ht

theorem Exact.lt_of_max_lt {b : TBucket τ α} (h : b.Exact) {t : τ} (ht : b.maxDeadline < t) :
    ∀ x ∈ b.items, x.deadline < t := fun _ hx => (le_greatestKey hx).trans_lt (h.max ▸ ht)

/-- What `AddSorted` does: the item joins the items behind the cursor, in order. -/
theorem addSorted_spec {b : TBucket τ α} (h : b.Exact) {pos : Nat} (hpos : pos ≤ b.items.length)
    (hsorted : Chronological (b.items.drop pos)) (item : TItem τ α) :
    (b.addSorted item pos).Exact ∧ (b.addSorted item pos).items.Perm (item :: b.items) ∧
      Chronological ((b.addSorted item pos).items.drop pos) ∧
      ((b.addSorted item pos).items.drop pos).Perm (item :: b.items.drop pos) := by
  by_cases hmax : b.maxDeadline ≤ item.deadline
  · rw [addSorted, if_pos hmax]
    have hdrop : (b.addBack item).items.drop pos = b.items.drop pos ++ [item] := by
      simp [addBack, List.drop_append_of_le_length hpos]
    refine ⟨h.addBack item, b.addBack_perm item, ?_, ?_⟩
    · rw [hdrop]
      refine List.pairwise_append.mpr ⟨hsorted, List.pairwise_singleton _ _, ?_⟩
      intro x hx y hy
      obtain rfl : y = item := by simpa using hy
      exact (le_greatestKey (List.mem_of_mem_drop hx)).trans (h.max ▸ hmax)
    · rw [hdrop]
      exact List.perm_append_singleton item _
  · rw [addSorted, if_neg hmax]
    have hub := upperBound_le (b.items.drop pos) item
    have hall : (b.items.insertIdx (pos + upperBound (b.items.drop pos) item) item).Perm
        (item :: b.items) :=
      List.perm_insertIdx item b.items (by rw [List.length_drop] at hub; omega)
    refine ⟨h.of_perm_cons hall rfl rfl, hall, ?_, ?_⟩
    · simp only [insertIdx_drop hpos]
      exact chronological_insert hsorted item
    · simp only [insertIdx_drop hpos]
      exact List.perm_insertIdx item (b.items.drop pos) hub

end TBucket

/-- The items behind the cursor of the current bucket `cur`, and those of the buckets after it. -/
def pendingOf (cursor : Nat) (cur : TBucket τ α) (rest : List (TBucket τ α)) :
    List (TItem τ α) :=
  cur.items.drop cursor ++ rest.flatMap TBucket.items

/-- The invariant of a queue whose buckets, from the current one on, are `cur` and `rest`. -/
structure Holds (q : TBinnedTimerQueue τ α) (cur : TBucket τ α) (rest : List (TBucket τ α)) :
    Prop where
  ring : q.buckets.rotate q.currentBucket = cur :: rest
  current : q.currentBucket < q.bucketCount
  several : rest ≠ []
  limit : 0 < q.bucketSoftLimit
  exact : ∀ b ∈ cur :: rest, b.Exact
  flags : ∀ b ∈ rest, b.FlagSound
  cursor : q.currentCursor ≤ cur.items.length
  sorted : Chronological (cur.items.drop q.currentCursor)
  filled : (cur :: rest).Pairwise fun a b => a.items = [] → b.items = []
  ordered : (cur :: rest).Pairwise TBucket.Before
  size : q.size = (pendingOf q.currentCursor cur rest).length

namespace Holds

variable {q : TBinnedTimerQueue τ α} {cur : TBucket τ α} {rest : List (TBucket τ α)}

theorem length (h : Holds q cur rest) : q.bucketCount = rest.length + 1 := by
  have := congrArg List.length h.ring
  simpa [TBinnedTimerQueue.bucketCount] using this

theorem bucket_at (h : Holds q cur rest) {pre post : List (TBucket τ α)} {b : TBucket τ α}
    (hsplit : cur :: rest = pre ++ b :: post) :
    q.bucket ((pre.length + q.currentBucket) % q.bucketCount) = b := by
  have := ring_getElem? (h.ring.trans hsplit)
  simp [TBinnedTimerQueue.bucket, List.getD_eq_getElem?_getD, TBinnedTimerQueue.bucketCount, this]

theorem bucket_current (h : Holds q cur rest) : q.bucket q.currentBucket = cur := by
  have hsplit : cur :: rest = [] ++ cur :: rest := rfl
  have := h.bucket_at hsplit
  rwa [List.length_nil, Nat.zero_add, Nat.mod_eq_of_lt h.current] at this

end Holds

/-- Where `ComputeBucket` puts a deadline: into `b`, behind buckets that have items, none of them
later than the deadline, and before buckets without earlier items. -/
structure Placed (deadline : τ) (pre : List (TBucket τ α)) (post : List (TBucket τ α)) : Prop where
  before : ∀ a ∈ pre, a.items ≠ [] ∧ ∀ x ∈ a.items, x.deadline ≤ deadline
  after : ∀ a ∈ post, ∀ y ∈ a.items, deadline ≤ y.deadline

/-- The buckets behind one that is empty, or has an item no earlier than `deadline`, have no item
before `deadline`. -/
theorem Holds.after_of_item {q : TBinnedTimerQueue τ α} {cur b : TBucket τ α}
    {rest pre post : List (TBucket τ α)} (h : Holds q cur rest)
    (hsplit : cur :: rest = pre ++ b :: post) {deadline : τ}
    (hb : b.items ≠ [] → ∃ x ∈ b.items, deadline ≤ x.deadline) :
    ∀ a ∈ post, ∀ y ∈ a.items, deadline ≤ y.deadline := by
  intro a ha y hy
  have hfilled := (List.pairwise_append.mp (hsplit ▸ h.filled)).2.1
  have hordered := (List.pairwise_append.mp (hsplit ▸ h.ordered)).2.1
  have hne : b.items ≠ [] := fun he =>
    List.ne_nil_of_mem hy ((List.pairwise_cons.mp hfilled).1 a ha he)
  obtain ⟨x, hx, hle⟩ := hb hne
  exact hle.trans ((List.pairwise_cons.mp hordered).1 a ha x hx y hy)

/-- The buckets that the loop of `ComputeBucket` has passed when it stands at `b`. -/
theorem Holds.passed {q : TBinnedTimerQueue τ α} {cur b : TBucket τ α}
    {rest pre post : List (TBucket τ α)} (h : Holds q cur rest)
    (hsplit : cur :: rest = pre ++ b :: post) {deadline : τ}
    (hpre : ∀ a ∈ pre, a.maxDeadline < deadline) (hmin : pre ≠ [] → b.minDeadline < deadline) :
    ∀ a ∈ pre, a.items ≠ [] ∧ ∀ x ∈ a.items, x.deadline ≤ deadline := by
  intro a ha
  have hb : b.Exact := h.exact b (by rw [hsplit]; simp)
  have ha' : a.Exact := h.exact a (by rw [hsplit]; simp [ha])
  have hfilled := (List.pairwise_append.mp (hsplit ▸ h.filled)).2.2 a ha b List.mem_cons_self
  exact ⟨fun he => hb.items_ne_nil (hmin (List.ne_nil_of_mem ha)) (hfilled he),
    fun x hx => (ha'.lt_of_max_lt (hpre a ha) x hx).le⟩

section Loop

variable {q : TBinnedTimerQueue τ α} {cur b c : TBucket τ α} {rest pre post : List (TBucket τ α)}
  {deadline : τ} (h : Holds q cur rest)
include h

/-- The index that the loop of `ComputeBucket` calls `nextBucketIndex`. -/
theorem Holds.bucket_next (hsplit : cur :: rest = pre ++ b :: c :: post) :
    ((pre.length + q.currentBucket) % q.bucketCount + 1) % q.bucketCount =
        ((pre ++ [b]).length + q.currentBucket) % q.bucketCount ∧
      q.bucket (((pre.length + q.currentBucket) % q.bucketCount + 1) % q.bucketCount) = c := by
  have hindex : ((pre.length + q.currentBucket) % q.bucketCount + 1) % q.bucketCount =
      ((pre ++ [b]).length + q.currentBucket) % q.bucketCount := by
    rw [Nat.mod_add_mod]
    congr 1
    simp
    omega
  refine ⟨hindex, ?_⟩
  rw [hindex]
  have hsplit' : cur :: rest = (pre ++ [b]) ++ c :: post := by rw [hsplit]; simp
  exact h.bucket_at hsplit'

/-- After the last bucket comes the current one. -/
theorem Holds.bucket_wrap (hsplit : cur :: rest = pre ++ [b]) :
    q.bucket (((pre.length + q.currentBucket) % q.bucketCount + 1) % q.bucketCount) = cur := by
  have hlen : q.bucketCount = pre.length + 1 := by
    have := congrArg List.length hsplit
    rw [h.length]
    simpa using this
  rw [Nat.mod_add_mod, show pre.length + q.currentBucket + 1 = q.currentBucket + q.bucketCount by
    omega, Nat.add_mod_right, Nat.mod_eq_of_lt h.current, h.bucket_current]

/-- The bucket at hand reaches up to the deadline. -/
theorem computeBucketFrom_hit (hsplit : cur :: rest = pre ++ b :: post)
    (hmax : deadline ≤ b.maxDeadline) (fuel : Nat) :
    (∀ a ∈ post, ∀ y ∈ a.items, deadline ≤ y.deadline) ∧
      q.computeBucketFrom deadline (fuel + 1) pre.length =
        (pre.length + q.currentBucket) % q.bucketCount := by
  refine ⟨h.after_of_item hsplit fun hne => ?_, ?_⟩
  · have hgreatest : ∃ x ∈ b.items, x.deadline = greatestKey TItem.deadline b.items :=
      exists_key_eq_greatestKey hne
    obtain ⟨x, hx, he⟩ := hgreatest
    have hb : b.Exact := h.exact b (by rw [hsplit]; simp)
    exact ⟨x, hx, by rw [he, ← hb.max]; exact hmax⟩
  · simp [TBinnedTimerQueue.computeBucketFrom, h.bucket_at hsplit, hmax]

/-- The deadline falls between the bucket at hand and the next one, which takes it when the bucket
at hand is full. -/
theorem computeBucketFrom_gap (hsplit : cur :: rest = pre ++ b :: c :: post)
    (hpre : ∀ a ∈ pre, a.items ≠ [] ∧ ∀ x ∈ a.items, x.deadline ≤ deadline)
    (hmax : b.maxDeadline < deadline) (hmin : deadline ≤ c.minDeadline) (fuel : Nat) :
    ∃ pre' b' post', cur :: rest = pre' ++ b' :: post' ∧ Placed deadline pre' post' ∧
      q.computeBucketFrom deadline (fuel + 1) pre.length =
        (pre'.length + q.currentBucket) % q.bucketCount := by
  have hb : b.Exact := h.exact b (by rw [hsplit]; simp)
  have hc : c.Exact := h.exact c (by rw [hsplit]; simp)
  have hsplit' : cur :: rest = (pre ++ [b]) ++ c :: post := by rw [hsplit]; simp
  obtain ⟨hindex, hnext⟩ := h.bucket_next hsplit
  have hitems : ∀ y ∈ c.items, deadline ≤ y.deadline := fun y hy =>
    (hc.min ▸ hmin).trans (leastKey_le hy)
  have hafter := h.after_of_item hsplit' fun hne =>
    (List.exists_mem_of_ne_nil _ hne).imp fun x hx => ⟨hx, hitems x hx⟩
  have hstep : q.computeBucketFrom deadline (fuel + 1) pre.length =
      if q.bucketSoftLimit ≤ b.size then ((pre ++ [b]).length + q.currentBucket) % q.bucketCount
      else (pre.length + q.currentBucket) % q.bucketCount := by
    simp only [TBinnedTimerQueue.computeBucketFrom, h.bucket_at hsplit, not_le.mpr hmax, hnext,
      hmin, if_true, if_false]
    rw [hindex]
  rw [hstep]
  by_cases hfull : q.bucketSoftLimit ≤ b.size
  · refine ⟨pre ++ [b], c, post, hsplit', ⟨?_, hafter⟩, if_pos hfull⟩
    intro a ha
    rcases List.mem_append.mp ha with ha | ha
    · exact hpre a ha
    · obtain rfl : a = b := by simpa using ha
      refine ⟨fun he => ?_, fun x hx => (hb.lt_of_max_lt hmax x hx).le⟩
      have := h.limit
      simp [TBucket.size, he] at hfull
      omega
  · refine ⟨pre, b, c :: post, hsplit, ⟨hpre, ?_⟩, if_neg hfull⟩
    intro a ha
    rcases List.mem_cons.mp ha with rfl | ha
    · exact hitems
    · exact hafter a ha

/-- The loop does not stop at the last bucket because of the current one, which it would reach
next. -/
theorem computeBucketFrom_last (hsplit : cur :: rest = pre ++ [b])
    (hpre : ∀ a ∈ pre, a.items ≠ [] ∧ ∀ x ∈ a.items, x.deadline ≤ deadline)
    (hcur : ∀ a ∈ pre, a.maxDeadline < deadline) (hmax : b.maxDeadline < deadline) :
    q.computeBucketFrom deadline 1 pre.length =
      (pre.length + q.currentBucket) % q.bucketCount := by
  have hmem : cur ∈ pre := by
    cases pre with
    | nil => exact absurd (List.cons.inj hsplit).2 h.several
    | cons a pre => rw [(List.cons.inj hsplit).1]; exact List.mem_cons_self
  have hmin : ¬ deadline ≤ cur.minDeadline := by
    obtain ⟨x, hx⟩ := List.exists_mem_of_ne_nil _ (hpre cur hmem).1
    have hexact := h.exact cur List.mem_cons_self
    have hxlt := hexact.lt_of_max_lt (hcur cur hmem) x hx
    exact not_le.mpr ((hexact.min ▸ leastKey_le hx).trans_lt hxlt)
  have hlen : q.bucketCount = pre.length + 1 := by
    have := congrArg List.length hsplit
    rw [h.length]
    simpa using this
  simp only [TBinnedTimerQueue.computeBucketFrom, h.bucket_at hsplit, not_le.mpr hmax,
    h.bucket_wrap hsplit, hmin, if_false]
  congr 1
  omega

/-- The loop of `ComputeBucket` at the bucket `b` behind `pre`. -/
theorem computeBucketFrom_placed (hsplit : cur :: rest = pre ++ b :: post)
    (hpre : ∀ a ∈ pre, a.maxDeadline < deadline) (hmin : pre ≠ [] → b.minDeadline < deadline) :
    ∃ pre' b' post', cur :: rest = pre' ++ b' :: post' ∧ Placed deadline pre' post' ∧
      q.computeBucketFrom deadline (post.length + 1) pre.length =
        (pre'.length + q.currentBucket) % q.bucketCount := by
  induction post generalizing pre b with
  | nil =>
    have hpassed := h.passed hsplit hpre hmin
    by_cases hmax : deadline ≤ b.maxDeadline
    · obtain ⟨hafter, he⟩ := computeBucketFrom_hit h hsplit hmax 0
      exact ⟨pre, b, [], hsplit, ⟨hpassed, hafter⟩, he⟩
    · exact ⟨pre, b, [], hsplit, ⟨hpassed, by simp⟩,
        computeBucketFrom_last h hsplit hpassed hpre (not_le.mp hmax)⟩
  | cons c post ih =>
    have hpassed := h.passed hsplit hpre hmin
    by_cases hmax : deadline ≤ b.maxDeadline
    · obtain ⟨hafter, he⟩ := computeBucketFrom_hit h hsplit hmax (post.length + 1)
      exact ⟨pre, b, c :: post, hsplit, ⟨hpassed, hafter⟩, he⟩
    by_cases hnext : deadline ≤ c.minDeadline
    · exact computeBucketFrom_gap h hsplit hpassed (not_le.mp hmax) hnext _
    · have hsplit' : cur :: rest = (pre ++ [b]) ++ c :: post := by rw [hsplit]; simp
      obtain ⟨pre', b', post', hsplit', hplaced, he⟩ := ih hsplit'
        (by
          intro a ha
          rcases List.mem_append.mp ha with ha | ha
          · exact hpre a ha
          · obtain rfl : a = b := by simpa using ha
            exact not_le.mp hmax)
        (fun _ => not_le.mp hnext)
      refine ⟨pre', b', post', hsplit', hplaced, ?_⟩
      rw [← he, List.length_cons, TBinnedTimerQueue.computeBucketFrom]
      simp only [h.bucket_at hsplit, hmax, (h.bucket_next hsplit).2, hnext, if_false]
      simp

/-- `ComputeBucket` finds a place for every deadline. -/
theorem computeBucket_placed (deadline : τ) :
    ∃ pre b post, cur :: rest = pre ++ b :: post ∧ Placed deadline pre post ∧
      q.computeBucket deadline = (pre.length + q.currentBucket) % q.bucketCount := by
  have hsplit : cur :: rest = [] ++ cur :: rest := rfl
  have hpre : ∀ a ∈ ([] : List (TBucket τ α)), a.maxDeadline < deadline := by simp
  have := computeBucketFrom_placed h hsplit hpre (by simp)
  rw [← h.length] at this
  exact this

end Loop

/-- Replacing the bucket `b` by one with one more item, in its place, keeps the run and the
order. -/
theorem Holds.replace {q : TBinnedTimerQueue τ α} {cur b b' : TBucket τ α}
    {rest pre post : List (TBucket τ α)} (h : Holds q cur rest)
    (hsplit : cur :: rest = pre ++ b :: post) (item : TItem τ α)
    (hplaced : Placed item.deadline pre post) (hperm : b'.items.Perm (item :: b.items)) :
    ((pre ++ b' :: post).Pairwise fun a c => a.items = [] → c.items = []) ∧
      (pre ++ b' :: post).Pairwise TBucket.Before := by
  have hne : b'.items ≠ [] := fun he => by simp [he] at hperm
  obtain ⟨hfPre, hfPost, hf⟩ := List.pairwise_append.mp (hsplit ▸ h.filled)
  obtain ⟨hoPre, hoPost, ho⟩ := List.pairwise_append.mp (hsplit ▸ h.ordered)
  constructor
  · refine List.pairwise_append.mpr ⟨hfPre, List.pairwise_cons.mpr
      ⟨fun c _ he => absurd he hne, (List.pairwise_cons.mp hfPost).2⟩, ?_⟩
    intro a ha c hc he
    exact absurd he (hplaced.before a ha).1
  · refine List.pairwise_append.mpr ⟨hoPre, List.pairwise_cons.mpr
      ⟨fun c hc x hx y hy => ?_, (List.pairwise_cons.mp hoPost).2⟩, ?_⟩
    · rcases List.mem_cons.mp (hperm.mem_iff.mp hx) with rfl | hx
      · exact hplaced.after c hc y hy
      · exact (List.pairwise_cons.mp hoPost).1 c hc x hx y hy
    · intro a ha c hc x hx y hy
      rcases List.mem_cons.mp hc with rfl | hc
      · rcases List.mem_cons.mp (hperm.mem_iff.mp hy) with rfl | hy
        · exact (hplaced.before a ha).2 x hx
        · exact ho a ha b List.mem_cons_self x hx y hy
      · exact ho a ha c (List.mem_cons_of_mem _ hc) x hx y hy

theorem Holds.set_at {q : TBinnedTimerQueue τ α} {cur b : TBucket τ α}
    {rest pre post : List (TBucket τ α)} (h : Holds q cur rest)
    (hsplit : cur :: rest = pre ++ b :: post) (b' : TBucket τ α) :
    (q.buckets.set ((pre.length + q.currentBucket) % q.bucketCount) b').rotate q.currentBucket =
      pre ++ b' :: post :=
  ring_set_append (h.ring.trans hsplit)

/-- `Add` into the current bucket. -/
theorem Holds.add_current {q : TBinnedTimerQueue τ α} {cur : TBucket τ α}
    {rest : List (TBucket τ α)} (h : Holds q cur rest) {deadline : τ} {value : α}
    (hplaced : Placed deadline [] rest) (hindex : q.computeBucket deadline = q.currentBucket) :
    let cur' := cur.addSorted ⟨deadline, value⟩ q.currentCursor
    Holds (q.add deadline value) cur' rest ∧
      (pendingOf (q.add deadline value).currentCursor cur' rest).Perm
        (⟨deadline, value⟩ :: pendingOf q.currentCursor cur rest) := by
  intro cur'
  have hadd : q.add deadline value =
      { q with buckets := q.buckets.set q.currentBucket cur', size := q.size + 1 } := by
    simp only [TBinnedTimerQueue.add, hindex, if_true, h.bucket_current]
    rfl
  obtain ⟨hexact, hperm, hsorted, hdrop⟩ := TBucket.addSorted_spec
    (h.exact cur List.mem_cons_self) h.cursor h.sorted ⟨deadline, value⟩
  have hsplit : cur :: rest = [] ++ cur :: rest := rfl
  obtain ⟨hfilled, hordered⟩ := h.replace hsplit ⟨deadline, value⟩ hplaced hperm
  have hpending : (pendingOf q.currentCursor cur' rest).Perm
      (⟨deadline, value⟩ :: pendingOf q.currentCursor cur rest) := hdrop.append_right _
  rw [hadd]
  refine ⟨?_, hpending⟩
  refine ⟨?_, ?_, h.several, h.limit, ?_, h.flags, ?_, hsorted, hfilled, hordered, ?_⟩
  · have := h.set_at hsplit cur'
    rwa [List.length_nil, Nat.zero_add, Nat.mod_eq_of_lt h.current] at this
  · simpa [TBinnedTimerQueue.bucketCount] using h.current
  · exact List.forall_mem_cons.mpr ⟨hexact, fun b hb => h.exact b (List.mem_cons_of_mem _ hb)⟩
  · rw [hperm.length_eq]
    exact Nat.le_succ_of_le h.cursor
  · rw [hpending.length_eq, List.length_cons, ← h.size]

/-- `Add` into a bucket behind the current one. -/
theorem Holds.add_later {q : TBinnedTimerQueue τ α} {cur b : TBucket τ α}
    {pre post : List (TBucket τ α)} (h : Holds q cur (pre ++ b :: post)) {deadline : τ} {value : α}
    (hplaced : Placed deadline (cur :: pre) post)
    (hindex : q.computeBucket deadline =
      ((cur :: pre).length + q.currentBucket) % q.bucketCount) :
    let rest' := pre ++ b.addBack ⟨deadline, value⟩ :: post
    Holds (q.add deadline value) cur rest' ∧
      (pendingOf (q.add deadline value).currentCursor cur rest').Perm
        (⟨deadline, value⟩ :: pendingOf q.currentCursor cur (pre ++ b :: post)) := by
  intro rest'
  have hsplit : cur :: (pre ++ b :: post) = (cur :: pre) ++ b :: post := rfl
  have hlen := h.length
  have hne : ((cur :: pre).length + q.currentBucket) % q.bucketCount ≠ q.currentBucket := by
    have hlt := h.current
    simp only [List.length_append, List.length_cons] at hlen ⊢
    intro he
    rcases Nat.lt_or_ge (pre.length + 1 + q.currentBucket) q.bucketCount with hw | hw
    · rw [Nat.mod_eq_of_lt hw] at he
      omega
    · rw [Nat.mod_eq_sub_mod hw, Nat.mod_eq_of_lt (by omega)] at he
      omega
  have hadd : q.add deadline value =
      { q with
        buckets := q.buckets.set (((cur :: pre).length + q.currentBucket) % q.bucketCount)
          (b.addBack ⟨deadline, value⟩)
        size := q.size + 1 } := by
    simp only [TBinnedTimerQueue.add, hindex, hne, if_false, h.bucket_at hsplit]
    rfl
  have hperm := b.addBack_perm ⟨deadline, value⟩
  have hb : b ∈ pre ++ b :: post := by simp
  obtain ⟨hfilled, hordered⟩ := h.replace hsplit ⟨deadline, value⟩ hplaced hperm
  have hpending : (pendingOf q.currentCursor cur rest').Perm
      (⟨deadline, value⟩ :: pendingOf q.currentCursor cur (pre ++ b :: post)) := by
    simp only [pendingOf, rest', List.flatMap_append, List.flatMap_cons]
    refine List.Perm.trans ?_ List.perm_middle
    refine List.Perm.append_left _ (List.Perm.trans ?_ List.perm_middle)
    exact List.Perm.append_left _ (hperm.append_right _)
  rw [hadd]
  refine ⟨?_, hpending⟩
  refine ⟨h.set_at hsplit _, ?_, by simp [rest'], h.limit, ?_, ?_, h.cursor, h.sorted, hfilled,
    hordered, ?_⟩
  · simpa [TBinnedTimerQueue.bucketCount] using h.current
  · intro c hc
    rcases List.mem_cons.mp hc with rfl | hc
    · exact h.exact c List.mem_cons_self
    rcases List.mem_append.mp hc with hc | hc
    · exact h.exact c (by simp [hc])
    rcases List.mem_cons.mp hc with rfl | hc
    · exact (h.exact b (by simp)).addBack _
    · exact h.exact c (by simp [hc])
  · intro c hc
    rcases List.mem_append.mp hc with hc | hc
    · exact h.flags c (by simp [hc])
    rcases List.mem_cons.mp hc with rfl | hc
    · exact (h.flags b hb).addBack _
    · exact h.flags c (by simp [hc])
  · show q.size + 1 = _
    rw [hpending.length_eq, h.size]
    rfl

/-- `Add` keeps the invariant and adds its item to the pending ones. -/
theorem Holds.add {q : TBinnedTimerQueue τ α} {cur : TBucket τ α} {rest : List (TBucket τ α)}
    (h : Holds q cur rest) (deadline : τ) (value : α) :
    ∃ cur' rest', Holds (q.add deadline value) cur' rest' ∧
      (pendingOf (q.add deadline value).currentCursor cur' rest').Perm
        (⟨deadline, value⟩ :: pendingOf q.currentCursor cur rest) := by
  obtain ⟨pre, b, post, hsplit, hplaced, hindex⟩ := computeBucket_placed h deadline
  cases pre with
  | nil =>
    obtain ⟨rfl, rfl⟩ := List.cons.inj hsplit
    rw [List.length_nil, Nat.zero_add, Nat.mod_eq_of_lt h.current] at hindex
    exact ⟨_, _, h.add_current hplaced hindex⟩
  | cons a pre =>
    obtain ⟨rfl, rfl⟩ := List.cons.inj hsplit
    exact ⟨_, _, h.add_later hplaced hindex⟩

/-- The items behind the cursor are due no later than those of the later buckets. -/
theorem Holds.le_later {q : TBinnedTimerQueue τ α} {cur : TBucket τ α}
    {rest : List (TBucket τ α)} (h : Holds q cur rest) {x y : TItem τ α}
    (hx : x ∈ cur.items) (hy : y ∈ rest.flatMap TBucket.items) : x.deadline ≤ y.deadline := by
  obtain ⟨b, hb, hy⟩ := List.mem_flatMap.mp hy
  exact (List.pairwise_cons.mp h.ordered).1 b hb x hx y hy

/-- Only a queue with pending items gives one. -/
theorem popFront_size_ne {q q' : TBinnedTimerQueue τ α} {item : TItem τ α}
    {std : Sorter (TItem.deadline (τ := τ) (α := α))} (h : q.popFront std = .ok (item, q')) :
    q.size ≠ 0 := by
  intro he
  simp [TBinnedTimerQueue.popFront, he] at h

theorem popFront_unique {q q' q'' : TBinnedTimerQueue τ α} {item item' : TItem τ α}
    {std : Sorter (TItem.deadline (τ := τ) (α := α))} (h : q.popFront std = .ok (item, q'))
    (h' : q.popFront std = .ok (item', q'')) : item = item' ∧ q' = q'' :=
  Prod.mk.inj (Except.ok.inj (h.symm.trans h'))

/-- `PopFront` from the current bucket. -/
theorem Holds.popFront_current {q : TBinnedTimerQueue τ α} {cur : TBucket τ α}
    {rest : List (TBucket τ α)} (h : Holds q cur rest)
    (std : Sorter (TItem.deadline (τ := τ) (α := α))) {item : TItem τ α}
    (hitem : cur.items[q.currentCursor]? = some item) :
    let q' := { q with size := q.size - 1, currentCursor := q.currentCursor + 1 }
    q.popFront std = .ok (item, q') ∧ Holds q' cur rest ∧
      pendingOf q.currentCursor cur rest = item :: pendingOf q'.currentCursor cur rest ∧
      ∀ y ∈ pendingOf q.currentCursor cur rest, item.deadline ≤ y.deadline := by
  intro q'
  have hdrop : cur.items.drop q.currentCursor = item :: cur.items.drop (q.currentCursor + 1) := by
    obtain ⟨hlt, rfl⟩ := List.getElem?_eq_some_iff.mp hitem
    exact List.drop_eq_getElem_cons hlt
  have hsorted := List.pairwise_cons.mp (hdrop ▸ h.sorted)
  have hsize : q.size = (pendingOf (q.currentCursor + 1) cur rest).length + 1 := by
    rw [h.size]
    simp [pendingOf, hdrop]
  refine ⟨?_, ?_, ?_, ?_⟩
  · simp [TBinnedTimerQueue.popFront, show q.size ≠ 0 by omega, h.bucket_current, hitem, q']
  · refine ⟨h.ring, h.current, h.several, h.limit, h.exact, h.flags, ?_, hsorted.2, h.filled,
      h.ordered, ?_⟩
    · exact (List.getElem?_eq_some_iff.mp hitem).1
    · show q.size - 1 = _
      rw [hsize, Nat.add_sub_cancel]
  · simp [pendingOf, hdrop, q']
  · intro y hy
    rcases List.mem_append.mp hy with hy | hy
    · rw [hdrop] at hy
      rcases List.mem_cons.mp hy with rfl | hy
      · exact le_rfl
      · exact hsorted.1 y hy
    · exact h.le_later (List.mem_of_getElem? hitem) hy

/-- When the current bucket is used up and an item is pending, the next bucket has items. -/
theorem Holds.next_ne_nil {q : TBinnedTimerQueue τ α} {cur b : TBucket τ α}
    {rest : List (TBucket τ α)} (h : Holds q cur (b :: rest))
    (hused : cur.items.length ≤ q.currentCursor) (hsize : q.size ≠ 0) : b.items ≠ [] := by
  intro he
  have hfilled := (List.pairwise_cons.mp h.filled).2
  have hlater : (b :: rest).flatMap TBucket.items = [] := by
    refine List.flatMap_eq_nil_iff.mpr fun c hc => ?_
    rcases List.mem_cons.mp hc with rfl | hc
    · exact he
    · exact (List.pairwise_cons.mp hfilled).1 c hc he
  apply hsize
  rw [h.size, pendingOf, hlater, List.drop_of_length_le hused]
  rfl

/-- The ring after `Advance`. -/
theorem Holds.advance_ring {q : TBinnedTimerQueue τ α} {cur b : TBucket τ α}
    {rest : List (TBucket τ α)} (h : Holds q cur (b :: rest))
    (std : Sorter (TItem.deadline (τ := τ) (α := α))) :
    (q.advance std).buckets.rotate (q.advance std).currentBucket =
        b.sort std :: (rest ++ [.clear]) ∧
      (q.advance std).currentBucket < (q.advance std).bucketCount := by
  have hcount : q.buckets.length = q.bucketCount := rfl
  have hpos : 0 < q.bucketCount := by have := h.current; omega
  have hnext : (q.currentBucket + 1) % q.bucketCount < q.bucketCount := Nat.mod_lt _ hpos
  have hclear : (q.buckets.set q.currentBucket .clear).rotate ((q.currentBucket + 1) %
      q.bucketCount) = b :: (rest ++ [.clear]) := by
    have hsplit : cur :: b :: rest = [] ++ cur :: (b :: rest) := rfl
    have hset := h.set_at hsplit .clear
    rw [List.length_nil, Nat.zero_add, Nat.mod_eq_of_lt h.current] at hset
    have := ring_succ hset
    rwa [List.length_set] at this
  have hget : (q.setBucket q.currentBucket .clear).bucket ((q.currentBucket + 1) %
      q.bucketCount) = b := by
    have := ring_getElem? (hclear.trans (List.nil_append _).symm)
    rw [List.length_nil, Nat.zero_add, List.length_set, hcount, Nat.mod_eq_of_lt hnext] at this
    simp [TBinnedTimerQueue.bucket, TBinnedTimerQueue.setBucket, List.getD_eq_getElem?_getD, this]
  have hset := ring_set_append (b := b.sort std) (hclear.trans (List.nil_append _).symm)
  rw [List.length_nil, Nat.zero_add, List.length_set, hcount, Nat.mod_eq_of_lt hnext] at hset
  constructor
  · simp only [TBinnedTimerQueue.advance, hget]
    exact hset
  · simpa [TBinnedTimerQueue.advance, TBinnedTimerQueue.setBucket, TBinnedTimerQueue.bucketCount]
      using hnext

/-- `Advance` from a current bucket that is used up moves to the next bucket and sorts it. -/
theorem Holds.advance {q : TBinnedTimerQueue τ α} {cur b : TBucket τ α}
    {rest : List (TBucket τ α)} (h : Holds q cur (b :: rest))
    (std : Sorter (TItem.deadline (τ := τ) (α := α)))
    (hused : cur.items.length ≤ q.currentCursor) :
    Holds (q.advance std) (b.sort std) (rest ++ [.clear]) ∧
      (pendingOf (q.advance std).currentCursor (b.sort std) (rest ++ [.clear])).Perm
        (pendingOf q.currentCursor cur (b :: rest)) := by
  have hperm := TBucket.sort_perm std b
  have hpending : (pendingOf (q.advance std).currentCursor (b.sort std) (rest ++ [.clear])).Perm
      (pendingOf q.currentCursor cur (b :: rest)) := by
    simp only [TBinnedTimerQueue.advance, pendingOf, List.drop_zero, List.flatMap_append,
      List.flatMap_cons, List.flatMap_nil, TBucket.clear, List.append_nil,
      List.drop_of_length_le hused, List.nil_append]
    exact hperm.append_right _
  obtain ⟨hring, hcurrent⟩ := h.advance_ring std
  have hrest : ∀ c ∈ rest, c ∈ cur :: b :: rest := fun c hc => by simp [hc]
  have hfilled := List.pairwise_cons.mp (List.pairwise_cons.mp h.filled).2
  have hordered := List.pairwise_cons.mp (List.pairwise_cons.mp h.ordered).2
  refine ⟨⟨hring, hcurrent, by simp, h.limit, ?_, ?_, Nat.zero_le _, ?_, ?_, ?_, ?_⟩, hpending⟩
  · intro c hc
    rcases List.mem_cons.mp hc with rfl | hc
    · exact (h.exact b (by simp)).sort
    rcases List.mem_append.mp hc with hc | hc
    · exact h.exact c (hrest c hc)
    · obtain rfl : c = .clear := by simpa using hc
      exact TBucket.exact_clear
  · intro c hc
    rcases List.mem_append.mp hc with hc | hc
    · exact h.flags c (List.mem_cons_of_mem _ hc)
    · obtain rfl : c = .clear := by simpa using hc
      exact fun _ => List.Pairwise.nil
  · exact (h.flags b List.mem_cons_self).sort_chronological
  · refine List.pairwise_cons.mpr ⟨fun c hc he => ?_, ?_⟩
    · rcases List.mem_append.mp hc with hc | hc
      · refine hfilled.1 c hc ?_
        rw [he] at hperm
        exact hperm.nil_eq.symm
      · obtain rfl : c = .clear := by simpa using hc
        rfl
    · refine List.pairwise_append.mpr ⟨hfilled.2, List.pairwise_singleton _ _, ?_⟩
      intro a _ c hc _
      obtain rfl : c = .clear := by simpa using hc
      rfl
  · refine List.pairwise_cons.mpr ⟨fun c hc x hx y hy => ?_, ?_⟩
    · rcases List.mem_append.mp hc with hc | hc
      · exact hordered.1 c hc x (hperm.mem_iff.mp hx) y hy
      · obtain rfl : c = .clear := by simpa using hc
        simp [TBucket.clear] at hy
    · refine List.pairwise_append.mpr ⟨hordered.2, List.pairwise_singleton _ _, ?_⟩
      intro a _ c hc x _ y hy
      obtain rfl : c = .clear := by simpa using hc
      simp [TBucket.clear] at hy
  · rw [hpending.length_eq, ← h.size]
    rfl

/-- With a current bucket that is used up the pop clears it, moves to the next bucket and takes the
first item that sorting puts there. -/
theorem Holds.popFront_next {q : TBinnedTimerQueue τ α} {cur b : TBucket τ α}
    {rest : List (TBucket τ α)} (h : Holds q cur (b :: rest))
    (std : Sorter (TItem.deadline (τ := τ) (α := α)))
    (hused : cur.items.length ≤ q.currentCursor) (hsize : q.size ≠ 0) :
    ∃ item q', q.popFront std = .ok (item, q') ∧ Holds q' (b.sort std) (rest ++ [.clear]) ∧
      q'.size + 1 = q.size ∧
      (pendingOf q.currentCursor cur (b :: rest)).Perm
        (item :: pendingOf q'.currentCursor (b.sort std) (rest ++ [.clear])) ∧
      ∀ y ∈ pendingOf q.currentCursor cur (b :: rest), item.deadline ≤ y.deadline := by
  obtain ⟨hq, hperm⟩ := h.advance std hused
  have hne : (b.sort std).items ≠ [] := by
    intro he
    have hnil := (TBucket.sort_perm std b)
    rw [he] at hnil
    exact h.next_ne_nil hused hsize hnil.nil_eq.symm
  obtain ⟨item, items, hitems⟩ := List.exists_cons_of_ne_nil hne
  have hfirst : (b.sort std).items[(q.advance std).currentCursor]? = some item := by
    rw [hitems]
    rfl
  obtain ⟨-, hq', hpending, hleast⟩ := hq.popFront_current std hfirst
  refine ⟨item, _, ?_, hq', Nat.sub_add_cancel (Nat.pos_of_ne_zero hsize),
    hperm.symm.trans (hpending ▸ List.Perm.refl _), fun y hy => hleast y (hperm.mem_iff.mpr hy)⟩
  have hnext : ({ q with size := q.size - 1 }.advance std).bucket
      ({ q with size := q.size - 1 }.advance std).currentBucket = b.sort std :=
    hq.bucket_current
  have hnone : cur.items[q.currentCursor]? = none := List.getElem?_eq_none_iff.mpr hused
  simp only [TBinnedTimerQueue.popFront, hsize, if_false, h.bucket_current, hnone, hnext]
  have hfirst' : (b.sort std).items[({ q with size := q.size - 1 }.advance std).currentCursor]?
      = some item := hfirst
  rw [hfirst']
  rfl

/-- `PopFront` on a queue with pending items returns one with the least deadline and takes it
away. -/
theorem Holds.popFront {q : TBinnedTimerQueue τ α} {cur : TBucket τ α}
    {rest : List (TBucket τ α)} (h : Holds q cur rest)
    (std : Sorter (TItem.deadline (τ := τ) (α := α))) (hsize : q.size ≠ 0) :
    ∃ item q' cur' rest', q.popFront std = .ok (item, q') ∧ Holds q' cur' rest' ∧
      (pendingOf q.currentCursor cur rest).Perm
        (item :: pendingOf q'.currentCursor cur' rest') ∧
      ∀ y ∈ pendingOf q.currentCursor cur rest, item.deadline ≤ y.deadline := by
  cases hitem : cur.items[q.currentCursor]? with
  | some item =>
    obtain ⟨hpop, hq', hpending, hleast⟩ := h.popFront_current std hitem
    exact ⟨item, _, cur, rest, hpop, hq', hpending ▸ List.Perm.refl _, hleast⟩
  | none =>
    have hused := List.getElem?_eq_none_iff.mp hitem
    cases rest with
    | nil => exact absurd rfl h.several
    | cons b rest =>
      obtain ⟨item, q', hpop, hq', -, hperm, hleast⟩ := h.popFront_next std hused hsize
      exact ⟨item, q', b.sort std, rest ++ [.clear], hpop, hq', hperm, hleast⟩

end Tpcc.TimerQueue
