import Mathlib.Data.Multiset.MapFold
import Tpcc.TimerQueue.Checked

/-! `Resize` of a timer wheel from which everything has been popped.  It leaves the index of the
current bucket as it is, and the queue works like a new one exactly when that bucket is among those
that are kept. -/

namespace Tpcc.TimerQueue

open Lib

section

variable {τ α : Type}

/-- A call; `Add` with the deadline `now + delay`, which the clock can represent. -/
inductive Call (τ α : Type)
  | add (deadline : τ) (value : α)
  | popFront
  | getNextDeadline
  | validate

/-- What a call returns or throws. -/
inductive Outcome (τ α : Type)
  | added
  | popped (item : TItem τ α)
  | threw (error : QueueError)
  | next (deadline : τ)
  | valid (answer : Bool)

/-- The deadline of an item that the call has popped. -/
def Outcome.due : Outcome τ α → Option τ
  | .popped item => some item.deadline
  | _ => none

variable [LinearOrder τ] [BoundedOrder τ]

namespace TBinnedTimerQueue

def call? (std : Sorter (TItem.deadline (τ := τ) (α := α))) (q : TBinnedTimerQueue τ α) :
    Call τ α → Option (Outcome τ α × TBinnedTimerQueue τ α)
  | .add deadline value => (q.add? deadline value).map fun q' => (.added, q')
  | .popFront => (q.popFront? std).map fun
    | (.ok item, q') => (.popped item, q')
    | (.error error, q') => (.threw error, q')
  | .getNextDeadline => q.getNextDeadline?.map fun deadline => (.next deadline, q)
  | .validate => q.validate?.map fun answer => (.valid answer, q)

/-- A sequence of calls, or `none` where one of them reads out of range. -/
def calls? (std : Sorter (TItem.deadline (τ := τ) (α := α))) :
    List (Call τ α) → TBinnedTimerQueue τ α → Option (List (Outcome τ α) × TBinnedTimerQueue τ α)
  | [], q => some ([], q)
  | call :: calls, q => do
    let (outcome, q') ← q.call? std call
    let (outcomes, q'') ← calls? std calls q'
    return (outcome :: outcomes, q'')

end TBinnedTimerQueue

/-- What a priority queue with the items `pending` may answer to a call, with the items that are
pending afterwards.  `PopFront` takes away an item that is due first, and `GetNextDeadline` shows
the deadline of an item. -/
inductive Answers (pending : Multiset (TItem τ α)) :
    Call τ α → Outcome τ α → Multiset (TItem τ α) → Prop
  | add (deadline : τ) (value : α) :
    Answers pending (.add deadline value) .added (⟨deadline, value⟩ ::ₘ pending)
  | popFront {item : TItem τ α} {rest : Multiset (TItem τ α)} (hpending : pending = item ::ₘ rest)
    (hleast : ∀ other ∈ pending, item.deadline ≤ other.deadline) :
    Answers pending .popFront (.popped item) rest
  | popEmpty (hpending : pending = 0) : Answers pending .popFront (.threw .popEmpty) pending
  | getNextDeadline {item : TItem τ α} (hmem : item ∈ pending) :
    Answers pending .getNextDeadline (.next item.deadline) pending
  | noDeadline (hpending : pending = 0) : Answers pending .getNextDeadline (.next ⊤) pending
  | validate : Answers pending .validate (.valid true) pending

/-- The answers to a sequence of calls. -/
inductive Serves : Multiset (TItem τ α) → List (Call τ α) → List (Outcome τ α) → Prop
  | nil {pending : Multiset (TItem τ α)} : Serves pending [] []
  | cons {pending next : Multiset (TItem τ α)} {call : Call τ α} {outcome : Outcome τ α}
    {calls : List (Call τ α)} {outcomes : List (Outcome τ α)}
    (head : Answers pending call outcome next) (tail : Serves next calls outcomes) :
    Serves pending (call :: calls) (outcome :: outcomes)

omit [BoundedOrder τ] in
/-- An item that is due first in one queue is due no later than any item of another queue with the
same deadlines. -/
theorem least_le_of_same {pending pending' : Multiset (TItem τ α)} {item item' : TItem τ α}
    (hleast : ∀ other ∈ pending, item.deadline ≤ other.deadline)
    (hsame : pending.map TItem.deadline = pending'.map TItem.deadline) (hmem : item' ∈ pending') :
    item.deadline ≤ item'.deadline := by
  have hdeadline : item'.deadline ∈ pending.map TItem.deadline := by
    rw [hsame]
    exact Multiset.mem_map_of_mem TItem.deadline hmem
  obtain ⟨other, hother, heq⟩ := Multiset.mem_map.mp hdeadline
  rw [← heq]
  exact hleast other hother

/-- The deadlines that are pending decide the deadline that is popped. -/
theorem Answers.due_eq {pending pending' next next' : Multiset (TItem τ α)} {call : Call τ α}
    {outcome outcome' : Outcome τ α} (h : Answers pending call outcome next)
    (h' : Answers pending' call outcome' next')
    (hsame : pending.map TItem.deadline = pending'.map TItem.deadline) :
    outcome.due = outcome'.due ∧ next.map TItem.deadline = next'.map TItem.deadline := by
  cases h with
  | add deadline value =>
    cases h' with
    | add => exact ⟨rfl, by rw [Multiset.map_cons, Multiset.map_cons, hsame]⟩
  | @popFront item _ hpending hleast =>
    cases h' with
    | @popFront item' _ hpending' hleast' =>
      have heq : item.deadline = item'.deadline := by
        refine le_antisymm (least_le_of_same hleast hsame ?_)
          (least_le_of_same hleast' hsame.symm ?_)
        · rw [hpending']
          exact Multiset.mem_cons_self _ _
        · rw [hpending]
          exact Multiset.mem_cons_self _ _
      rw [hpending, hpending', Multiset.map_cons, Multiset.map_cons, heq] at hsame
      exact ⟨congrArg some heq, (Multiset.cons_inj_right _).mp hsame⟩
    | popEmpty hpending' =>
      rw [hpending, hpending', Multiset.map_cons] at hsame
      exact absurd hsame (Multiset.cons_ne_zero)
  | popEmpty hpending =>
    cases h' with
    | popFront hpending' hleast' =>
      rw [hpending, hpending', Multiset.map_cons] at hsame
      exact absurd hsame.symm (Multiset.cons_ne_zero)
    | popEmpty hpending' => exact ⟨rfl, hsame⟩
  | getNextDeadline _ =>
    cases h' with
    | getNextDeadline _ | noDeadline _ => exact ⟨rfl, hsame⟩
  | noDeadline _ =>
    cases h' with
    | getNextDeadline _ | noDeadline _ => exact ⟨rfl, hsame⟩
  | validate =>
    cases h' with
    | validate => exact ⟨rfl, hsame⟩

/-- Two queues with the same deadlines that both serve the calls pop the same deadlines. -/
theorem Serves.due_eq {pending pending' : Multiset (TItem τ α)} {calls : List (Call τ α)}
    {outcomes outcomes' : List (Outcome τ α)} (h : Serves pending calls outcomes)
    (h' : Serves pending' calls outcomes')
    (hsame : pending.map TItem.deadline = pending'.map TItem.deadline) :
    outcomes.map Outcome.due = outcomes'.map Outcome.due := by
  induction h generalizing pending' outcomes' with
  | nil =>
    cases h' with
    | nil => rfl
  | cons head _ ih =>
    cases h' with
    | cons head' tail' =>
      obtain ⟨hdue, hnext⟩ := head.due_eq head' hsame
      rw [List.map_cons, List.map_cons, hdue, ih tail' hnext]

open TBinnedTimerQueue

section Holds

variable {q : TBinnedTimerQueue τ α} {cur : TBucket τ α} {rest : List (TBucket τ α)}

/-- In a queue that satisfies the invariant a call reads no bucket that does not exist, answers as a
priority queue does, and keeps the invariant. -/
theorem Holds.call (h : Holds q cur rest) (std : Sorter (TItem.deadline (τ := τ) (α := α)))
    (call : Call τ α) :
    ∃ outcome q' cur' rest', q.call? std call = some (outcome, q') ∧ Holds q' cur' rest' ∧
      Answers (pendingOf q.currentCursor cur rest : Multiset _) call outcome
        (pendingOf q'.currentCursor cur' rest' : Multiset _) := by
  cases call with
  | add deadline value =>
    obtain ⟨cur', rest', hholds, hperm⟩ := h.add deadline value
    have hcursor : q.currentCursor ≤ (q.bucket q.currentBucket).items.length := by
      rw [h.bucket_current]
      exact h.cursor
    have hadd := add?_eq (Nat.zero_lt_of_lt h.current) (fun _ => hcursor) deadline value
    refine ⟨.added, q.add deadline value, cur', rest', by simp [call?, hadd], hholds, ?_⟩
    rw [Multiset.coe_eq_coe.mpr hperm]
    exact .add deadline value
  | popFront =>
    by_cases hsize : q.size = 0
    · refine ⟨.threw .popEmpty, q, cur, rest, by simp [call?, popFront?, hsize], h, ?_⟩
      exact .popEmpty (by rw [h.pending_eq_nil hsize]; rfl)
    · obtain ⟨item, q', cur', rest', hpop, hholds, hperm, hleast⟩ := h.popFront std hsize
      have hpop' := popFront?_ok h.current hpop
      refine ⟨.popped item, q', cur', rest', by simp [call?, hpop'], hholds, ?_⟩
      exact .popFront (Multiset.coe_eq_coe.mpr hperm) hleast
  | getNextDeadline =>
    by_cases hsize : q.size = 0
    · refine ⟨.next ⊤, q, cur, rest, by simp [call?, getNextDeadline?, hsize], h, ?_⟩
      exact .noDeadline (by rw [h.pending_eq_nil hsize]; rfl)
    · obtain ⟨first, hfirst, hnext⟩ := h.exists_getNextDeadline hsize
      have hnext' := (getNextDeadline?_eq h.current).trans hnext
      refine ⟨.next first.deadline, q, cur, rest, by simp [call?, hnext'], h, ?_⟩
      exact .getNextDeadline hfirst
  | validate =>
    have hvalid := validate?_eq h.current
    rw [h.validate] at hvalid
    exact ⟨.valid true, q, cur, rest, by simp [call?, hvalid], h, .validate⟩

/-- A queue that satisfies the invariant serves every sequence of calls. -/
theorem Holds.calls (h : Holds q cur rest) (std : Sorter (TItem.deadline (τ := τ) (α := α)))
    (calls : List (Call τ α)) :
    ∃ outcomes q', q.calls? std calls = some (outcomes, q') ∧
      Serves (pendingOf q.currentCursor cur rest : Multiset _) calls outcomes := by
  induction calls generalizing q cur rest with
  | nil => exact ⟨[], q, rfl, .nil⟩
  | cons call calls ih =>
    obtain ⟨outcome, q', cur', rest', hcall, hholds, hanswers⟩ := h.call std call
    obtain ⟨outcomes, q'', hcalls, hserves⟩ := ih hholds
    refine ⟨outcome :: outcomes, q'', ?_, .cons hanswers hserves⟩
    simp [calls?, hcall, hcalls]

omit [LinearOrder τ] [BoundedOrder τ] in
theorem length_take_append_replicate (buckets : List (TBucket τ α)) (b : TBucket τ α) (n : Nat) :
    (buckets.take n ++ List.replicate (n - buckets.length) b).length = n := by
  rw [List.length_append, List.length_take, List.length_replicate]
  omega

/-- `Resize` accepts a queue with nothing pending, and keeps the invariant if it keeps the current
bucket. -/
theorem Holds.resize (h : Holds q cur rest) (hsize : q.size = 0) {bucketCount : Nat}
    (bucketSoftLimit : Nat) (hkept : q.currentBucket < max 2 bucketCount) :
    ∃ q' rest', q.resize bucketCount bucketSoftLimit = .ok q' ∧ Holds q' cur rest' ∧
      pendingOf q'.currentCursor cur rest' = [] := by
  have hnil := h.pending_eq_nil hsize
  obtain ⟨hcur, hrest⟩ := List.append_eq_nil_iff.mp hnil
  obtain ⟨rest', hring, hmem⟩ := ring_take_append h.current hkept h.ring
    (List.replicate (max 2 bucketCount - q.buckets.length) TBucket.clear)
  have hcount := length_take_append_replicate q.buckets .clear (max 2 bucketCount)
  have hlength := congrArg List.length hring
  rw [List.length_rotate, hcount, List.length_cons] at hlength
  refine ⟨_, rest', if_neg (not_not.mpr hsize), Holds.of_drained hring ?_ ?_ ?_ ?_ ?_ ?_ hsize⟩
  · exact hkept.trans_eq hcount.symm
  · rintro rfl
    simp at hlength
    omega
  · exact Nat.lt_of_lt_of_le Nat.zero_lt_one (Nat.le_max_left ..)
  · exact Nat.le_antisymm h.cursor (List.drop_eq_nil_iff.mp hcur)
  · exact h.exact cur List.mem_cons_self
  · intro b hb
    rcases hmem b hb with hb | hb
    · exact ⟨h.exact b (List.mem_cons_of_mem _ hb), List.flatMap_eq_nil_iff.mp hrest b hb⟩
    · obtain rfl := (List.mem_replicate.mp hb).2
      exact ⟨TBucket.exact_clear, rfl⟩

end Holds

/-- A queue without its current bucket reads behind the end of the vector in every `Validate`, and
in every `PopFront` and `GetNextDeadline` after an `Add`. -/
theorem calls?_lost {q : TBinnedTimerQueue τ α} (hpos : 0 < q.bucketCount)
    (hlost : q.bucketCount ≤ q.currentBucket)
    (std : Sorter (TItem.deadline (τ := τ) (α := α))) :
    q.calls? std [.validate] = none ∧ ∀ deadline value,
      q.calls? std [.add deadline value, .popFront] = none ∧
        q.calls? std [.add deadline value, .getNextDeadline] = none := by
  refine ⟨by simp [calls?, call?, validate?_lost hlost], fun deadline value => ?_⟩
  have hadd := add?_eq hpos (fun hcurrent => absurd hcurrent (not_lt.mpr hlost)) deadline value
  have hlost' : (q.add deadline value).bucketCount ≤ (q.add deadline value).currentBucket := by
    rwa [add_bucketCount, add_currentBucket]
  have hsize := add_size_ne (q := q) deadline value
  constructor
  · simp [calls?, call?, hadd, popFront?_lost hlost' std hsize]
  · simp [calls?, call?, hadd, getNextDeadline?_lost hlost' hsize]

/-- `q`, with nothing pending, works like the queue `fresh`: on every sequence of calls both read
only existing buckets, answer as a priority queue does, and pop the same deadlines. -/
def WorksAs (std : Sorter (TItem.deadline (τ := τ) (α := α))) (q fresh : TBinnedTimerQueue τ α) :
    Prop :=
  ∀ calls, ∃ outcomes last outcomes' last',
    q.calls? std calls = some (outcomes, last) ∧ fresh.calls? std calls = some (outcomes', last') ∧
      Serves 0 calls outcomes ∧ Serves 0 calls outcomes' ∧
      outcomes.map Outcome.due = outcomes'.map Outcome.due

theorem Holds.worksAs {q fresh : TBinnedTimerQueue τ α} {cur cur' : TBucket τ α}
    {rest rest' : List (TBucket τ α)} (h : Holds q cur rest) (h' : Holds fresh cur' rest')
    (hnil : pendingOf q.currentCursor cur rest = [])
    (hnil' : pendingOf fresh.currentCursor cur' rest' = [])
    (std : Sorter (TItem.deadline (τ := τ) (α := α))) : WorksAs std q fresh := by
  intro calls
  obtain ⟨outcomes, last, hcalls, hserves⟩ := h.calls std calls
  obtain ⟨outcomes', last', hcalls', hserves'⟩ := h'.calls std calls
  rw [hnil] at hserves
  rw [hnil'] at hserves'
  exact ⟨outcomes, last, outcomes', last', hcalls, hcalls', hserves, hserves',
    hserves.due_eq hserves' rfl⟩

end

section Run

variable {α : Type} [DecidableEq α] {std : Sorter (TItem.deadline (τ := TTimePoint) (α := α))}
  {bucketCount bucketSoftLimit : Nat} {q : TBinnedTimerQueue TTimePoint α}
  {pending : Multiset (TItem TTimePoint α)}

/-- After every run that leaves nothing pending and for all parameters `Resize` accepts the queue,
and the queue works like a new one with these parameters if and only if its current bucket is among
those that `Resize` keeps. -/
theorem resize_works_iff (run : Run std bucketCount bucketSoftLimit q pending)
    (hsize : q.size = 0) (newCount newLimit : Nat) :
    ∃ q' fresh, q.resize newCount newLimit = .ok q' ∧
      TBinnedTimerQueue.new newCount newLimit = .ok fresh ∧
      (WorksAs std q' fresh ↔ q.currentBucket < max 2 newCount) := by
  obtain ⟨cur, rest, hholds, -⟩ := run.holds
  obtain ⟨fresh, hfresh, restFresh, hholdsFresh, hnilFresh⟩ :=
    new_holds (τ := TTimePoint) (α := α) newCount newLimit
  by_cases hkept : q.currentBucket < max 2 newCount
  · obtain ⟨q', rest', hresize, hholds', hnil⟩ := hholds.resize hsize newLimit hkept
    exact ⟨q', fresh, hresize, hfresh,
      iff_of_true (hholds'.worksAs hholdsFresh hnil hnilFresh std) hkept⟩
  · refine ⟨_, fresh, if_neg (not_not.mpr hsize), hfresh, iff_of_false (fun hworks => ?_) hkept⟩
    have hcount := length_take_append_replicate q.buckets .clear (max 2 newCount)
    obtain ⟨outcomes, last, -, -, hcalls, -⟩ := hworks [.validate]
    rw [(calls?_lost ?_ ?_ std).1] at hcalls
    · cases hcalls
    · exact (Nat.lt_of_lt_of_le Nat.zero_lt_two (Nat.le_max_left ..)).trans_eq hcount.symm
    · exact hcount.trans_le (not_lt.mp hkept)

/-- Three buckets with soft limit 1 and an item in each: the last pop is from the third bucket,
which `Resize` to two buckets does not keep. -/
theorem resize_loses_current :
    ∃ (q q' fresh : TBinnedTimerQueue TTimePoint Nat) (pending : Multiset (TItem TTimePoint Nat)),
      Run (.mergeSort TItem.deadline) 3 1 q pending ∧ q.size = 0 ∧
        q.resize 2 1 = .ok q' ∧ TBinnedTimerQueue.new 2 1 = .ok fresh ∧
        q'.calls? (.mergeSort TItem.deadline) [.validate] = none ∧
        q'.calls? (.mergeSort TItem.deadline)
          [.add ⟨4000, by decide, by decide⟩ 4, .popFront] = none ∧
        ¬WorksAs (.mergeSort TItem.deadline) q' fresh := by
  have epoch : Run (.mergeSort TItem.deadline) 3 1 _ 0 := .new (α := Nat) rfl
  have first := epoch.add ⟨0, by decide, by decide⟩ 1 1 rfl
  have second := first.add ⟨0, by decide, by decide⟩ 2 2 rfl
  have third := second.add ⟨0, by decide, by decide⟩ 3 3 rfl
  have popped := third.popFront rfl
  have popped' := popped.popFront rfl
  have drained := popped'.popFront rfl
  refine ⟨_, _, _, _, drained, rfl, rfl, rfl, rfl, rfl, fun hworks => ?_⟩
  obtain ⟨outcomes, last, -, -, hcalls, -⟩ := hworks [.validate]
  cases hcalls

/-- The second of three buckets, which `Resize` to two buckets keeps. -/
theorem resize_works_iff_second :
    ∃ (q q' fresh : TBinnedTimerQueue TTimePoint Nat) (pending : Multiset (TItem TTimePoint Nat)),
      Run (.mergeSort TItem.deadline) 3 1 q pending ∧ q.size = 0 ∧ q.currentBucket = 1 ∧
        q.resize 2 1 = .ok q' ∧ TBinnedTimerQueue.new 2 1 = .ok fresh ∧
        WorksAs (.mergeSort TItem.deadline) q' fresh := by
  have epoch : Run (.mergeSort TItem.deadline) 3 1 _ 0 := .new (α := Nat) rfl
  have first := epoch.add ⟨0, by decide, by decide⟩ 1 1 rfl
  have second := first.add ⟨0, by decide, by decide⟩ 2 2 rfl
  have popped := second.popFront rfl
  have drained := popped.popFront rfl
  obtain ⟨q', fresh, hresize, hfresh, hiff⟩ := resize_works_iff drained rfl 2 1
  exact ⟨_, q', fresh, _, drained, rfl, rfl, hresize, hfresh, hiff.mpr Nat.one_lt_two⟩

end Run

end Tpcc.TimerQueue
