import Tpcc.TaskQueue.Waiting
import Tpcc.Lib.Sums

/-! The admission bound: `RunningInternalCount` counts the admitted coroutines and the increments
still to be undone, and at most `MaxRunningInternal` coroutines are admitted at once. -/

namespace Tpcc.TaskQueue

open Lib Finset

section Measures

variable {η γ : Type} (c : Config)

/-- Whether a thread has taken a slot for the first handle of its waiting queue. -/
def Point.claims : Point η → Bool
  | .inflightCompare prev => decide (prev < c.maxRunningInternal)
  | _ => false

/-- The number of increments that a thread has still to undo. -/
def Point.toUndo : Point η → Nat
  | .inflightCompare prev => if prev < c.maxRunningInternal then 0 else 1
  | .inflightUndo => 1
  | .running _ (.incCompare _ _ prev) =>
    if c.maxRunningInternal = 0 ∨ prev < c.maxRunningInternal then 0 else 1
  | .running _ (.incUndo _ _) => 1
  | _ => 0

/-- The handle whose request a thread has rejected and not yet put into a waiting queue. -/
def Point.rejecting : Point η → List η
  | .running _ (.incCompare h _ prev) =>
    if c.maxRunningInternal = 0 ∨ prev < c.maxRunningInternal then [] else [h]
  | .running _ (.incUndo h _) => [h]
  | .running _ (.incPush h _) => [h]
  | _ => []

/-- Whether a thread relies on its waiting queue not being empty. -/
def Point.expects : Point η → Bool
  | .inflightAdd => true
  | .inflightCompare _ => true
  | _ => false

namespace TTaskQueue

/-- The waiting handle for which a thread has taken a slot. -/
def claimed (q : TTaskQueue η) (t : Nat) : List η :=
  if (q.thread t).claims c then (q.waiting t).take 1 else []

/-- The waiting handles without a slot. -/
def unclaimed (q : TTaskQueue η) (t : Nat) : List η :=
  if (q.thread t).claims c then (q.waiting t).drop 1 else q.waiting t

/-- The increments still to be undone. -/
def undos (q : TTaskQueue η) : Nat := ∑ t ∈ range c.threadCount, (q.thread t).toUndo c

variable [DecidableEq η]

/-- How often a handle waits for a slot: in a waiting queue or on its way there. -/
def pendingCount (q : TTaskQueue η) (h : η) : Nat :=
  ∑ t ∈ range c.threadCount,
    (((q.thread t).rejecting c).count h + (q.unclaimed c t).count h)

/-- How often a handle that has a slot is still in a waiting queue. -/
def claimedCount (q : TTaskQueue η) (h : η) : Nat :=
  ∑ t ∈ range c.threadCount, (q.claimed c t).count h

/-- How often a handle is in a waiting queue. -/
def waitingCount (q : TTaskQueue η) (h : η) : Nat :=
  ∑ t ∈ range c.threadCount, (q.waiting t).count h

end TTaskQueue

/-- How a coroutine uses its slot: it is suspended while it is in a waiting queue, it asks for a slot
only when it neither has one nor has asked for one, and it gives back only a slot that it has. -/
def Disciplined [DecidableEq η] {ι : Type} (s : System η γ) : Action η ι → Prop
  | .call (some _) (.incInflight h _) =>
    s.q.waitingCount c h = 0 ∧ s.q.pendingCount c h = 0 ∧
      s.history.admitted.count h = s.history.released.count h
  | .call (some _) (.decInflight h) =>
    s.q.waitingCount c h = 0 ∧ s.history.released.count h < s.history.admitted.count h
  | _ => True

instance [DecidableEq η] {ι : Type} (s : System η γ) (a : Action η ι) :
    Decidable (Disciplined c s a) := by
  unfold Disciplined
  split <;> infer_instance

/-- The invariant of admission. -/
structure Admission [DecidableEq η] (q : TTaskQueue η) (history : History η) : Prop where
  count_eq : q.runningInternalCount.toNat + history.released.length =
    history.admitted.length + q.undos c
  bound : history.admitted.length ≤ history.released.length + c.maxRunningInternal.toNat
  single : ∀ h, q.pendingCount c h + history.admitted.count h ≤ history.released.count h + 1
  claimed_le : ∀ h, q.claimedCount c h + history.released.count h ≤ history.admitted.count h
  requests : q.Live → ∀ h, history.requested.count h =
    history.admitted.count h + history.threw.count h + q.pendingCount c h
  expects : ∀ t < c.threadCount, (q.thread t).expects = true → q.waiting t ≠ []

end Measures

section Frame

variable {η γ : Type} [DecidableEq η] {c : Config} {q q' : TTaskQueue η} {history : History η}

omit [DecidableEq η] in
theorem TTaskQueue.claimed_append_unclaimed (q : TTaskQueue η) (t : Nat) :
    q.claimed c t ++ q.unclaimed c t = q.waiting t := by
  unfold TTaskQueue.claimed TTaskQueue.unclaimed
  split
  · exact List.take_append_drop 1 _
  · rfl

omit [DecidableEq η] in
/-- A rejected handle is the one whose request the thread serves. -/
theorem Point.request_of_rejecting {p : Point η} {a : η} (h : a ∈ p.rejecting c) :
    ∃ threadHint slot, p.request c = some (a, threadHint, slot) := by
  unfold Point.rejecting at h
  split at h
  · split at h
    · cases h
    · rw [List.mem_singleton.1 h]
      exact ⟨_, _, rfl⟩
  · rw [List.mem_singleton.1 h]
    exact ⟨_, _, rfl⟩
  · rw [List.mem_singleton.1 h]
    exact ⟨_, _, rfl⟩
  · cases h

/-- A step that leaves the counter, the waiting queues and the measures of every thread as they
are. -/
theorem Admission.frame (h : Admission c q history)
    (hcount : q'.runningInternalCount = q.runningInternalCount)
    (hwaiting : ∀ t, q'.waiting t = q.waiting t)
    (hclaims : ∀ t, (q'.thread t).claims c = (q.thread t).claims c)
    (hundo : ∀ t, (q'.thread t).toUndo c = (q.thread t).toUndo c)
    (hrejecting : ∀ t, (q'.thread t).rejecting c = (q.thread t).rejecting c)
    (hexpects : ∀ t < c.threadCount, (q'.thread t).expects = true → q'.waiting t ≠ [])
    (hlive : q'.Live → q.Live) : Admission c q' history := by
  have hclaimed : ∀ t, q'.claimed c t = q.claimed c t := by
    intro t
    simp only [TTaskQueue.claimed, hclaims, hwaiting]
  have hunclaimed : ∀ t, q'.unclaimed c t = q.unclaimed c t := by
    intro t
    simp only [TTaskQueue.unclaimed, hclaims, hwaiting]
  have hundos : q'.undos c = q.undos c := sum_range_congr hundo
  have hpending : ∀ a, q'.pendingCount c a = q.pendingCount c a := by
    intro a
    exact sum_range_congr fun t => by rw [hrejecting, hunclaimed]
  have hclaimedCount : ∀ a, q'.claimedCount c a = q.claimedCount c a := by
    intro a
    exact sum_range_congr fun t => by rw [hclaimed]
  exact
    { count_eq := by rw [hcount, hundos]; exact h.count_eq
      bound := h.bound
      single := by simpa only [hpending] using h.single
      claimed_le := by simpa only [hclaimedCount] using h.claimed_le
      requests := fun hl => by simpa only [hpending] using h.requests (hlive hl)
      expects := hexpects }

/-- A thread moves on without touching the counter or a waiting queue. -/
theorem Admission.setThread (h : Admission c q history) {t : Nat} {p : Point η}
    (p' : Point η) (hp : q.thread t = p) (hclaims : p'.claims c = p.claims c)
    (hundo : p'.toUndo c = p.toUndo c) (hrejecting : p'.rejecting c = p.rejecting c)
    (hexpects : p'.expects = true → q.waiting t ≠ []) :
    Admission c (q.setThread t p') history := by
  refine h.frame rfl (fun _ => rfl) ?_ ?_ ?_ ?_ (fun hl => hl)
  · intro i
    by_cases hi : i = t
    · simp [hi, hclaims, hp]
    · simp [hi]
  · intro i
    by_cases hi : i = t
    · simp [hi, hundo, hp]
    · simp [hi]
  · intro i
    by_cases hi : i = t
    · simp [hi, hrejecting, hp]
    · simp [hi]
  · intro i hlt hexp
    by_cases hi : i = t
    · subst hi
      exact hexpects (by simpa using hexp)
    · exact h.expects i hlt (by simpa [hi] using hexp)

/-- A context changes, but not its waiting queue. -/
theorem Admission.setContext (h : Admission c q history) (t : Nat) (ctx : TPerThreadContext η)
    (hwaiting : ctx.inflightWaitingTasksInternal = q.waiting t) :
    Admission c (q.setContext t ctx) history := by
  have hsame : ∀ i, (q.setContext t ctx).waiting i = q.waiting i := by
    intro i
    by_cases hi : i = t
    · simp [TTaskQueue.waiting, hi, hwaiting]
    · simp [TTaskQueue.waiting, hi]
  refine h.frame rfl hsame (fun _ => rfl) (fun _ => rfl) (fun _ => rfl) ?_ (fun hl => hl)
  intro i hlt hexp
  rw [hsame]
  exact h.expects i hlt hexp

end Frame

section Count

variable {η : Type} [DecidableEq η] {c : Config} {q : TTaskQueue η} {history : History η}

theorem Admission.released_le (h : Admission c q history) :
    history.released.length ≤ history.admitted.length := by
  refine (List.subperm_iff_count.2 fun a => ?_).length_le
  have hclaimed := h.claimed_le a
  omega

omit [DecidableEq η] in
theorem Point.toUndo_le (p : Point η) : p.toUndo c ≤ 1 := by
  unfold Point.toUndo
  split
  · split <;> omega
  · omega
  · split <;> omega
  · omega
  · omega

omit [DecidableEq η] in
theorem Admission.undos_le (q : TTaskQueue η) : q.undos c ≤ c.threadCount :=
  sum_range_le fun t => (q.thread t).toUndo_le

/-- The counter is far from its largest value. -/
theorem Admission.count_lt [Fintype η] (h : Admission c q history)
    (hframes : Fintype.card η ≤ 2 ^ 60) : q.runningInternalCount.toNat < 2 ^ 64 - 1 := by
  have hcount := h.count_eq
  have hundos := Admission.undos_le (c := c) q
  have hthreads := c.threadCount_le
  have hadmitted : history.admitted.length ≤ history.released.length + Fintype.card η := by
    refine length_le_of_count_le fun a => ?_
    have hsingle := h.single a
    omega
  omega

theorem toNat_add_one {n : UInt64} (h : n.toNat < 2 ^ 64 - 1) : (n + 1).toNat = n.toNat + 1 := by
  rw [UInt64.toNat_add]
  exact Nat.mod_eq_of_lt (by simp only [UInt64.toNat_one]; omega)

theorem toNat_sub_one {n : UInt64} (h : 1 ≤ n.toNat) : (n - 1).toNat = n.toNat - 1 :=
  UInt64.toNat_sub_of_le _ _ (by rw [UInt64.le_iff_toNat_le]; exact h)

end Count

section Changes

variable {η : Type} [DecidableEq η] {c : Config} {q q' : TTaskQueue η} {history : History η}

/-- Only thread `t` and its waiting queue differ. -/
structure ChangesAt (q q' : TTaskQueue η) (t : Nat) : Prop where
  thread : ∀ i, i ≠ t → q'.thread i = q.thread i
  waiting : ∀ i, i ≠ t → q'.waiting i = q.waiting i
  join : q'.join = q.join

namespace ChangesAt

variable {t : Nat}

omit [DecidableEq η] in
theorem setThread (q : TTaskQueue η) (t : Nat) (p : Point η) : ChangesAt q (q.setThread t p) t :=
  ⟨fun i hi => by simp [hi], fun _ _ => rfl, rfl⟩

omit [DecidableEq η] in
theorem setContext (q : TTaskQueue η) (t : Nat) (ctx : TPerThreadContext η) :
    ChangesAt q (q.setContext t ctx) t :=
  ⟨fun _ _ => rfl, fun i hi => by simp [TTaskQueue.waiting, hi], rfl⟩

omit [DecidableEq η] in
theorem setCount (q : TTaskQueue η) (t : Nat) (n : UInt64) : ChangesAt q (q.setCount n) t :=
  ⟨fun _ _ => rfl, fun _ _ => rfl, rfl⟩

omit [DecidableEq η] in
theorem trans {q'' : TTaskQueue η} (h : ChangesAt q q' t) (h' : ChangesAt q' q'' t) :
    ChangesAt q q'' t :=
  ⟨fun i hi => (h'.thread i hi).trans (h.thread i hi),
    fun i hi => (h'.waiting i hi).trans (h.waiting i hi), h'.join.trans h.join⟩

omit [DecidableEq η] in
theorem undos (h : ChangesAt q q' t) (ht : t < c.threadCount) :
    q'.undos c + (q.thread t).toUndo c = q.undos c + (q'.thread t).toUndo c :=
  sum_range_step (f := fun i => (q.thread i).toUndo c) (g := fun i => (q'.thread i).toUndo c) ht
    fun i hi => by simp only [h.thread i hi]

theorem pendingCount (h : ChangesAt q q' t) (ht : t < c.threadCount) (a : η) :
    q'.pendingCount c a + (((q.thread t).rejecting c).count a + (q.unclaimed c t).count a) =
      q.pendingCount c a + (((q'.thread t).rejecting c).count a + (q'.unclaimed c t).count a) :=
  sum_range_step
    (f := fun i => ((q.thread i).rejecting c).count a + (q.unclaimed c i).count a)
    (g := fun i => ((q'.thread i).rejecting c).count a + (q'.unclaimed c i).count a) ht
    fun i hi => by simp only [TTaskQueue.unclaimed, h.thread i hi, h.waiting i hi]

theorem claimedCount (h : ChangesAt q q' t) (ht : t < c.threadCount) (a : η) :
    q'.claimedCount c a + (q.claimed c t).count a =
      q.claimedCount c a + (q'.claimed c t).count a :=
  sum_range_step (f := fun i => (q.claimed c i).count a) (g := fun i => (q'.claimed c i).count a)
    ht fun i hi => by simp only [TTaskQueue.claimed, h.thread i hi, h.waiting i hi]

theorem expects (h : ChangesAt q q' t) (hold : Admission c q history)
    (hexpects : (q'.thread t).expects = true → q'.waiting t ≠ []) :
    ∀ i < c.threadCount, (q'.thread i).expects = true → q'.waiting i ≠ [] := by
  intro i hlt hexp
  by_cases hi : i = t
  · subst hi
    exact hexpects hexp
  · rw [h.waiting i hi]
    exact hold.expects i hlt (by rwa [h.thread i hi] at hexp)

omit [DecidableEq η] in
theorem live (h : ChangesAt q q' t) : q'.Live ↔ q.Live := by
  unfold TTaskQueue.Live
  rw [h.join]

end ChangesAt

/-- The rule for a step that changes the measures of one thread: what it adds to the pending and
claimed handles of thread `t` is balanced by what it adds to the history. -/
theorem Admission.change {history' : History η} (h : Admission c q history) {t : Nat}
    (ht : t < c.threadCount) (hchange : ChangesAt q q' t)
    (pending pending' claimed claimed' : List η)
    (hpending : (q.thread t).rejecting c ++ q.unclaimed c t = pending)
    (hpending' : (q'.thread t).rejecting c ++ q'.unclaimed c t = pending')
    (hclaimed : q.claimed c t = claimed) (hclaimed' : q'.claimed c t = claimed')
    (hcount : q'.runningInternalCount.toNat + history'.released.length +
        history.admitted.length + (q.thread t).toUndo c =
      q.runningInternalCount.toNat + history.released.length + history'.admitted.length +
        (q'.thread t).toUndo c)
    (hbound : history'.admitted.length ≤
      history'.released.length + c.maxRunningInternal.toNat)
    (hsingle : ∀ a n, q.pendingCount c a = n + pending.count a →
      n + pending'.count a + history'.admitted.count a ≤ history'.released.count a + 1)
    (hclaimed_le : ∀ a n, q.claimedCount c a = n + claimed.count a →
      n + claimed'.count a + history'.released.count a ≤ history'.admitted.count a)
    (hrequests : q.Live → ∀ a n, q.pendingCount c a = n + pending.count a →
      history'.requested.count a =
        history'.admitted.count a + history'.threw.count a + (n + pending'.count a))
    (hexpects : (q'.thread t).expects = true → q'.waiting t ≠ []) :
    Admission c q' history' := by
  have hrest : ∀ a, ∃ n, q.pendingCount c a = n + pending.count a ∧
      q'.pendingCount c a = n + pending'.count a := by
    intro a
    have hstep := hchange.pendingCount ht a
    have hle : ((q.thread t).rejecting c).count a + (q.unclaimed c t).count a ≤
        q.pendingCount c a :=
      le_sum_range ht fun i => ((q.thread i).rejecting c).count a + (q.unclaimed c i).count a
    rw [← List.count_append, hpending] at hstep hle
    rw [← List.count_append, hpending'] at hstep
    exact ⟨q.pendingCount c a - pending.count a, by omega, by omega⟩
  have hrest' : ∀ a, ∃ n, q.claimedCount c a = n + claimed.count a ∧
      q'.claimedCount c a = n + claimed'.count a := by
    intro a
    have hstep := hchange.claimedCount ht a
    have hle : (q.claimed c t).count a ≤ q.claimedCount c a :=
      le_sum_range ht fun i => (q.claimed c i).count a
    rw [hclaimed] at hstep hle
    rw [hclaimed'] at hstep
    exact ⟨q.claimedCount c a - claimed.count a, by omega, by omega⟩
  exact
    { count_eq := by
        have hundos := hchange.undos ht
        have hold := h.count_eq
        omega
      bound := hbound
      single := by
        intro a
        obtain ⟨n, hn, hn'⟩ := hrest a
        have hs := hsingle a n hn
        omega
      claimed_le := by
        intro a
        obtain ⟨n, hn, hn'⟩ := hrest' a
        have hs := hclaimed_le a n hn
        omega
      requests := by
        intro hlive a
        obtain ⟨n, hn, hn'⟩ := hrest a
        have hs := hrequests (hchange.live.1 hlive) a n hn
        omega
      expects := hchange.expects h hexpects }

/-- The `fetch_add` of `ProcessInflightQueue` takes a slot for the first waiting handle. -/
theorem Admission.inflightTake (h : Admission c q history) {t : Nat} (ht : t < c.threadCount)
    (hpoint : q.thread t = .inflightAdd) {a : η} {rest : List η} (hwaiting : q.waiting t = a :: rest)
    (hprev : q.runningInternalCount < c.maxRunningInternal)
    (hcount : q.runningInternalCount.toNat < 2 ^ 64 - 1) :
    Admission c ((q.setCount (q.runningInternalCount + 1)).setThread t
      (.inflightCompare q.runningInternalCount))
      { history with admitted := history.admitted ++ [a] } := by
  have hchange := (ChangesAt.setCount q t (q.runningInternalCount + 1)).trans
    (.setThread _ t (.inflightCompare q.runningInternalCount))
  have hlt : q.runningInternalCount.toNat < c.maxRunningInternal.toNat := hprev
  have hold := h.count_eq
  set q' := (q.setCount (q.runningInternalCount + 1)).setThread t
    (.inflightCompare q.runningInternalCount) with hq'
  have hpoint' : q'.thread t = .inflightCompare q.runningInternalCount := by simp [hq']
  have hwaiting' : q'.waiting t = a :: rest := hwaiting
  have hcount' : q'.runningInternalCount.toNat = q.runningInternalCount.toNat + 1 :=
    toNat_add_one hcount
  refine h.change ht hchange (a :: rest) rest [] [a] ?_ ?_ ?_ ?_ ?_ ?_ ?_ ?_ ?_ ?_
  · simp [TTaskQueue.unclaimed, hpoint, hwaiting, Point.rejecting, Point.claims]
  · simp [TTaskQueue.unclaimed, hpoint', hwaiting', Point.rejecting, Point.claims, hprev]
  · simp [TTaskQueue.claimed, hpoint, Point.claims]
  · simp [TTaskQueue.claimed, hpoint', hwaiting', Point.claims, hprev]
  · simp only [hpoint, hpoint', hcount', Point.toUndo, hprev, if_true, List.length_append,
      List.length_singleton]
    omega
  · simp only [List.length_append, List.length_singleton]
    omega
  · intro b n hn
    have hb := h.single b
    simp only [List.count_append, List.count_cons, List.count_nil] at hn ⊢
    omega
  · intro b n hn
    have hb := h.claimed_le b
    simp only [List.count_append, List.count_cons, List.count_nil] at hn ⊢
    omega
  · intro hlive b n hn
    have hb := h.requests hlive b
    simp only [List.count_append, List.count_cons, List.count_nil] at hn ⊢
    omega
  · intro _
    rw [hwaiting']
    simp

/-- A `fetch_add` that exceeds the limit, in `ProcessInflightQueue`. -/
theorem Admission.inflightExceed (h : Admission c q history) {t : Nat} (ht : t < c.threadCount)
    (hpoint : q.thread t = .inflightAdd)
    (hprev : ¬q.runningInternalCount < c.maxRunningInternal)
    (hcount : q.runningInternalCount.toNat < 2 ^ 64 - 1) :
    Admission c ((q.setCount (q.runningInternalCount + 1)).setThread t
      (.inflightCompare q.runningInternalCount)) history := by
  have hchange := (ChangesAt.setCount q t (q.runningInternalCount + 1)).trans
    (.setThread _ t (.inflightCompare q.runningInternalCount))
  have hbound := h.bound
  set q' := (q.setCount (q.runningInternalCount + 1)).setThread t
    (.inflightCompare q.runningInternalCount) with hq'
  have hpoint' : q'.thread t = .inflightCompare q.runningInternalCount := by simp [hq']
  have hwaiting' : q'.waiting t = q.waiting t := rfl
  have hcount' : q'.runningInternalCount.toNat = q.runningInternalCount.toNat + 1 :=
    toNat_add_one hcount
  refine h.change ht hchange (q.waiting t) (q.waiting t) [] [] ?_ ?_ ?_ ?_ ?_ hbound ?_ ?_ ?_ ?_
  · simp [TTaskQueue.unclaimed, hpoint, Point.rejecting, Point.claims]
  · simp [TTaskQueue.unclaimed, hpoint', hwaiting', Point.rejecting, Point.claims, hprev]
  · simp [TTaskQueue.claimed, hpoint, Point.claims]
  · simp [TTaskQueue.claimed, hpoint', Point.claims, hprev]
  · simp only [hpoint, hpoint', hcount', Point.toUndo, hprev, if_false]
    omega
  · intro b n hn
    have hb := h.single b
    omega
  · intro b n hn
    have hb := h.claimed_le b
    omega
  · intro hlive b n hn
    have hb := h.requests hlive b
    omega
  · intro _
    rw [hwaiting']
    exact h.expects t ht (by rw [hpoint]; rfl)

/-- The pop of `ProcessInflightQueue`. -/
theorem Admission.inflightPop (h : Admission c q history) {t : Nat} (ht : t < c.threadCount)
    {prev : UInt64} (hpoint : q.thread t = .inflightCompare prev)
    (hprev : prev < c.maxRunningInternal) {a : η} {rest : List η}
    (hwaiting : q.waiting t = a :: rest) {ctx : TPerThreadContext η}
    (hctx : ctx.inflightWaitingTasksInternal = rest) :
    Admission c ((q.setContext t ctx).setThread t (.inflightPush a)) history := by
  have hchange := (ChangesAt.setContext q t ctx).trans (.setThread _ t (.inflightPush a))
  have hbound := h.bound
  set q' := (q.setContext t ctx).setThread t (.inflightPush a) with hq'
  have hpoint' : q'.thread t = .inflightPush a := by simp [hq']
  have hwaiting' : q'.waiting t = rest := by simp [hq', TTaskQueue.waiting, hctx]
  have hcount' : q'.runningInternalCount = q.runningInternalCount := rfl
  refine h.change ht hchange rest rest [a] [] ?_ ?_ ?_ ?_ ?_ hbound ?_ ?_ ?_ ?_
  · simp [TTaskQueue.unclaimed, hpoint, hwaiting, Point.rejecting, Point.claims, hprev]
  · simp [TTaskQueue.unclaimed, hpoint', hwaiting', Point.rejecting, Point.claims]
  · simp [TTaskQueue.claimed, hpoint, hwaiting, Point.claims, hprev]
  · simp [TTaskQueue.claimed, hpoint', Point.claims]
  · simp only [hpoint, hpoint', hcount', Point.toUndo, hprev, if_true]
  · intro b n hn
    have hb := h.single b
    omega
  · intro b n hn
    have hb := h.claimed_le b
    simp only [List.count_nil]
    omega
  · intro hlive b n hn
    have hb := h.requests hlive b
    omega
  · intro hexp
    rw [hpoint'] at hexp
    cases hexp

/-- A `fetch_sub` that undoes an increment, in either function. -/
theorem Admission.undo (h : Admission c q history) {t : Nat} (ht : t < c.threadCount)
    {p p' : Point η} (hpoint : q.thread t = p) (hundo : p.toUndo c = 1)
    (hundo' : p'.toUndo c = 0) (hclaims : p.claims c = false) (hclaims' : p'.claims c = false)
    (hrejecting : p'.rejecting c = p.rejecting c) (hexpects : p'.expects = false) :
    Admission c ((q.setCount (q.runningInternalCount - 1)).setThread t p') history := by
  have hchange := (ChangesAt.setCount q t (q.runningInternalCount - 1)).trans
    (.setThread _ t p')
  have hbound := h.bound
  have hreleased := h.released_le
  have hpositive : 1 ≤ q.runningInternalCount.toNat := by
    have hold := h.count_eq
    have hle : (q.thread t).toUndo c ≤ q.undos c :=
      le_sum_range ht fun i => (q.thread i).toUndo c
    rw [hpoint, hundo] at hle
    omega
  set q' := (q.setCount (q.runningInternalCount - 1)).setThread t p' with hq'
  have hpoint' : q'.thread t = p' := by simp [hq']
  have hwaiting' : q'.waiting t = q.waiting t := rfl
  have hcount' : q'.runningInternalCount.toNat = q.runningInternalCount.toNat - 1 :=
    toNat_sub_one hpositive
  refine h.change ht hchange (p.rejecting c ++ q.waiting t)
    (p.rejecting c ++ q.waiting t) [] [] ?_ ?_ ?_ ?_ ?_ hbound ?_ ?_ ?_ ?_
  · simp [TTaskQueue.unclaimed, hpoint, hclaims]
  · simp [TTaskQueue.unclaimed, hpoint', hwaiting', hclaims', hrejecting]
  · simp [TTaskQueue.claimed, hpoint, hclaims]
  · simp [TTaskQueue.claimed, hpoint', hclaims']
  · simp only [hpoint, hpoint', hcount', hundo, hundo']
    omega
  · intro b n hn
    have hb := h.single b
    omega
  · intro b n hn
    have hb := h.claimed_le b
    omega
  · intro hlive b n hn
    have hb := h.requests hlive b
    omega
  · intro hexp
    rw [hpoint', hexpects] at hexp
    cases hexp

/-- The `fetch_add` of an `IncInflight` that finds a slot. -/
theorem Admission.incTake (h : Admission c q history) (hpos : c.maxRunningInternal ≠ 0) {t : Nat}
    (ht : t < c.threadCount) {back : Back η} (hpoint : q.thread t = .running back .client) {a : η}
    {threadHint : Nat} (hprev : q.runningInternalCount < c.maxRunningInternal)
    (hcount : q.runningInternalCount.toNat < 2 ^ 64 - 1) (hpending : q.pendingCount c a = 0)
    (hadmitted : history.admitted.count a = history.released.count a) :
    Admission c
      ((q.setCount (q.runningInternalCount + 1)).setThread t
        (.running back (.incCompare a threadHint q.runningInternalCount)))
      { history with
        requested := history.requested ++ [a]
        admitted := history.admitted ++ [a] } := by
  have hchange := (ChangesAt.setCount q t (q.runningInternalCount + 1)).trans
    (.setThread _ t (.running back (.incCompare a threadHint q.runningInternalCount)))
  have hlt : q.runningInternalCount.toNat < c.maxRunningInternal.toNat := hprev
  have hold := h.count_eq
  set q' := (q.setCount (q.runningInternalCount + 1)).setThread t
    (.running back (.incCompare a threadHint q.runningInternalCount)) with hq'
  have hpoint' : q'.thread t =
      .running back (.incCompare a threadHint q.runningInternalCount) := by simp [hq']
  have hwaiting' : q'.waiting t = q.waiting t := rfl
  have hcount' : q'.runningInternalCount.toNat = q.runningInternalCount.toNat + 1 :=
    toNat_add_one hcount
  refine h.change ht hchange (q.waiting t) (q.waiting t) [] [] ?_ ?_ ?_ ?_ ?_ ?_ ?_ ?_ ?_ ?_
  · simp [TTaskQueue.unclaimed, hpoint, Point.rejecting, Point.claims]
  · simp [TTaskQueue.unclaimed, hpoint', hwaiting', Point.rejecting, Point.claims, hprev]
  · simp [TTaskQueue.claimed, hpoint, Point.claims]
  · simp [TTaskQueue.claimed, hpoint', Point.claims]
  · simp only [hpoint, hpoint', hcount', Point.toUndo, hprev, hpos, false_or, if_true,
      List.length_append, List.length_singleton]
    omega
  · simp only [List.length_append, List.length_singleton]
    omega
  · intro b n hn
    have hb := h.single b
    simp only [List.count_append, List.count_cons, List.count_nil]
    by_cases hab : a = b
    · subst hab
      simp only [beq_self_eq_true, if_true]
      omega
    · simp only [beq_iff_eq, hab, if_false]
      omega
  · intro b n hn
    have hb := h.claimed_le b
    simp only [List.count_append]
    omega
  · intro hlive b n hn
    have hb := h.requests hlive b
    simp only [List.count_append]
    omega
  · intro hexp
    rw [hpoint'] at hexp
    cases hexp

/-- The `fetch_add` of an `IncInflight` that exceeds the limit. -/
theorem Admission.incExceed (h : Admission c q history) (hpos : c.maxRunningInternal ≠ 0) {t : Nat}
    (ht : t < c.threadCount) {back : Back η} (hpoint : q.thread t = .running back .client) {a : η}
    {threadHint : Nat} (hprev : ¬q.runningInternalCount < c.maxRunningInternal)
    (hcount : q.runningInternalCount.toNat < 2 ^ 64 - 1) (hpending : q.pendingCount c a = 0)
    (hadmitted : history.admitted.count a = history.released.count a) :
    Admission c
      ((q.setCount (q.runningInternalCount + 1)).setThread t
        (.running back (.incCompare a threadHint q.runningInternalCount)))
      { history with requested := history.requested ++ [a] } := by
  have hchange := (ChangesAt.setCount q t (q.runningInternalCount + 1)).trans
    (.setThread _ t (.running back (.incCompare a threadHint q.runningInternalCount)))
  have hbound := h.bound
  set q' := (q.setCount (q.runningInternalCount + 1)).setThread t
    (.running back (.incCompare a threadHint q.runningInternalCount)) with hq'
  have hpoint' : q'.thread t =
      .running back (.incCompare a threadHint q.runningInternalCount) := by simp [hq']
  have hwaiting' : q'.waiting t = q.waiting t := rfl
  have hcount' : q'.runningInternalCount.toNat = q.runningInternalCount.toNat + 1 :=
    toNat_add_one hcount
  refine h.change ht hchange (q.waiting t) (a :: q.waiting t) [] [] ?_ ?_ ?_ ?_ ?_
    hbound ?_ ?_ ?_ ?_
  · simp [TTaskQueue.unclaimed, hpoint, Point.rejecting, Point.claims]
  · simp [TTaskQueue.unclaimed, hpoint', hwaiting', Point.rejecting, Point.claims, hprev, hpos]
  · simp [TTaskQueue.claimed, hpoint, Point.claims]
  · simp [TTaskQueue.claimed, hpoint', Point.claims]
  · simp only [hpoint, hpoint', hcount', Point.toUndo, hprev, hpos, false_or, if_false]
    omega
  · intro b n hn
    have hb := h.single b
    simp only [List.count_cons]
    by_cases hab : a = b
    · subst hab
      simp only [beq_self_eq_true, if_true]
      omega
    · simp only [beq_iff_eq, hab, if_false]
      omega
  · intro b n hn
    have hb := h.claimed_le b
    dsimp only
    omega
  · intro hlive b n hn
    have hb := h.requests hlive b
    simp only [List.count_append, List.count_cons, List.count_nil]
    omega
  · intro hexp
    rw [hpoint'] at hexp
    cases hexp

/-- `DecInflight` of a coroutine that has a slot. -/
theorem Admission.dec (h : Admission c q history) {t : Nat} (ht : t < c.threadCount) {a : η}
    (hwaiting : q.waitingCount c a = 0)
    (hadmitted : history.released.count a < history.admitted.count a) :
    Admission c (q.setCount (q.runningInternalCount - 1))
      { history with released := history.released ++ [a] } := by
  have hbound := h.bound
  have hold := h.count_eq
  have hclaimed : q.claimedCount c a = 0 := by
    have hle : q.claimedCount c a ≤ q.waitingCount c a := by
      refine sum_le_sum fun i _ => ?_
      rw [← q.claimed_append_unclaimed (c := c), List.count_append]
      omega
    omega
  have hlength : (history.released ++ [a]).length ≤ history.admitted.length := by
    refine (List.subperm_iff_count.2 fun b => ?_).length_le
    have hb := h.claimed_le b
    simp only [List.count_append, List.count_cons, List.count_nil]
    by_cases hab : a = b
    · subst hab
      simp only [beq_self_eq_true, if_true]
      omega
    · simp only [beq_iff_eq, hab, if_false]
      omega
  simp only [List.length_append, List.length_singleton] at hlength
  have hcount' : (q.runningInternalCount - 1).toNat = q.runningInternalCount.toNat - 1 :=
    toNat_sub_one (by omega)
  refine h.change ht (.setCount q t _) _ _ _ _ rfl rfl rfl rfl ?_ ?_ ?_ ?_ ?_ (h.expects t ht)
  · simp only [TTaskQueue.setCount, hcount', List.length_append, List.length_singleton]
    omega
  · simp only [List.length_append, List.length_singleton]
    omega
  · intro b n hn
    have hb := h.single b
    simp only [List.count_append, List.count_cons, List.count_nil] at hn ⊢
    change n + (List.count b ((q.thread t).rejecting c) + List.count b (q.unclaimed c t)) + _ ≤ _
    omega
  · intro b n hn
    have hb := h.claimed_le b
    simp only [List.count_append, List.count_cons, List.count_nil]
    change n + List.count b (q.claimed c t) + _ ≤ _
    by_cases hab : a = b
    · subst hab
      simp only [beq_self_eq_true, if_true]
      omega
    · simp only [beq_iff_eq, hab, if_false]
      omega
  · intro hlive b n hn
    have hb := h.requests hlive b
    change history.requested.count b = history.admitted.count b + history.threw.count b +
      (n + List.count b ((q.thread t).rejecting c ++ q.unclaimed c t))
    omega

/-- An `IncInflight` whose waiting queue is full. -/
theorem Admission.incThrow (h : Admission c q history) {t : Nat} (ht : t < c.threadCount)
    {back : Back η} {a : η} {threadHint : Nat}
    (hpoint : q.thread t = .running back (.incPush a threadHint)) :
    Admission c (q.setThread t (.running back .client))
      { history with threw := history.threw ++ [a] } := by
  have hbound := h.bound
  have hchange := ChangesAt.setThread q t (.running back .client)
  set q' := q.setThread t (.running back .client) with hq'
  have hpoint' : q'.thread t = .running back .client := by simp [hq']
  have hwaiting' : q'.waiting t = q.waiting t := rfl
  have hcount' : q'.runningInternalCount = q.runningInternalCount := rfl
  refine h.change ht hchange (a :: q.waiting t) (q.waiting t) [] [] ?_ ?_ ?_ ?_ ?_
    hbound ?_ ?_ ?_ ?_
  · simp [TTaskQueue.unclaimed, hpoint, Point.rejecting, Point.claims]
  · simp [TTaskQueue.unclaimed, hpoint', hwaiting', Point.rejecting, Point.claims]
  · simp [TTaskQueue.claimed, hpoint, Point.claims]
  · simp [TTaskQueue.claimed, hpoint', Point.claims]
  · simp only [hpoint, hpoint', hcount', Point.toUndo]
  · intro b n hn
    have hb := h.single b
    simp only [List.count_cons] at hn
    dsimp only
    omega
  · intro b n hn
    have hb := h.claimed_le b
    dsimp only
    omega
  · intro hlive b n hn
    have hb := h.requests hlive b
    simp only [List.count_cons] at hn
    simp only [List.count_append, List.count_cons, List.count_nil]
    omega
  · intro hexp
    rw [hpoint'] at hexp
    cases hexp

omit [DecidableEq η] in
/-- A context whose waiting queue gets one more handle. -/
theorem unclaimed_append {u : Nat} {a : η} {ctx : TPerThreadContext η}
    (hctx : ctx.inflightWaitingTasksInternal = q.waiting u ++ [a])
    (hexpects : (q.thread u).expects = true → q.waiting u ≠ []) :
    (q.setContext u ctx).unclaimed c u = q.unclaimed c u ++ [a] ∧
      (q.setContext u ctx).claimed c u = q.claimed c u := by
  have hwaiting' : (q.setContext u ctx).waiting u = q.waiting u ++ [a] := by
    simp [TTaskQueue.waiting, hctx]
  simp only [TTaskQueue.unclaimed, TTaskQueue.claimed, hwaiting', TTaskQueue.setContext_thread]
  by_cases hclaims : (q.thread u).claims c = true
  · have hne : q.waiting u ≠ [] := by
      refine hexpects ?_
      cases hthread : q.thread u with
      | inflightCompare prev => rfl
      | _ => simp [hthread, Point.claims] at hclaims
    obtain ⟨b, rest, hw⟩ := List.exists_cons_of_ne_nil hne
    simp [hclaims, hw]
  · simp [hclaims]

/-- A refused coroutine joins a waiting queue. -/
theorem Admission.incRefuse (h : Admission c q history) {t : Nat} (ht : t < c.threadCount)
    {back : Back η} {a : η} {threadHint : Nat}
    (hpoint : q.thread t = .running back (.incPush a threadHint)) {u : Nat}
    (hu : u < c.threadCount) {ctx : TPerThreadContext η}
    (hctx : ctx.inflightWaitingTasksInternal = q.waiting u ++ [a]) :
    Admission c ((q.setThread t (.running back .client)).setContext u ctx) history := by
  have hthrow := h.incThrow ht hpoint
  have hpending : ∀ b, q.pendingCount c b =
      (q.setThread t (.running back .client)).pendingCount c b + [a].count b := by
    intro b
    have hstep := (ChangesAt.setThread q t (.running back .client)).pendingCount (c := c) ht b
    have hwaiting' : (q.setThread t (.running back .client)).waiting t = q.waiting t := rfl
    simp only [TTaskQueue.setThread_thread, if_true, hpoint, Point.rejecting, TTaskQueue.unclaimed,
      Point.claims, Bool.false_eq_true, if_false, hwaiting', List.count_nil] at hstep
    omega
  set q₁ := q.setThread t (.running back .client) with hq₁
  have hsame : ∀ i, q₁.waiting i = q.waiting i := fun _ => rfl
  have hctx' : ctx.inflightWaitingTasksInternal = q₁.waiting u ++ [a] := by rw [hctx, hsame]
  obtain ⟨hunclaimed, hclaimed⟩ := unclaimed_append (c := c) hctx' (hthrow.expects u hu)
  refine hthrow.change hu (.setContext q₁ u ctx) _ _ _ _ rfl rfl rfl rfl ?_ h.bound ?_ ?_ ?_ ?_
  · rfl
  · intro b n hn
    have hb := h.single b
    have hp := hpending b
    rw [hunclaimed, ← List.append_assoc, List.count_append]
    change n + (List.count b ((q₁.thread u).rejecting c ++ q₁.unclaimed c u) + [a].count b) +
      history.admitted.count b ≤ history.released.count b + 1
    omega
  · intro b n hn
    have hb := hthrow.claimed_le b
    rw [hclaimed]
    dsimp only at hb
    omega
  · intro hlive b n hn
    have hb := h.requests hlive b
    have hp := hpending b
    rw [hunclaimed, ← List.append_assoc, List.count_append]
    change history.requested.count b = history.admitted.count b + history.threw.count b +
      (n + (List.count b ((q₁.thread u).rejecting c ++ q₁.unclaimed c u) + [a].count b))
    omega
  · intro _
    simp [TTaskQueue.waiting, hctx]

/-- `Join` destroys a handle. -/
theorem Admission.destroy (h : Admission c q history) (hdead : ¬q.Live)
    (hthread : ∀ t < c.threadCount, q.thread t = .exited) {k : Nat} {a : η}
    {ctx : TPerThreadContext η} (hnext : drainNext (q.context k) = some (a, ctx)) :
    Admission c (q.setContext k ctx) history := by
  have hsub : ∀ i, (q.setContext k ctx).waiting i = q.waiting i ∨
      ∃ b, q.waiting i = b :: (q.setContext k ctx).waiting i := by
    intro i
    by_cases hi : i = k
    · subst hi
      simp only [TTaskQueue.waiting, TTaskQueue.setContext_context, if_true]
      unfold drainNext at hnext
      split at hnext <;> cases hnext <;> simp_all
    · exact .inl (by simp [TTaskQueue.waiting, hi])
  have hcount_le : ∀ i b, ((q.setContext k ctx).waiting i).count b ≤ (q.waiting i).count b := by
    intro i b
    rcases hsub i with heq | ⟨b', heq⟩
    · rw [heq]
    · rw [heq, List.count_cons]
      omega
  have hpending : ∀ b, (q.setContext k ctx).pendingCount c b ≤ q.pendingCount c b := by
    intro b
    refine sum_le_sum fun i hi => ?_
    have hexit := hthread i (mem_range.1 hi)
    simp only [TTaskQueue.setContext_thread, TTaskQueue.unclaimed, hexit, Point.claims,
      Bool.false_eq_true, if_false]
    have hle := hcount_le i b
    omega
  have hclaimed : ∀ b, (q.setContext k ctx).claimedCount c b = q.claimedCount c b := by
    intro b
    refine sum_congr rfl fun i hi => ?_
    have hexit := hthread i (mem_range.1 hi)
    simp only [TTaskQueue.setContext_thread, TTaskQueue.claimed, hexit, Point.claims,
      Bool.false_eq_true, if_false]
  exact
    { count_eq := h.count_eq
      bound := h.bound
      single := by
        intro b
        have hs := h.single b
        have hp := hpending b
        omega
      claimed_le := by
        intro b
        rw [hclaimed]
        exact h.claimed_le b
      requests := fun hl => absurd hl hdead
      expects := by
        intro i hlt hexp
        rw [TTaskQueue.setContext_thread, hthread i hlt] at hexp
        cases hexp }

end Changes

section Run

variable {η γ ι : Type} [DecidableEq η] {c : Config} {client : Client η γ ι} {s s' : System η γ}

/-- The parts of the history that the invariant does not mention may change. -/
theorem Admission.of_history {q : TTaskQueue η} {history history' : History η}
    (h : Admission c q history) (hrequested : history'.requested = history.requested)
    (hadmitted : history'.admitted = history.admitted)
    (hreleased : history'.released = history.released) (hthrew : history'.threw = history.threw) :
    Admission c q history' where
  count_eq := by rw [hreleased, hadmitted]; exact h.count_eq
  bound := by rw [hreleased, hadmitted]; exact h.bound
  single := by rw [hreleased, hadmitted]; exact h.single
  claimed_le := by rw [hreleased, hadmitted]; exact h.claimed_le
  requests := by rw [hrequested, hadmitted, hthrew]; exact h.requests
  expects := h.expects

theorem Admission.loop [Fintype η] (hframes : Fintype.card η ≤ 2 ^ 60)
    (h : Admission c s.q s.history) {t : Nat}
    (ht : t < c.threadCount) (hmove : LoopMove c client s t s') :
    Admission c s'.q s'.history := by
  have hcount := h.count_lt hframes
  cases hmove with
  -- the points before and after claim no slot and have no increment to undo
  | exit hpoint _ | batchDone hpoint | batchBreak _ _ hpoint _ | inflightLeave hpoint
  | inflightDrop _ hpoint _ | sleepDone hpoint | internalNone hpoint _ =>
    exact h.setThread _ hpoint rfl rfl rfl (by simp [Point.expects])
  | drain hpoint _ =>
    have hctx := h.setContext t ({ s.q.context t with readyTasksExternal := [] }) rfl
    exact hctx.setThread _ hpoint rfl rfl rfl (by simp [Point.expects])
  | batchResume a rest hpoint _ =>
    have hnext := h.setThread (.running (.batch rest) .client) hpoint rfl rfl rfl
      (by simp [Point.expects])
    exact hnext.of_history rfl rfl rfl rfl
  | inflightEnter hpoint hwaiting _ =>
    exact h.setThread _ hpoint rfl rfl rfl fun _ => hwaiting
  | inflightAdd hpoint =>
    have hne := h.expects t ht (by rw [hpoint]; rfl)
    obtain ⟨a, rest, hwaiting⟩ := List.exists_cons_of_ne_nil hne
    have hwaiting' : (s.q.context t).inflightWaitingTasksInternal = a :: rest := hwaiting
    simp only [inflightFetchAdd, hwaiting']
    split
    · next hprev => exact h.inflightTake ht hpoint hwaiting hprev hcount
    · next hprev => exact h.inflightExceed ht hpoint hprev hcount
  | inflightPop prev a rest hpoint hprev hwaiting =>
    exact (h.inflightPop ht hpoint hprev hwaiting rfl).of_history rfl rfl rfl rfl
  | inflightMiss prev hpoint hprev hwaiting =>
    exact absurd hwaiting (h.expects t ht (by rw [hpoint]; rfl))
  | inflightReject prev hpoint hprev =>
    refine h.setThread _ hpoint ?_ ?_ rfl (by simp [Point.expects])
    · simp [Point.claims, hprev]
    · simp [Point.toUndo, hprev]
  | inflightUndo hpoint =>
    exact h.undo ht hpoint rfl rfl rfl rfl rfl rfl
  | inflightPush a hpoint _ =>
    have hctx := h.setContext t ({ s.q.context t with
      readyTasksInternal := (s.q.context t).readyTasksInternal ++ [a] }) rfl
    exact hctx.setThread _ hpoint rfl rfl rfl (by simp [Point.expects])
  | awaken i a hpoint _ _ => exact h.setContext _ _ rfl
  | awakenFull i a hpoint _ _ =>
    have hctx := h.setContext t ({ s.q.context t with
      sleepingTasks := (s.q.context t).sleepingTasks.eraseIdx i }) rfl
    exact hctx.setThread _ hpoint rfl rfl rfl (by simp [Point.expects])
  | internalResume a rest hpoint _ =>
    have hctx := h.setContext t
      ({ s.q.context t with readyTasksInternal := rest }) rfl
    have hnext := hctx.setThread (.running .internal .client) hpoint rfl rfl rfl
      (by simp [Point.expects])
    exact hnext.of_history rfl rfl rfl rfl
  | incAdmit back a threadHint prev hpoint hprev =>
    refine (h.setThread (.running back .client) hpoint rfl ?_ ?_
      (by simp [Point.expects])).of_history rfl rfl rfl rfl
    · simp [Point.toUndo, hprev]
    · simp [Point.rejecting, hprev]
  | incReject back a threadHint prev hpoint hprev =>
    refine h.setThread _ hpoint rfl ?_ ?_ (by simp [Point.expects])
    · simp [Point.toUndo, hprev]
    · simp [Point.rejecting, hprev]
  | incUndo back a threadHint hpoint =>
    exact h.undo ht hpoint rfl rfl rfl rfl rfl rfl
  | incRefuse back a threadHint hpoint _ =>
    exact (h.incRefuse ht hpoint (c.home_lt threadHint) rfl).of_history rfl rfl rfl rfl
  | incThrow back a threadHint hpoint _ => exact h.incThrow ht hpoint

theorem Admission.threadSafe (h : Admission c s.q s.history) {t : Option Nat} {a : η}
    {threadHint : Nat} (hmove : ThreadSafeMove c client s t a threadHint s') :
    Admission c s'.q s'.history := by
  cases hmove with
  | push _ =>
    exact (h.setContext (c.home threadHint) ({ s.q.context (c.home threadHint) with
      readyTasksExternal := (s.q.context (c.home threadHint)).readyTasksExternal ++ [a] })
      rfl).of_history rfl rfl rfl rfl
  | full _ => exact h

theorem Admission.call [Fintype η] (hframes : Fintype.card η ≤ 2 ^ 60)
    (hpos : c.maxRunningInternal ≠ 0) (h : Admission c s.q s.history) {t : Nat}
    (ht : t < c.threadCount) {back : Back η} (hpoint : s.q.thread t = .running back .client)
    {call : Call η} (hdisc : Disciplined c s (.call (some t) call : Action η ι))
    (hmove : CallMove c client s t back call s') : Admission c s'.q s'.history := by
  have hcount := h.count_lt hframes
  cases hmove with
  | taskReady a threadHint _ =>
    exact (h.setContext (c.home threadHint) ({ s.q.context (c.home threadHint) with
      readyTasksInternal := (s.q.context (c.home threadHint)).readyTasksInternal ++ [a] })
      rfl).of_history rfl rfl rfl rfl
  | taskReadyFull a threadHint _ => exact h
  | asyncSleep a threadHint =>
    exact (h.setContext (c.home threadHint) ({ s.q.context (c.home threadHint) with
      sleepingTasks := (s.q.context (c.home threadHint)).sleepingTasks ++ [a] })
      rfl).of_history rfl rfl rfl rfl
  | incTake a threadHint hprev =>
    obtain ⟨-, hpending, hadmitted⟩ := hdisc
    exact h.incTake hpos ht hpoint (hprev.resolve_left hpos) hcount hpending hadmitted
  | incExceed a threadHint hprev =>
    obtain ⟨-, hpending, hadmitted⟩ := hdisc
    exact h.incExceed hpos ht hpoint (fun hlt => hprev (.inr hlt)) hcount hpending hadmitted
  | decInflight a => exact h.dec ht hdisc.1 hdisc.2
  | threadSafe a threadHint hmove => exact h.threadSafe hmove

theorem Admission.join (h : Admission c s.q s.history) (hsettled : s.q.Settled c)
    (hmove : JoinMove c s s') : Admission c s'.q s'.history := by
  cases hmove with
  | joined hjoin hexited =>
    exact h.frame rfl (fun _ => rfl) (fun _ => rfl) (fun _ => rfl) (fun _ => rfl) h.expects
      fun _ => .inr hjoin
  | destroy k a ctx hjoin hk hnext =>
    have hdead : ¬s.q.Live := by simp [TTaskQueue.Live, hjoin]
    exact (h.destroy hdead (hsettled hdead) hnext).of_history rfl rfl rfl rfl
  | nextContext k hjoin _ _ =>
    exact h.frame rfl (fun _ => rfl) (fun _ => rfl) (fun _ => rfl) (fun _ => rfl) h.expects
      (by simp [TTaskQueue.Live, System.setJoin, TTaskQueue.setJoin])
  | returned k hjoin _ =>
    exact h.frame rfl (fun _ => rfl) (fun _ => rfl) (fun _ => rfl) (fun _ => rfl) h.expects
      (by simp [TTaskQueue.Live, System.setJoin, TTaskQueue.setJoin])

theorem Admission.step [Fintype η] (hframes : Fintype.card η ≤ 2 ^ 60)
    (hpos : c.maxRunningInternal ≠ 0) (h : Admission c s.q s.history) (hsettled : s.q.Settled c)
    {a : Action η ι} (hdisc : Disciplined c s a)
    (hstep : TaskQueue.step c client s a = some s') : Admission c s'.q s'.history := by
  cases step_move hstep with
  | loop t pick ht hmove => exact h.loop hframes ht hmove
  | call t call back state ht hpoint _ hmove =>
    exact Admission.call (s := s.setClient state) hframes hpos h ht hpoint hdisc hmove
  | callOutside a threadHint state _ hmove =>
    exact Admission.threadSafe (s := s.setClient state) h hmove
  | ret t back state ht hpoint _ =>
    refine h.setThread _ hpoint ?_ ?_ ?_ ?_
    all_goals cases back <;> simp [Back.point, Point.claims, Point.toUndo, Point.rejecting,
      Point.expects]
  | own i state _ => exact h
  | wakeup =>
    exact h.frame rfl (fun _ => rfl) (fun _ => rfl) (fun _ => rfl) (fun _ => rfl) h.expects
      fun hl => hl
  | requestStop hjoin =>
    exact h.frame rfl (fun _ => rfl) (fun _ => rfl) (fun _ => rfl) (fun _ => rfl) h.expects
      fun _ => .inl hjoin
  | join hmove => exact h.join hsettled hmove

theorem start_admission (state : γ) :
    Admission c (System.start state : System η γ).q (System.start state : System η γ).history where
  count_eq := by
    simp [System.start, TTaskQueue.started, History.empty, TTaskQueue.undos, Point.toUndo]
  bound := by simp [System.start, History.empty]
  single := by
    simp [System.start, TTaskQueue.started, History.empty, TTaskQueue.pendingCount,
      TTaskQueue.unclaimed, TTaskQueue.waiting, TPerThreadContext.empty, Point.claims,
      Point.rejecting]
  claimed_le := by
    simp [System.start, TTaskQueue.started, History.empty, TTaskQueue.claimedCount,
      TTaskQueue.claimed, Point.claims]
  requests := by
    simp [System.start, TTaskQueue.started, History.empty, TTaskQueue.pendingCount,
      TTaskQueue.unclaimed, TTaskQueue.waiting, TPerThreadContext.empty, Point.claims,
      Point.rejecting]
  expects := by simp [System.start, TTaskQueue.started, Point.expects]

omit [DecidableEq η] in
/-- Only `Join` ends the life of a queue, and it leaves the history as it is. -/
theorem Move.history_of_dying {a : Action η ι} (hmove : Move c client s a s') (hlive : s.q.Live)
    (hdead : ¬s'.q.Live) : s'.history = s.history := by
  cases hmove with
  | loop t pick _ hmove => exact absurd (by rwa [TTaskQueue.Live, hmove.frame.1]) hdead
  | call t call back state _ _ _ hmove =>
    exact absurd (by rwa [TTaskQueue.Live, hmove.frame.1]) hdead
  | callOutside h threadHint state _ hmove =>
    exact absurd (by rwa [TTaskQueue.Live, hmove.frame.1]) hdead
  | requestStop _ => exact absurd (.inr rfl) hdead
  | join hmove =>
    cases hmove with
    | destroy _ _ _ _ _ _ => exact absurd hlive hdead
    | _ => rfl
  | _ => exact absurd hlive hdead

/-- Every admission and every exception of `IncInflight` answers a request. -/
def Answers (s : System η γ) : Prop :=
  ∀ h, s.history.admitted.count h + s.history.threw.count h ≤ s.history.requested.count h

theorem Answers.step {a : Action η ι} (h : Answers s) (hsettled : s.q.Settled c)
    (hnext : Admission c s'.q s'.history) (hmove : Move c client s a s') : Answers s' := by
  intro b
  by_cases hlive' : s'.q.Live
  · rw [hnext.requests hlive' b]
    omega
  · by_cases hlive : s.q.Live
    · rw [hmove.history_of_dying hlive hlive']
      exact h b
    · obtain ⟨-, hrequested, hadmitted, hthrew⟩ := hmove.history_of_dead hsettled hlive
      rw [hrequested, hadmitted, hthrew]
      exact h b

end Run

end Tpcc.TaskQueue
