import Tpcc.TaskQueue.Model

/-! What one step of the task queue can do, case by case. -/

namespace Tpcc.TaskQueue

open Lib

variable {η γ ι : Type} {c : Config} {client : Client η γ ι} {s s' : System η γ}

theorem tryPush_eq_some {capacity : Nat} {queue queue' : List η} {h : η} :
    tryPush capacity queue h = some queue' ↔
      queue.length < capacity ∧ queue' = queue ++ [h] := by
  unfold tryPush
  split
  · next hroom => simp [hroom, eq_comm]
  · next hfull => simp [hfull]

theorem tryPush_eq_none {capacity : Nat} {queue : List η} {h : η} :
    tryPush capacity queue h = none ↔ capacity ≤ queue.length := by
  unfold tryPush
  split
  · next hroom => simpa using hroom
  · next hfull => simpa using hfull

theorem Config.home_lt (c : Config) (threadHint : Nat) : c.home threadHint < c.threadCount :=
  Nat.mod_lt _ c.threadCount_pos

section Fields

variable (q : TTaskQueue η) (t i : Nat) (p : Point η) (ctx : TPerThreadContext η) (n : UInt64)

@[simp] theorem TTaskQueue.setThread_thread :
    (q.setThread t p).thread i = if i = t then p else q.thread i := Function.update_apply ..

@[simp] theorem TTaskQueue.setContext_context :
    (q.setContext t ctx).context i = if i = t then ctx else q.context i := Function.update_apply ..

@[simp] theorem TTaskQueue.setThread_context : (q.setThread t p).context = q.context := rfl

@[simp] theorem TTaskQueue.setContext_thread : (q.setContext t ctx).thread = q.thread := rfl

@[simp] theorem TTaskQueue.setCount_thread : (q.setCount n).thread = q.thread := rfl

@[simp] theorem TTaskQueue.setCount_context : (q.setCount n).context = q.context := rfl

@[simp] theorem TTaskQueue.setThread_stopRequested :
    (q.setThread t p).stopRequested = q.stopRequested := rfl

@[simp] theorem TTaskQueue.setContext_stopRequested :
    (q.setContext t ctx).stopRequested = q.stopRequested := rfl

@[simp] theorem TTaskQueue.setCount_stopRequested :
    (q.setCount n).stopRequested = q.stopRequested := rfl

@[simp] theorem TTaskQueue.setThread_join : (q.setThread t p).join = q.join := rfl

@[simp] theorem TTaskQueue.setContext_join : (q.setContext t ctx).join = q.join := rfl

@[simp] theorem TTaskQueue.setCount_join : (q.setCount n).join = q.join := rfl

end Fields

section Parts

variable (s : System η γ) (t : Nat) (h : η)

@[simp] theorem System.setThread_q (p : Point η) : (s.setThread t p).q = s.q.setThread t p := rfl

@[simp] theorem System.setContext_q (ctx : TPerThreadContext η) :
    (s.setContext t ctx).q = s.q.setContext t ctx := rfl

@[simp] theorem System.setCount_q (n : UInt64) : (s.setCount n).q = s.q.setCount n := rfl

@[simp] theorem System.setClient_q (state : γ) : (s.setClient state).q = s.q := rfl

@[simp] theorem System.accept_q : (s.accept h).q = s.q := rfl

@[simp] theorem System.recordResumed_q : (s.recordResumed h).q = s.q := rfl

@[simp] theorem System.recordDestroyed_q : (s.recordDestroyed h).q = s.q := rfl

@[simp] theorem System.recordAdmitted_q : (s.recordAdmitted h).q = s.q := rfl

@[simp] theorem System.recordRequested_q : (s.recordRequested h).q = s.q := rfl

@[simp] theorem System.recordReleased_q : (s.recordReleased h).q = s.q := rfl

@[simp] theorem System.recordThrew_q : (s.recordThrew h).q = s.q := rfl

@[simp] theorem System.recordEnqueued_q : (s.recordEnqueued t h).q = s.q := rfl

@[simp] theorem System.recordMoved_q : (s.recordMoved t h).q = s.q := rfl

@[simp] theorem System.recordDirect_q : (s.recordDirect h).q = s.q := rfl

@[simp] theorem resume_q (back : Back η) :
    (resume client s t back h).q = s.q.setThread t (.running back .client) := rfl

@[simp] theorem finish_q (thread : Option Nat) (call : Call η) (outcome : Outcome) :
    (finish client s thread call outcome).q = s.q := rfl

@[simp] theorem inflightFetchAdd_q : (inflightFetchAdd c s t).q =
    (s.q.setCount (s.q.runningInternalCount + 1)).setThread t
      (.inflightCompare s.q.runningInternalCount) := by
  unfold inflightFetchAdd
  dsimp only
  split
  · split <;> rfl
  · rfl

theorem inflightFetchAdd_rest : (inflightFetchAdd c s t).client = s.client ∧
    ∃ admitted, (inflightFetchAdd c s t).history = { s.history with admitted := admitted } := by
  unfold inflightFetchAdd
  dsimp only
  split
  · split
    · exact ⟨rfl, _, rfl⟩
    · exact ⟨rfl, s.history.admitted, rfl⟩
  · exact ⟨rfl, s.history.admitted, rfl⟩

end Parts

/-- The steps of a thread in `RunThread` and in an `IncInflight` that resumed code called. -/
inductive LoopMove (c : Config) (client : Client η γ ι) (s : System η γ) (t : Nat) :
    System η γ → Prop
  | exit (hpoint : s.q.thread t = .top) (hstop : s.q.stopRequested = true) :
      LoopMove c client s t (s.setThread t .exited)
  | drain (hpoint : s.q.thread t = .top) (hstop : s.q.stopRequested = false) :
      LoopMove c client s t
        ((s.setContext t { s.q.context t with readyTasksExternal := [] }).setThread t
          (.batch (s.q.context t).readyTasksExternal))
  | batchDone (hpoint : s.q.thread t = .batch []) :
      LoopMove c client s t (s.setThread t .inflight)
  | batchBreak (h : η) (rest : List η) (hpoint : s.q.thread t = .batch (h :: rest))
      (hstop : s.q.stopRequested = true) :
      LoopMove c client s t (s.setThread t .inflight)
  | batchResume (h : η) (rest : List η) (hpoint : s.q.thread t = .batch (h :: rest))
      (hstop : s.q.stopRequested = false) :
      LoopMove c client s t (resume client s t (.batch rest) h)
  | inflightEnter (hpoint : s.q.thread t = .inflight)
      (hwaiting : (s.q.context t).inflightWaitingTasksInternal ≠ [])
      (hcount : s.q.runningInternalCount < c.maxRunningInternal) :
      LoopMove c client s t (s.setThread t .inflightAdd)
  | inflightLeave (hpoint : s.q.thread t = .inflight) :
      LoopMove c client s t (s.setThread t .sleeping)
  | inflightAdd (hpoint : s.q.thread t = .inflightAdd) :
      LoopMove c client s t (inflightFetchAdd c s t)
  | inflightPop (prev : UInt64) (h : η) (rest : List η)
      (hpoint : s.q.thread t = .inflightCompare prev) (hprev : prev < c.maxRunningInternal)
      (hwaiting : (s.q.context t).inflightWaitingTasksInternal = h :: rest) :
      LoopMove c client s t
        (((s.setContext t { s.q.context t with inflightWaitingTasksInternal := rest }).setThread t
          (.inflightPush h)).recordMoved t h)
  | inflightMiss (prev : UInt64) (hpoint : s.q.thread t = .inflightCompare prev)
      (hprev : prev < c.maxRunningInternal)
      (hwaiting : (s.q.context t).inflightWaitingTasksInternal = []) :
      LoopMove c client s t (s.setThread t .inflight)
  | inflightReject (prev : UInt64) (hpoint : s.q.thread t = .inflightCompare prev)
      (hprev : ¬prev < c.maxRunningInternal) :
      LoopMove c client s t (s.setThread t .inflightUndo)
  | inflightUndo (hpoint : s.q.thread t = .inflightUndo) :
      LoopMove c client s t ((s.setCount (s.q.runningInternalCount - 1)).setThread t .sleeping)
  | inflightPush (h : η) (hpoint : s.q.thread t = .inflightPush h)
      (hroom : (s.q.context t).readyTasksInternal.length < c.internalCapacity) :
      LoopMove c client s t
        ((s.setContext t { s.q.context t with
          readyTasksInternal := (s.q.context t).readyTasksInternal ++ [h] }).setThread t .inflight)
  | inflightDrop (h : η) (hpoint : s.q.thread t = .inflightPush h)
      (hfull : c.internalCapacity ≤ (s.q.context t).readyTasksInternal.length) :
      LoopMove c client s t (s.setThread t .inflight)
  | awaken (i : Nat) (h : η) (hpoint : s.q.thread t = .sleeping)
      (hpick : (s.q.context t).sleepingTasks[i]? = some h)
      (hroom : (s.q.context t).readyTasksInternal.length < c.internalCapacity) :
      LoopMove c client s t
        (s.setContext t { s.q.context t with
          sleepingTasks := (s.q.context t).sleepingTasks.eraseIdx i
          readyTasksInternal := (s.q.context t).readyTasksInternal ++ [h] })
  | awakenFull (i : Nat) (h : η) (hpoint : s.q.thread t = .sleeping)
      (hpick : (s.q.context t).sleepingTasks[i]? = some h)
      (hfull : c.internalCapacity ≤ (s.q.context t).readyTasksInternal.length) :
      LoopMove c client s t
        ((s.setContext t { s.q.context t with
          sleepingTasks := (s.q.context t).sleepingTasks.eraseIdx i }).setThread t .terminated)
  | sleepDone (hpoint : s.q.thread t = .sleeping) :
      LoopMove c client s t (s.setThread t .internal)
  | internalResume (h : η) (rest : List η) (hpoint : s.q.thread t = .internal)
      (hready : (s.q.context t).readyTasksInternal = h :: rest) :
      LoopMove c client s t
        (resume client (s.setContext t { s.q.context t with readyTasksInternal := rest }) t
          .internal h)
  | internalNone (hpoint : s.q.thread t = .internal)
      (hready : (s.q.context t).readyTasksInternal = []) :
      LoopMove c client s t (s.setThread t .top)
  | incAdmit (back : Back η) (h : η) (threadHint : Nat) (prev : UInt64)
      (hpoint : s.q.thread t = .running back (.incCompare h threadHint prev))
      (hprev : c.maxRunningInternal = 0 ∨ prev < c.maxRunningInternal) :
      LoopMove c client s t
        (finish client ((s.setThread t (.running back .client)).recordDirect h) (some t)
          (.incInflight h threadHint) .admitted)
  | incReject (back : Back η) (h : η) (threadHint : Nat) (prev : UInt64)
      (hpoint : s.q.thread t = .running back (.incCompare h threadHint prev))
      (hprev : ¬(c.maxRunningInternal = 0 ∨ prev < c.maxRunningInternal)) :
      LoopMove c client s t (s.setThread t (.running back (.incUndo h threadHint)))
  | incUndo (back : Back η) (h : η) (threadHint : Nat)
      (hpoint : s.q.thread t = .running back (.incUndo h threadHint)) :
      LoopMove c client s t
        ((s.setCount (s.q.runningInternalCount - 1)).setThread t
          (.running back (.incPush h threadHint)))
  | incRefuse (back : Back η) (h : η) (threadHint : Nat)
      (hpoint : s.q.thread t = .running back (.incPush h threadHint))
      (hroom : (s.q.context (c.home threadHint)).inflightWaitingTasksInternal.length <
        c.internalCapacity) :
      LoopMove c client s t
        (finish client
          ((((s.setThread t (.running back .client)).setContext (c.home threadHint)
            { s.q.context (c.home threadHint) with
              inflightWaitingTasksInternal :=
                (s.q.context (c.home threadHint)).inflightWaitingTasksInternal ++ [h] }).accept
            h).recordEnqueued (c.home threadHint) h)
          (some t) (.incInflight h threadHint) .refused)
  | incThrow (back : Back η) (h : η) (threadHint : Nat)
      (hpoint : s.q.thread t = .running back (.incPush h threadHint))
      (hfull : c.internalCapacity ≤
        (s.q.context (c.home threadHint)).inflightWaitingTasksInternal.length) :
      LoopMove c client s t
        (finish client ((s.setThread t (.running back .client)).recordThrew h) (some t)
          (.incInflight h threadHint) .queueFull)

theorem runThread_move {t : Nat} {pick : Option Nat}
    (hstep : runThread c client s t pick = some s') : LoopMove c client s t s' := by
  unfold runThread at hstep
  dsimp only at hstep
  split at hstep
  · next hpoint =>
    split at hstep
    · next hstop =>
      cases hstep
      exact .exit hpoint hstop
    · next hstop =>
      cases hstep
      exact .drain hpoint (by simpa using hstop)
  · next hpoint =>
    cases hstep
    exact .batchDone hpoint
  · next h rest hpoint =>
    split at hstep
    · next hstop =>
      cases hstep
      exact .batchBreak h rest hpoint hstop
    · next hstop =>
      cases hstep
      exact .batchResume h rest hpoint (by simpa using hstop)
  · next hpoint =>
    split at hstep
    · next htest =>
      cases hstep
      exact .inflightEnter hpoint htest.2.1 htest.2.2
    · cases hstep
      exact .inflightLeave hpoint
  · next hpoint =>
    cases hstep
    exact .inflightAdd hpoint
  · next prev hpoint =>
    split at hstep
    · next hprev =>
      split at hstep
      · next h rest hwaiting =>
        cases hstep
        exact .inflightPop prev h rest hpoint hprev hwaiting
      · next hwaiting =>
        cases hstep
        exact .inflightMiss prev hpoint hprev hwaiting
    · next hprev =>
      cases hstep
      exact .inflightReject prev hpoint hprev
  · next hpoint =>
    cases hstep
    exact .inflightUndo hpoint
  · next h hpoint =>
    split at hstep
    · next ready hpush =>
      obtain ⟨hroom, rfl⟩ := tryPush_eq_some.1 hpush
      cases hstep
      exact .inflightPush h hpoint hroom
    · next hpush =>
      cases hstep
      exact .inflightDrop h hpoint (tryPush_eq_none.1 hpush)
  · next hpoint =>
    split at hstep
    · next i =>
      split at hstep
      · next h hpick =>
        split at hstep
        · next ready hpush =>
          obtain ⟨hroom, rfl⟩ := tryPush_eq_some.1 hpush
          cases hstep
          exact .awaken i h hpoint hpick hroom
        · next hpush =>
          cases hstep
          exact .awakenFull i h hpoint hpick (tryPush_eq_none.1 hpush)
      · cases hstep
    · split at hstep
      · cases hstep
      · cases hstep
        exact .sleepDone hpoint
  · next hpoint =>
    split at hstep
    · next h rest hready =>
      cases hstep
      exact .internalResume h rest hpoint hready
    · next hready =>
      cases hstep
      exact .internalNone hpoint hready
  · cases hstep
  · next back h threadHint prev hpoint =>
    split at hstep
    · next hprev =>
      cases hstep
      exact .incAdmit back h threadHint prev hpoint hprev
    · next hprev =>
      cases hstep
      exact .incReject back h threadHint prev hpoint hprev
  · next back h threadHint hpoint =>
    cases hstep
    exact .incUndo back h threadHint hpoint
  · next back h threadHint hpoint =>
    split at hstep
    · next waiting hpush =>
      obtain ⟨hroom, rfl⟩ := tryPush_eq_some.1 hpush
      cases hstep
      exact .incRefuse back h threadHint hpoint hroom
    · next hpush =>
      cases hstep
      exact .incThrow back h threadHint hpoint (tryPush_eq_none.1 hpush)
  · cases hstep
  · cases hstep

/-- `TaskReadyThreadSafe`, from a queue thread or from outside. -/
inductive ThreadSafeMove (c : Config) (client : Client η γ ι) (s : System η γ) (t : Option Nat)
    (h : η) (threadHint : Nat) : System η γ → Prop
  | push (hroom : (s.q.context (c.home threadHint)).readyTasksExternal.length <
        c.externalCapacity) :
      ThreadSafeMove c client s t h threadHint
        (finish client
          ((s.setContext (c.home threadHint) { s.q.context (c.home threadHint) with
            readyTasksExternal :=
              (s.q.context (c.home threadHint)).readyTasksExternal ++ [h] }).accept h)
          t (.taskReadyThreadSafe h threadHint) .ok)
  | full (hfull : c.externalCapacity ≤
        (s.q.context (c.home threadHint)).readyTasksExternal.length) :
      ThreadSafeMove c client s t h threadHint
        (finish client s t (.taskReadyThreadSafe h threadHint) .queueFull)

theorem taskReadyThreadSafe_move (t : Option Nat) (h : η) (threadHint : Nat) :
    ThreadSafeMove c client s t h threadHint (taskReadyThreadSafe c client s t h threadHint) := by
  unfold taskReadyThreadSafe
  dsimp only
  split
  · next external hpush =>
    obtain ⟨hroom, rfl⟩ := tryPush_eq_some.1 hpush
    exact .push hroom
  · next hpush => exact .full (tryPush_eq_none.1 hpush)

/-- The calls that resumed code makes on thread `t`. -/
inductive CallMove (c : Config) (client : Client η γ ι) (s : System η γ) (t : Nat)
    (back : Back η) : Call η → System η γ → Prop
  | taskReady (h : η) (threadHint : Nat)
      (hroom : (s.q.context (c.home threadHint)).readyTasksInternal.length < c.internalCapacity) :
      CallMove c client s t back (.taskReady h threadHint)
        (finish client
          ((s.setContext (c.home threadHint) { s.q.context (c.home threadHint) with
            readyTasksInternal :=
              (s.q.context (c.home threadHint)).readyTasksInternal ++ [h] }).accept h)
          (some t) (.taskReady h threadHint) .ok)
  | taskReadyFull (h : η) (threadHint : Nat)
      (hfull : c.internalCapacity ≤ (s.q.context (c.home threadHint)).readyTasksInternal.length) :
      CallMove c client s t back (.taskReady h threadHint)
        (finish client s (some t) (.taskReady h threadHint) .queueFull)
  | asyncSleep (h : η) (threadHint : Nat) :
      CallMove c client s t back (.asyncSleep h threadHint)
        (finish client
          ((s.setContext (c.home threadHint) { s.q.context (c.home threadHint) with
            sleepingTasks := (s.q.context (c.home threadHint)).sleepingTasks ++ [h] }).accept h)
          (some t) (.asyncSleep h threadHint) .ok)
  | incTake (h : η) (threadHint : Nat)
      (hprev : c.maxRunningInternal = 0 ∨ s.q.runningInternalCount < c.maxRunningInternal) :
      CallMove c client s t back (.incInflight h threadHint)
        ((((s.setCount (s.q.runningInternalCount + 1)).setThread t
          (.running back (.incCompare h threadHint s.q.runningInternalCount))).recordRequested
          h).recordAdmitted h)
  | incExceed (h : η) (threadHint : Nat)
      (hprev : ¬(c.maxRunningInternal = 0 ∨ s.q.runningInternalCount < c.maxRunningInternal)) :
      CallMove c client s t back (.incInflight h threadHint)
        (((s.setCount (s.q.runningInternalCount + 1)).setThread t
          (.running back (.incCompare h threadHint s.q.runningInternalCount))).recordRequested h)
  | decInflight (h : η) :
      CallMove c client s t back (.decInflight h)
        (finish client ((s.setCount (s.q.runningInternalCount - 1)).recordReleased h) (some t)
          (.decInflight h) .ok)
  | threadSafe (h : η) (threadHint : Nat) {s' : System η γ}
      (hmove : ThreadSafeMove c client s (some t) h threadHint s') :
      CallMove c client s t back (.taskReadyThreadSafe h threadHint) s'

theorem callOnThread_move (t : Nat) (back : Back η) (call : Call η) :
    CallMove c client s t back call (callOnThread c client s t back call) := by
  cases call with
  | taskReady h threadHint =>
    simp only [callOnThread]
    split
    · next ready hpush =>
      obtain ⟨hroom, rfl⟩ := tryPush_eq_some.1 hpush
      exact .taskReady h threadHint hroom
    · next hpush => exact .taskReadyFull h threadHint (tryPush_eq_none.1 hpush)
  | asyncSleep h threadHint => exact .asyncSleep h threadHint
  | incInflight h threadHint =>
    simp only [callOnThread]
    split
    · next hprev => exact .incTake h threadHint hprev
    · next hprev => exact .incExceed h threadHint hprev
  | decInflight h => exact .decInflight h
  | taskReadyThreadSafe h threadHint =>
    exact .threadSafe h threadHint (taskReadyThreadSafe_move (some t) h threadHint)

/-- The steps of `Join`. -/
inductive JoinMove (c : Config) (s : System η γ) : System η γ → Prop
  | joined (hjoin : s.q.join = .joining)
      (hexited : ∀ t < c.threadCount, s.q.thread t = .exited) :
      JoinMove c s (s.setJoin (.draining 0))
  | destroy (k : Nat) (h : η) (ctx : TPerThreadContext η) (hjoin : s.q.join = .draining k)
      (hk : k < c.threadCount) (hnext : drainNext (s.q.context k) = some (h, ctx)) :
      JoinMove c s ((s.setContext k ctx).recordDestroyed h)
  | nextContext (k : Nat) (hjoin : s.q.join = .draining k) (hk : k < c.threadCount)
      (hnext : drainNext (s.q.context k) = none) :
      JoinMove c s (s.setJoin (.draining (k + 1)))
  | returned (k : Nat) (hjoin : s.q.join = .draining k) (hk : ¬k < c.threadCount) :
      JoinMove c s (s.setJoin .returned)

/-- `Join` takes no step before it has been called. -/
theorem JoinMove.called (hmove : JoinMove c s s') : s.q.join ≠ .notCalled := by
  cases hmove with
  | joined hjoin _ | destroy _ _ _ hjoin _ _ | nextContext _ hjoin _ _ | returned _ hjoin _ =>
    rw [hjoin]
    simp

theorem allExited_iff :
    allExited c s = true ↔ ∀ t < c.threadCount, s.q.thread t = .exited := by
  unfold allExited
  rw [List.all_eq_true]
  constructor
  · intro h t ht
    have hpoint := h t (List.mem_range.2 ht)
    split at hpoint
    · next heq => exact heq
    · cases hpoint
  · intro h t ht
    rw [h t (List.mem_range.1 ht)]

theorem joinStep_move (hstep : joinStep c s = some s') : JoinMove c s s' := by
  unfold joinStep at hstep
  split at hstep
  · cases hstep
  · next hjoin =>
    split at hstep
    · next hexited =>
      cases hstep
      exact .joined hjoin (allExited_iff.1 hexited)
    · cases hstep
  · next k hjoin =>
    split at hstep
    · next hk =>
      split at hstep
      · next h ctx hnext =>
        cases hstep
        exact .destroy k h ctx hjoin hk hnext
      · next hnext =>
        cases hstep
        exact .nextContext k hjoin hk hnext
    · next hk =>
      cases hstep
      exact .returned k hjoin hk
  · cases hstep

/-- The steps of the whole system. -/
inductive Move (c : Config) (client : Client η γ ι) (s : System η γ) :
    Action η ι → System η γ → Prop
  | loop (t : Nat) (pick : Option Nat) {s' : System η γ} (ht : t < c.threadCount)
      (hmove : LoopMove c client s t s') : Move c client s (.loop t pick) s'
  | call (t : Nat) (call : Call η) (back : Back η) (state : γ) {s' : System η γ}
      (ht : t < c.threadCount) (hpoint : s.q.thread t = .running back .client)
      (hclient : client.call s.client (some t) call = some state)
      (hmove : CallMove c client (s.setClient state) t back call s') :
      Move c client s (.call (some t) call) s'
  | callOutside (h : η) (threadHint : Nat) (state : γ) {s' : System η γ}
      (hclient : client.call s.client none (.taskReadyThreadSafe h threadHint) = some state)
      (hmove : ThreadSafeMove c client (s.setClient state) none h threadHint s') :
      Move c client s (.call none (.taskReadyThreadSafe h threadHint)) s'
  | ret (t : Nat) (back : Back η) (state : γ) (ht : t < c.threadCount)
      (hpoint : s.q.thread t = .running back .client)
      (hclient : client.ret s.client t = some state) :
      Move c client s (.ret t) ((s.setClient state).setThread t back.point)
  | own (i : ι) (state : γ) (hclient : client.own s.client i = some state) :
      Move c client s (.own i) (s.setClient state)
  | wakeup : Move c client s .wakeupAndNeverSleep { s with q := { s.q with wakeupAll := true } }
  | requestStop (hjoin : s.q.join = .notCalled) :
      Move c client s .requestStop
        { s with q := { s.q with stopRequested := true, join := .joining } }
  | join {s' : System η γ} (hmove : JoinMove c s s') : Move c client s .join s'

theorem step_move {a : Action η ι} (hstep : step c client s a = some s') :
    Move c client s a s' := by
  cases a with
  | loop t pick =>
    simp only [step] at hstep
    split at hstep
    · next ht => exact .loop t pick ht (runThread_move hstep)
    · cases hstep
  | call t call =>
    cases t with
    | some t =>
      simp only [step] at hstep
      split at hstep
      · next ht =>
        split at hstep
        · next back hpoint =>
          obtain ⟨state, hclient, rfl⟩ := Option.map_eq_some_iff.1 hstep
          exact .call t call back state ht hpoint hclient (callOnThread_move t back call)
        · cases hstep
      · cases hstep
    | none =>
      simp only [step] at hstep
      split at hstep
      · next h threadHint =>
        obtain ⟨state, hclient, rfl⟩ := Option.map_eq_some_iff.1 hstep
        exact .callOutside h threadHint state hclient (taskReadyThreadSafe_move none h threadHint)
      · cases hstep
  | ret t =>
    simp only [step] at hstep
    split at hstep
    · next ht =>
      split at hstep
      · next back hpoint =>
        obtain ⟨state, hclient, rfl⟩ := Option.map_eq_some_iff.1 hstep
        exact .ret t back state ht hpoint hclient
      · cases hstep
    · cases hstep
  | own i =>
    obtain ⟨state, hclient, rfl⟩ := Option.map_eq_some_iff.1 hstep
    exact .own i state hclient
  | wakeupAndNeverSleep =>
    cases hstep
    exact .wakeup
  | requestStop =>
    simp only [step] at hstep
    split at hstep
    · next hjoin =>
      cases hstep
      exact .requestStop hjoin
    · cases hstep
  | join => exact .join (joinStep_move hstep)

end Tpcc.TaskQueue
